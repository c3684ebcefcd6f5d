import XBase.Token.Scan

/-!
# Syntax errors

A failure of the grammar stands at a token or at the end of the text. A syntax error is a failure
together with its place.
-/

namespace XBase

inductive SyntaxCause where
  /-- A required token is missing. -/
  | expected (message : String)
  | unexpectedPrimary
  /-- A value is written to what is neither a name nor a member. -/
  | invalidTarget
  | invalidRelease
  /-- The text of a module cannot be had. -/
  | unresolvedImport (module reason : String)
  /-- A module imports itself, directly or through others. -/
  | circularImport (module : String)
  /-- Imports are nested deeper than the library has modules. -/
  | importDepth (module : String)
  | inModule (module : String) (position : Position) (lexeme : Option String)
      (cause : SyntaxCause)
  | scan (cause : ScanCause)

/-- Where a diagnostic says that it stands. -/
def near : Option String → String
  | none => "at end"
  | some lexeme =>
    match lexeme.toList with
    | '\n' :: _ | ';' :: _ => "at end of line"
    | _ => "near of `" ++ lexeme ++ "`"

def SyntaxCause.message : SyntaxCause → String
  | expected message => message
  | unexpectedPrimary => "Unexpected primary expression."
  | invalidTarget => "Invalid left-hand side in assignment expression."
  | invalidRelease => "Invalid RELEASE expression."
  | unresolvedImport module reason =>
    "Invalid module path or file name `" ++ module ++ "`: " ++ reason
  | circularImport module => "Circular import of module `" ++ module ++ "`."
  | importDepth module => "Import of module `" ++ module ++ "` is nested too deeply."
  | inModule module position lexeme cause =>
    "in module `" ++ module ++ "`: " ++ position.text ++ " Parsing error " ++ near lexeme ++
      ": " ++ cause.message
  | scan cause => cause.message

/-- The module that could not be had, if that is the cause. -/
def SyntaxCause.missing? : SyntaxCause → Option String
  | unresolvedImport module _ => some module
  | inModule _ _ _ cause => cause.missing?
  | _ => none

/-- A syntax error and its place; without a lexeme it stands at the end of the text. -/
structure SyntaxError where
  position : Position
  lexeme : Option String
  cause : SyntaxCause

namespace SyntaxError

def message (e : SyntaxError) : String :=
  e.position.text ++ " Parsing error " ++ near e.lexeme ++ ": " ++ e.cause.message

def ofScan (e : ScanError) : SyntaxError :=
  ⟨e.position, some e.cause.lexeme, .scan e.cause⟩

def within (e : SyntaxError) (module : String) : SyntaxCause :=
  .inModule module e.position e.lexeme e.cause

end SyntaxError

/-- A failure of the grammar at a token or, without one, at the end of the text. -/
structure Failure where
  place : Option Token
  cause : SyntaxCause

/-- The syntax error of a failure in a text that ends at `finish`. -/
def Failure.toError (failure : Failure) (finish : Position) : SyntaxError :=
  match failure.place with
  | some token => ⟨token.position, some token.lexeme, failure.cause⟩
  | none => ⟨finish, none, failure.cause⟩

end XBase
