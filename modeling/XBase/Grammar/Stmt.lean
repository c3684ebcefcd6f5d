import XBase.Grammar.Expr
import XBase.Log
import XBase.Program.Stmt

/-!
# The grammar of statements

A statement ends at a separator or at the end of the text. A statement that fails is reported, and
reading goes on at the next statement, so that one pass finds every error.

A statement inside another one is read from fewer tokens than the outer one, which is why reading
ends.
-/

namespace XBase

/-- What is left to read, and what was reported so far. -/
structure Reading where
  tokens : List Token
  failures : List Failure
  log : List Record

/-- Reads a part of a program; also a failure leaves what is left to read. -/
def Read (α : Type) : Type :=
  Reading → Except Failure α × Reading

namespace Read

instance : Monad Read where
  pure a := fun reading => (.ok a, reading)
  bind p f := fun reading =>
    match p reading with
    | (.ok a, rest) => f a rest
    | (.error e, rest) => (.error e, rest)

/-- Reads by a grammar that reports nothing. -/
def lift {α : Type} (parse : Parse α) : Read α := fun reading =>
  let (result, rest) := parse reading.tokens
  (result, { reading with tokens := rest })

instance : MonadLift Parse Read where
  monadLift := lift

def record (level : Level) (text : String) : Read Unit := fun reading =>
  (.ok (), { reading with log := reading.log ++ [⟨level, text⟩] })

def failAt {α : Type} (token : Token) (cause : SyntaxCause) : Read α :=
  lift (Parse.failAt token cause)

end Read

namespace Parse

/-- A statement ends at a separator or at the end of the text. -/
def endOfStatement (message : String) : Parse Unit
  | [] => (.ok (), [])
  | token :: rest =>
    if token.kind = .separator then (.ok (), rest)
    else (.error ⟨some token, .expected message⟩, token :: rest)

def word (keyword : Keyword) : Parse (Option Token) :=
  accept (· == .keyword keyword)

/-- Whether the token after the parenthesis that closes the first one satisfies `next`; the
parentheses stand in one line. -/
def closesBefore (next : Option Kind → Bool) : Nat → List Token → Bool
  | _, [] => false
  | depth, token :: rest =>
    match token.kind with
    | .leftParen => closesBefore next (depth + 1) rest
    | .rightParen =>
      if depth ≤ 1 then next (rest.head?.map Token.kind) else closesBefore next (depth - 1) rest
    | .separator => false
    | _ => closesBefore next depth rest

/-- Whether a parenthesis opens here that closes before a token that satisfies `next`. -/
def opensBefore (next : Option Kind → Bool) : Parse Bool := fun tokens =>
  (.ok (tokens.head?.any (·.kind == .leftParen) && closesBefore next 0 tokens), tokens)

/-- `print a, b`, `print(a, b)` or `? a, b`, after the first token. -/
def print (token : Token) : Parse Stmt := do
  let parenthesized ← opensBefore fun next => next.all (· == .separator)
  if parenthesized then
    let _ ← accept (· == .leftParen)
  let nothing := (← sees .separator) || (← atEnd) || (parenthesized && (← sees .rightParen))
  let values ← if nothing then pure [] else expressions
  if parenthesized then
    let _ ← expect .rightParen "Expect ')' after expressions."
  endOfStatement "Expect new line after `print()` statement."
  return .print token values

/-- `return a, b`, after the keyword. -/
def giveBack (token : Token) : Parse Stmt := do
  let nothing := (← sees .separator) || (← atEnd)
  let values ← if nothing then pure [] else commaList conditional
  endOfStatement "Expect new line after `return` statement."
  return .giveBack token values

/-- `as name`, if it stands here. -/
def asName (message : String) : Parse (Option Token) := do
  match ← word .asWord with
  | none => return none
  | some _ => return some (← expect .name message)

/-- A name of a destructuring declaration; its type has no effect. -/
def typedName : Parse Token := do
  let name ← expect .name "Expect variable name."
  let _ ← asName "Expect variable type name."
  return name

/-- `name as type = value`. -/
def declarator : Parse Declarator := do
  let name ← expect .name "Expect variable name."
  let type ← asName "Expect variable type name."
  match ← accept (· == .assign) with
  | none => return ⟨name, type, none⟩
  | some _ => return ⟨name, type, some (← conditional)⟩

def declare (token : Token) (extent : Extent) : Parse Stmt := do
  match ← accept (· == .leftParen) with
  | some _ =>
    let names ← commaList typedName
    let _ ← expect .rightParen "Expect `)` after variable declarations."
    let _ ← expect .assign "Expect `=` after variable declarations."
    let values ← expressions
    endOfStatement "Expect new line after variable declarations."
    return .destructure token extent names values
  | none =>
    let declarators ← commaList declarator
    endOfStatement "Expect new line after variable declarations."
    return .declare token extent declarators

def const (token : Token) : Parse Stmt := do
  let name ← expect .name "Expect constant name."
  let _ ← expect .assign "Expect `=` after constant name."
  let value ← conditional
  endOfStatement "Expect new line after constant declaration."
  return .const token name value

/-- `name as alias = default`. -/
def parameter : Parse Parameter := do
  let name ← expect .name "Expect parameter name."
  let otherName ← asName "Expect alias name for parameter."
  match ← accept (· == .assign) with
  | none => return ⟨name, otherName, none⟩
  | some _ =>
    let value : Expr ← expression
    return ⟨name, otherName, some value⟩

/-- The parameters of a function; the parentheses may be missing. -/
def parameters : Parse (List Parameter) := do
  match ← accept (· == .leftParen) with
  | none => return []
  | some _ =>
    let all ← if ← sees .rightParen then pure [] else commaList parameter
    let _ ← expect .rightParen "Expect ')' after parameters."
    return all

def released : Parse Token := do
  let value : Expr ← expression
  match value with
  | .name token => return token
  | other => failAt other.token .invalidRelease

/-- `release a, b`, after the keyword. -/
def release (token : Token) : Parse Stmt := do
  let targets ← commaList released
  endOfStatement "Expect new line after 'RELEASE' expression."
  return .release token targets

/-- `(a, b) = x, y`, after the opening parenthesis. -/
def assignAll (token : Token) : Parse Stmt := do
  let targets ← commaList target
  let _ ← expect .rightParen "Expect `)` after variable name."
  let _ ← expect .assign "Expect `=` after variable name."
  let values ← expressions
  endOfStatement "Expect new line after expression."
  return .assignAll token targets values

/-- An assignment, or an expression alone. -/
def expressionStatement : Parse Stmt := do
  let first : Expr ← expression
  match ← accept (fun kind => kind == .assign || kind == .compoundAssign) with
  | none =>
    endOfStatement "Expect new line after expression."
    return .expression first
  | some operator =>
    if !first.isTarget then
      let _ ← (failAt first.token .invalidTarget : Parse Unit)
    let value : Expr ← expression
    endOfStatement "Expect new line after expression."
    return if operator.kind = .assign then .assign operator first value
      else .update operator first value

def property : Parse Property := do
  let name ← expect .name "Expect property name."
  let _ ← expect .assign "Expect `=` after property name."
  let value : Expr ← expression
  endOfStatement "Expect new line after property."
  return ⟨name, value⟩

end Parse

/-- Tokens at which a statement starts whatever stands before them. -/
def startsStatement : Kind → Bool
  | .keyword word =>
    word == .classWord || word == .functionWord || word == .localWord || word == .publicWord ||
      word == .forWord || word == .ifWord || word == .doWord || word == .printWord ||
      word == .returnWord
  | _ => false

/-- Drops tokens up to the start of a statement, where `last` was dropped before. -/
def resumeAfter (last : Token) : List Token → List Token
  | [] => []
  | token :: rest =>
    if last.kind = .separator ∨ startsStatement token.kind then token :: rest
    else resumeAfter token rest

/-- Drops at least one token, and more up to the start of a statement. -/
def resume : List Token → List Token
  | [] => []
  | token :: rest => resumeAfter token rest

namespace Read

section Nested

/-! The statements of a block are read by `declaration`, those of a post-test loop by `statement`;
`load` turns an import into the module that it names. -/

variable (declaration : Reading → Option Stmt × Reading) (statement : Read Stmt)
  (load : Token → String → Read Stmt)

/-- The statements up to a token that ends the block. -/
def block (ends : Kind → Bool) (reading : Reading) : List Stmt × Reading :=
  match reading.tokens with
  | [] => ([], reading)
  | token :: _ =>
    if ends token.kind then ([], reading)
    else
      let (found, after) := declaration reading
      if after.tokens.length < reading.tokens.length then
        let (others, final) := block ends after
        (found.toList ++ others, final)
      else (found.toList, after)
termination_by reading.tokens.length

def blockUntil (words : List Keyword) : Read (List Stmt) := fun reading =>
  let (statements, rest) := block declaration (fun kind => words.any (kind == .keyword ·)) reading
  (.ok statements, rest)

def branch (token : Token) : Read Stmt := do
  let condition : Expr ← lift Parse.expression
  let _ ← Parse.word .thenWord
  Parse.endOfStatement "Expect new line before block."
  let consequence ← blockUntil declaration [.elseWord, .endIf]
  let alternative ← match ← (Parse.word .elseWord : Parse (Option Token)) with
    | none => pure []
    | some _ => do
      Parse.endOfStatement "Expect new line in else branch."
      blockUntil declaration [.endIf]
  let _ ← Parse.expect (.keyword .endIf) "Expect 'ENDIF' after if statement."
  Parse.endOfStatement "Expect new line after if statement."
  return .branch token condition consequence alternative

def caseBranch : Read (CaseBranch Stmt) := do
  let conditions ← Parse.expressions
  Parse.endOfStatement "Expect new line after case conditions."
  let body ← blockUntil declaration [.caseWord, .otherwiseWord, .endCase]
  return ⟨conditions, body⟩

def caseBranches (reading : Reading) : Except Failure (List (CaseBranch Stmt)) × Reading :=
  match reading.tokens with
  | [] => (.ok [], reading)
  | token :: rest =>
    if token.kind = .keyword .caseWord then
      match caseBranch declaration { reading with tokens := rest } with
      | (.error e, after) => (.error e, after)
      | (.ok first, after) =>
        if after.tokens.length < reading.tokens.length then
          match caseBranches after with
          | (.ok others, final) => (.ok (first :: others), final)
          | (.error e, final) => (.error e, final)
        else (.ok [first], after)
    else (.ok [], reading)
termination_by reading.tokens.length

def choose (token : Token) : Read Stmt := do
  Parse.endOfStatement "Expect new line after 'CASE'."
  let branches : List (CaseBranch Stmt) ← caseBranches declaration
  let otherwise ← match ← (Parse.word .otherwiseWord : Parse (Option Token)) with
    | none => pure none
    | some _ => do
      Parse.endOfStatement "Expect new line after otherwise."
      some <$> blockUntil declaration [.endCase]
  let _ ← Parse.expect (.keyword .endCase) "Expect keyword 'ENDCASE'."
  Parse.endOfStatement "Expect new line at the end of `DO CASE` statement."
  return .choose token branches otherwise

def whileLoop (token : Token) : Read Stmt := do
  let condition : Expr ← lift Parse.expression
  Parse.endOfStatement "Expect new line after 'WHILE' condition."
  let body ← blockUntil declaration [.endDo]
  let _ ← Parse.expect (.keyword .endDo) "Expect 'ENDDO' after loop body."
  Parse.endOfStatement "Expect new line."
  return .whileLoop token condition body

/-- The statements of a post-test loop, up to its condition. None of them is a declaration. -/
def plainStatements (reading : Reading) : Except Failure (List Stmt) × Reading :=
  match _ : reading.tokens with
  | [] => (.ok [], reading)
  | token :: rest =>
    if token.kind = .keyword .whileWord then (.ok [], reading)
    else if token.kind = .separator then plainStatements { reading with tokens := rest }
    else
      match statement reading with
      | (.error e, after) => (.error e, after)
      | (.ok first, after) =>
        if after.tokens.length < reading.tokens.length then
          match plainStatements after with
          | (.ok others, final) => (.ok (first :: others), final)
          | (.error e, final) => (.error e, final)
        else (.ok [first], after)
termination_by reading.tokens.length
decreasing_by
  · simp [*]
  · assumption

def doLoop (token : Token) : Read Stmt := do
  Parse.endOfStatement "Expect new line after 'DO' keyword."
  let body : List Stmt ← plainStatements statement
  let _ ← Parse.expect (.keyword .whileWord) "Expect 'WHILE' after loop body."
  let condition : Expr ← lift Parse.expression
  Parse.endOfStatement "Expect new line."
  return .doLoop token body condition

def forLoop (token : Token) : Read Stmt := do
  let counter ← Parse.expect .name "Expect variable name."
  let _ ← Parse.expect .assign "Expect '=' after variable name."
  let start : Expr ← lift Parse.expression
  let _ ← Parse.expect (.keyword .toWord) "Expect keyword 'TO'"
  let finish : Expr ← lift Parse.expression
  let step ← match ← (Parse.word .stepWord : Parse (Option Token)) with
    | none => pure none
    | some _ => do
      let value : Expr ← lift Parse.expression
      pure (some value)
  Parse.endOfStatement "Expect new line."
  let body ← blockUntil declaration [.endFor]
  let _ ← Parse.expect (.keyword .endFor) "Expect 'ENDFOR' after loop body."
  Parse.endOfStatement "Expect new line."
  return .forLoop token counter start finish step body

end Nested

def deferred? : Stmt → Option (List Stmt)
  | .defer _ body => some body
  | _ => none

section Declarations

variable (declaration : Reading → Option Stmt × Reading)

/-- A function, after the keyword. Its defer blocks are taken out of its body. -/
def function (token : Token) : Read (FunctionDecl Stmt) := do
  let name ← Parse.expect .name "Expect function name."
  let parameters ← Parse.parameters
  Parse.endOfStatement "Expect new line."
  let statements ← blockUntil declaration [.endFunc]
  let _ ← Parse.expect (.keyword .endFunc) "Expect 'ENDFUNC' after function body."
  Parse.endOfStatement "Expect new line."
  return ⟨token, name, parameters, statements.filter (deferred? · |>.isNone),
    statements.filterMap deferred?⟩

def module (token : Token) : Read Stmt := do
  let name ← Parse.expect .name "Expect module name."
  Parse.endOfStatement "Expect new line after module name."
  let body ← blockUntil declaration [.endModule]
  let _ ← Parse.expect (.keyword .endModule) "Expect 'ENDMODULE' after module body."
  Parse.endOfStatement "Expect new line."
  return .module token name body

def members (reading : Reading) :
    Except Failure (List Property × List (FunctionDecl Stmt)) × Reading :=
  match _ : reading.tokens with
  | [] => (.ok ([], []), reading)
  | token :: rest =>
    if token.kind = .keyword .endClass then (.ok ([], []), reading)
    else if token.kind = .separator then members { reading with tokens := rest }
    else if token.kind = .keyword .functionWord then
      match function declaration token { reading with tokens := rest } with
      | (.error e, after) => (.error e, after)
      | (.ok method, after) =>
        if after.tokens.length < reading.tokens.length then
          match members after with
          | (.ok (properties, methods), final) => (.ok (properties, method :: methods), final)
          | (.error e, final) => (.error e, final)
        else (.ok ([], [method]), after)
    else
      match lift Parse.property reading with
      | (.error e, after) => (.error e, after)
      | (.ok property, after) =>
        if after.tokens.length < reading.tokens.length then
          match members after with
          | (.ok (properties, methods), final) => (.ok (property :: properties, methods), final)
          | (.error e, final) => (.error e, final)
        else (.ok ([property], []), after)
termination_by reading.tokens.length
decreasing_by
  · simp [*]
  · assumption
  · assumption

def classDef (token : Token) : Read Stmt := do
  let name ← Parse.expect .name "Expect class name."
  let superclass ← Parse.asName "Expect superclass name."
  Parse.endOfStatement "Expect new line after class name."
  let all : List Property × List (FunctionDecl Stmt) ← members declaration
  let _ ← Parse.expect (.keyword .endClass) "Expect 'ENDCLASS' after class body."
  Parse.endOfStatement "Expect new line."
  return .classDef ⟨token, name, superclass, all.1, all.2⟩

def defer (token : Token) : Read Stmt := do
  Parse.endOfStatement "Expect new line after 'DEFER'."
  let body ← blockUntil declaration [.endDefer]
  let _ ← Parse.expect (.keyword .endDefer) "Expect 'ENDDEFER' after defer block."
  Parse.endOfStatement "Expect new line after 'ENDDEFER'."
  return .defer token body

variable (statement : Read Stmt) (load : Token → String → Read Stmt)

/-- A module by its name, after the keyword. -/
def importStatement (token : Token) : Read Stmt := do
  let name ← Parse.expect .name "Expect import name."
  Parse.endOfStatement "Expect new line after import name."
  load token name.lexeme

/-- A statement that starts with the keyword `do`, after it. -/
def doStatement (token : Token) : Read Stmt := do
  match ← (Parse.word .caseWord : Parse (Option Token)) with
  | some case => choose declaration case
  | none =>
    match ← (Parse.word .whileWord : Parse (Option Token)) with
    | some loop => whileLoop declaration loop
    | none => doLoop statement token

/-- A statement that ends after its keyword. -/
def control (make : Token → Stmt) (token : Token) : Read Stmt := do
  Parse.endOfStatement "Expect new line."
  return make token

/-- A statement that starts with none of the words of statements. -/
def wordless : Read Stmt := do
  if ← (Parse.opensBefore (· == some .assign) : Parse Bool) then
    match ← (Parse.accept (· == .leftParen) : Parse (Option Token)) with
    | some token => Parse.assignAll token
    | none => Parse.expressionStatement
  else Parse.expressionStatement

def statementForm (token : Token) : Option (Read Stmt) :=
  match token.kind with
  | .question | .keyword .printWord => some (Parse.print token)
  | .keyword .returnWord => some (Parse.giveBack token)
  | .keyword .ifWord => some (branch declaration token)
  | .keyword .doWord => some (doStatement declaration statement token)
  | .keyword .exitWord => some (control .exit token)
  | .keyword .loopWord => some (control .loop token)
  | .keyword .forWord => some (forLoop declaration token)
  | .keyword .importWord => some (importStatement load token)
  | .keyword .releaseWord => some (Parse.release token)
  | .keyword .deferWord => some (defer declaration token)
  | _ => none

def anyStatement : Read Stmt := fun reading =>
  match reading.tokens with
  | [] => wordless reading
  | token :: rest =>
    match statementForm declaration statement load token with
    | some form => form { reading with tokens := rest }
    | none => wordless reading

def declarationForm (token : Token) : Option (Read Stmt) :=
  match token.kind with
  | .keyword .localWord => some (Parse.declare token .local)
  | .keyword .publicWord => some (Parse.declare token .global)
  | .keyword .constWord => some (Parse.const token)
  | .keyword .functionWord => some (.function <$> function declaration token)
  | .keyword .moduleWord => some (module declaration token)
  | .keyword .classWord => some (classDef declaration token)
  | _ => none

def anyDeclaration : Read Stmt := fun reading =>
  match reading.tokens with
  | [] => anyStatement declaration statement load reading
  | token :: rest =>
    match declarationForm declaration token with
    | some form => form { reading with tokens := rest }
    | none => anyStatement declaration statement load reading

/-- A declaration or a statement, or a separator alone. After a failure, which is reported, the
tokens up to the next statement are dropped. -/
def recovering (reading : Reading) : Option Stmt × Reading :=
  match reading.tokens with
  | [] => (none, reading)
  | token :: rest =>
    if token.kind = .separator then (none, { reading with tokens := rest })
    else
      match anyDeclaration declaration statement load reading with
      | (.ok found, after) => (some found, after)
      | (.error e, after) =>
        (none, { after with failures := after.failures ++ [e], tokens := resume after.tokens })

end Declarations

section Knot

variable (load : Token → String → Read Stmt)

mutual
def statement (reading : Reading) : Except Failure Stmt × Reading :=
  anyStatement
    (fun inside =>
      if inside.tokens.length < reading.tokens.length then declaration inside else (none, inside))
    (fun inside =>
      if inside.tokens.length < reading.tokens.length then statement inside
      else (.error ⟨inside.tokens.head?, .unexpectedPrimary⟩, inside))
    load reading
termination_by reading.tokens.length

/-- A declaration or a statement, or nothing where a separator stands or a failure was reported. -/
def declaration (reading : Reading) : Option Stmt × Reading :=
  recovering
    (fun inside =>
      if inside.tokens.length < reading.tokens.length then declaration inside else (none, inside))
    (fun inside =>
      if inside.tokens.length < reading.tokens.length then statement inside
      else (.error ⟨inside.tokens.head?, .unexpectedPrimary⟩, inside))
    load reading
termination_by reading.tokens.length
end

def program : Reading → List Stmt × Reading :=
  block (declaration load) fun _ => false

end Knot

end Read

end XBase
