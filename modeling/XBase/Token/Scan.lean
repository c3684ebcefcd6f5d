import XBase.Decimal.Reading
import XBase.Token.Rules

/-!
# Scanning

A source text is cut into pieces by the rule table, and the pieces are read in order as tokens.
A bad character or number is reported and left out; scanning always reaches the end of the text.
-/

namespace XBase

inductive ScanCause where
  /-- No rule matches at this character. -/
  | unexpected (c : Char)
  /-- Digits and points that do not form a number. -/
  | invalidNumber (text : String)

def ScanCause.message : ScanCause → String
  | .unexpected c => "Unexpected character '" ++ String.singleton c ++ "'"
  | .invalidNumber text => "Invalid number literal '" ++ text ++ "'"

def ScanCause.lexeme : ScanCause → String
  | .unexpected c => String.singleton c
  | .invalidNumber text => text

/-- A piece of source text that is no token, and where it stands. -/
structure ScanError where
  position : Position
  cause : ScanCause

def ScanError.message (e : ScanError) : String :=
  e.position.text ++ " Scanning error: " ++ e.cause.message

/-- A part of the source text; no action means that no rule matched its one character. -/
structure Piece where
  action : Option Action
  text : List Char

/-- Cuts a text into pieces, each the match of the first rule that matches. -/
def Piece.cut (cs : List Char) : List Piece :=
  match cs with
  | [] => []
  | c :: rest =>
    match Rule.first? (c :: rest) with
    | some (rule, n + 1) => ⟨some rule.action, c :: rest.take n⟩ :: Piece.cut (rest.drop n)
    | _ => ⟨none, [c]⟩ :: Piece.cut rest
termination_by cs.length
decreasing_by
  all_goals simp only [List.length_cons, List.length_drop]; omega

/-- Decodes the escapes of a quoted text. An unknown escape stays as it is written. -/
def unescape : List Char → List Char
  | [] => []
  | '\\' :: c :: cs =>
    if c = 'r' then '\r' :: unescape cs
    else if c = 'n' then '\n' :: unescape cs
    else if c = 't' then '\t' :: unescape cs
    else if c = '"' || c = Pattern.apostrophe then c :: unescape cs
    else '\\' :: c :: unescape cs
  | c :: cs => c :: unescape cs

def inner (cs : List Char) : List Char :=
  (cs.drop 1).dropLast

namespace Piece

/-- What the piece at `p` adds to the tokens, if anything. A separator is added only after a token
that is no separator, which `afterToken` tells. -/
def read (piece : Piece) (afterToken : Bool) (p : Position) : Option (Except ScanError Token) :=
  let lexeme := String.ofList piece.text
  match piece.action with
  | none => some (.error ⟨p, .unexpected (piece.text.headD ' ')⟩)
  | some .skip => none
  | some .separator =>
    if afterToken then some (.ok ⟨.separator, .generic, lexeme, none, p⟩) else none
  | some .number =>
    match Decimal.read? (piece.text.filter (· != '_')) with
    | some n => some (.ok ⟨.number, .literal, lexeme, some (.number n), p⟩)
    | none => some (.error ⟨p, .invalidNumber lexeme⟩)
  | some .quoted =>
    let content := String.ofList (unescape (inner piece.text))
    some (.ok ⟨.text, .literal, lexeme, some (.text content), p⟩)
  | some .raw =>
    some (.ok ⟨.text, .literal, lexeme, some (.text (String.ofList (inner piece.text))), p⟩)
  | some (.operator kind) => some (.ok ⟨kind, Category.ofOperator lexeme, lexeme, none, p⟩)
  | some (.token kind category literal) => some (.ok ⟨kind, category, lexeme, literal, p⟩)

/-- Reads pieces in order, from the place `p` on. -/
def readAll (afterToken : Bool) (p : Position) : List Piece → List (Except ScanError Token)
  | [] => []
  | piece :: rest =>
    let after := p.after piece.text
    match piece.read afterToken p with
    | none => readAll afterToken after rest
    | some (.error e) => .error e :: readAll afterToken after rest
    | some (.ok token) => .ok token :: readAll (token.kind != .separator) after rest

end Piece

/-- The tokens of a source text, its bad pieces, and where the text ends. -/
structure Scan where
  tokens : List Token
  errors : List ScanError
  finish : Position

/-- A text that ends its last line. -/
def endLine (cs : List Char) : List Char :=
  if cs.getLast? = some '\n' then cs else cs ++ ['\n']

def scan (source : String) : Scan :=
  let text := endLine source.toList
  let items := Piece.readAll false .start (Piece.cut text)
  { tokens := items.filterMap fun item => item.toOption
    errors := items.filterMap fun item => match item with
      | .error e => some e
      | .ok _ => none
    finish := Position.start.after text }

end XBase
