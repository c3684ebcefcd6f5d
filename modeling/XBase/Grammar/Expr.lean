import XBase.Grammar.Error
import XBase.Program.Expr

/-!
# The grammar of expressions

Operators bind, from loosest to tightest: `or`, `and`, equality, comparison, terms, factors, signs
and `!`, and then members, indices and calls. All associate to the left but the unary ones.

A reader takes tokens from the front of a list. Where it fails it leaves the tokens from the
offending one on, since recovery starts there. An expression inside another one is read from fewer
tokens than the outer one, which is why reading ends.
-/

namespace XBase

/-- Reads tokens from the front of a list and leaves the rest, also when it fails. -/
def Parse (α : Type) : Type :=
  List Token → Except Failure α × List Token

namespace Parse

instance : Monad Parse where
  pure a := fun tokens => (.ok a, tokens)
  bind p f := fun tokens =>
    match p tokens with
    | (.ok a, rest) => f a rest
    | (.error e, rest) => (.error e, rest)

def fail {α : Type} (cause : SyntaxCause) : Parse α := fun tokens =>
  (.error ⟨tokens.head?, cause⟩, tokens)

def failAt {α : Type} (token : Token) (cause : SyntaxCause) : Parse α := fun tokens =>
  (.error ⟨some token, cause⟩, tokens)

def sees (kind : Kind) : Parse Bool := fun tokens =>
  (.ok (tokens.head?.any (·.kind == kind)), tokens)

def atEnd : Parse Bool := fun tokens =>
  (.ok tokens.isEmpty, tokens)

/-- Takes the next token if its kind is one of some. -/
def accept (kinds : Kind → Bool) : Parse (Option Token)
  | [] => (.ok none, [])
  | token :: rest => if kinds token.kind then (.ok (some token), rest) else (.ok none, token :: rest)

/-- Takes the next token, which has to be of a kind. -/
def expect (kind : Kind) (message : String) : Parse Token
  | [] => (.error ⟨none, .expected message⟩, [])
  | token :: rest =>
    if token.kind = kind then (.ok token, rest)
    else (.error ⟨some token, .expected message⟩, token :: rest)

/-- Items that each follow a comma. -/
def commaTail {α : Type} (item : Parse α) (tokens : List Token) :
    Except Failure (List α) × List Token :=
  match tokens with
  | [] => (.ok [], [])
  | comma :: rest =>
    if comma.kind = .comma then
      match item rest with
      | (.error e, after) => (.error e, after)
      | (.ok a, after) =>
        if after.length ≤ rest.length then
          match commaTail item after with
          | (.ok items, final) => (.ok (a :: items), final)
          | (.error e, final) => (.error e, final)
        else (.ok [a], after)
    else (.ok [], comma :: rest)
termination_by tokens.length

/-- One or more items with commas between them. -/
def commaList {α : Type} (item : Parse α) : Parse (List α) := do
  let first ← item
  let others ← commaTail item
  pure (first :: others)

/-- Operators of one level and their right operands, joined to the left. -/
def chain (operators : Kind → Bool) (join : Expr → Token → Expr → Expr) (operand : Parse Expr)
    (left : Expr) (tokens : List Token) : Except Failure Expr × List Token :=
  match tokens with
  | [] => (.ok left, [])
  | operator :: rest =>
    if operators operator.kind then
      match operand rest with
      | (.error e, after) => (.error e, after)
      | (.ok right, after) =>
        if after.length ≤ rest.length then
          chain operators join operand (join left operator right) after
        else (.ok (join left operator right), after)
    else (.ok left, operator :: rest)
termination_by tokens.length

/-- Operands with the operators of one level between them. -/
def level (kind : Kind) (join : Expr → Token → Expr → Expr) (operand : Parse Expr) :
    Parse Expr := do
  let left ← operand
  chain (· == kind) join operand left

section Nested

/-! What stands inside brackets is read by `nested`. -/

variable (nested : Parse Expr)

/-- `label: value`, or a value alone. -/
def argument : Parse (Argument Expr) := fun tokens =>
  match tokens with
  | label :: colon :: rest =>
    if label.kind = .name ∧ colon.kind = .colon then
      (do return ⟨some label, ← nested⟩ : Parse (Argument Expr)) rest
    else (do return ⟨none, ← nested⟩ : Parse (Argument Expr)) tokens
  | _ => (do return ⟨none, ← nested⟩ : Parse (Argument Expr)) tokens

/-- The arguments of a call after its opening parenthesis. -/
def arguments : Parse (List (Argument Expr)) := do
  let values ← if ← sees .rightParen then pure [] else commaList (argument nested)
  let _ ← expect .rightParen "Expect ')' after arguments."
  return values

/-- `createobject` after its keyword. -/
def creation (keyword : Token) : Parse Expr := do
  let _ ← expect .leftParen "Expect '(' after 'CREATEOBJECT'"
  let prototype ← expect .text "Expect object name."
  let values ← commaTail nested
  let _ ← expect .rightParen "Expect ')' after arguments."
  return .create keyword prototype values

def grouped : Parse Expr := do
  if ← sees .rightParen then fail (.expected "Expect expression inside '()'.")
  let value ← nested
  let _ ← expect .rightParen "Expect ')' after expression."
  return value

def primary : Parse Expr
  | [] => (.error ⟨none, .unexpectedPrimary⟩, [])
  | token :: rest =>
    match token.kind with
    | .number | .text | .trueWord | .falseWord | .nullWord => (.ok (.literal token), rest)
    | .name => (.ok (.name token), rest)
    | .keyword .thisWord => (.ok (.this token), rest)
    | .ampersand =>
      (do return .substitution (← expect .name "Expect name after '&'.") : Parse Expr) rest
    | .keyword .createObject => creation nested token rest
    | .leftParen => grouped nested rest
    | _ => (.error ⟨some token, .unexpectedPrimary⟩, token :: rest)

/-- One member access, index or call applied to an expression, after its first token. -/
def suffix (object : Expr) (first : Token) : Option (Parse Expr) :=
  match first.kind with
  | .dot => some do
    return .member object (← expect .name "Expect property name.")
  | .leftBracket => some do
    let key ← nested
    let _ ← expect .rightBracket "Expect ']' after expression."
    return .index object first key
  | .leftParen => some do
    return .call object (← arguments nested)
  | _ => none

/-- Members, indices and calls in any order. -/
def suffixes (object : Expr) (tokens : List Token) : Except Failure Expr × List Token :=
  match tokens with
  | [] => (.ok object, [])
  | first :: rest =>
    match suffix nested object first with
    | none => (.ok object, first :: rest)
    | some apply =>
      match apply rest with
      | (.error e, after) => (.error e, after)
      | (.ok longer, after) =>
        if after.length ≤ rest.length then suffixes longer after else (.ok longer, after)
termination_by tokens.length

/-- A primary expression and what is applied to it. -/
def postfixed : Parse Expr := do
  let object ← primary nested
  suffixes nested object

/-- Signs and `!` in front of an expression. -/
def unary : Parse Expr
  | [] => postfixed nested []
  | operator :: rest =>
    if operator.kind = .not ∨ operator.kind = .term then
      match unary rest with
      | (.ok right, after) => (.ok (.unary operator right), after)
      | (.error e, after) => (.error e, after)
    else postfixed nested (operator :: rest)

def operators : Parse Expr :=
  level .or .logical <| level .and .logical <| level .equality .binary <|
    level .relational .binary <| level .term .binary <| level .factor .binary (unary nested)

end Nested

def expression (tokens : List Token) : Except Failure Expr × List Token :=
  operators (fun inside =>
    if inside.length < tokens.length then expression inside
    else (.error ⟨inside.head?, .unexpectedPrimary⟩, inside)) tokens
termination_by tokens.length

/-- An expression that a condition may follow. -/
def conditional : Parse Expr := do
  let consequence : Expr ← expression
  match ← accept (· == .keyword .ifWord) with
  | none => return consequence
  | some keyword =>
    let condition ← expression
    match ← accept (· == .keyword .elseWord) with
    | none => return .conditional keyword condition consequence none
    | some _ =>
      let alternative : Expr ← expression
      return .conditional keyword condition consequence (some alternative)

def expressions : Parse (List Expr) :=
  commaList expression

/-- An expression that a value can be written to. -/
def target : Parse Expr := do
  let value : Expr ← expression
  if value.isTarget then return value else failAt value.token .invalidTarget

end Parse

end XBase
