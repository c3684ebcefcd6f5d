/-!
# Tokens

A token is a piece of source text with a coarse kind, on which the grammar decides, and a finer
category, which names the operation of an operator. The value of a literal is found once, when
the token is made.
-/

namespace XBase

/-- A place in a source text; both numbers count from one. -/
structure Position where
  line : Nat
  column : Nat
deriving DecidableEq, Repr

/-- The place after a character that stands at `p`. -/
def Position.next (p : Position) (c : Char) : Position :=
  if c = '\n' then ⟨p.line + 1, 1⟩ else ⟨p.line, p.column + 1⟩

def Position.after (p : Position) (cs : List Char) : Position :=
  cs.foldl Position.next p

def Position.start : Position :=
  ⟨1, 1⟩

def Position.text (p : Position) : String :=
  "[" ++ toString p.line ++ ":" ++ toString p.column ++ "]"

/-- The reserved words without a value. Some have no grammar yet. -/
inductive Keyword where
  | asWord | localWord | publicWord | constWord
  | ifWord | thenWord | elseWord | endIf
  | returnWord | whileWord | endWhile | endDo | repeatWord | printWord | untilWord
  | classWord | endClass | thisWord | createObject
  | forWord | toWord | stepWord | endFor
  | doDefault | functionWord | parametersWord | endFunc
  | doWord | caseWord | otherwiseWord | endCase | exitWord | loopWord | privateWord
  | importWord | moduleWord | endModule | releaseWord | deferWord | endDefer
deriving DecidableEq, Repr

/-- What the grammar needs to know of a token. -/
inductive Kind where
  | separator
  | leftParen | rightParen | leftBracket | rightBracket
  | comma | dot | colon | question | ampersand
  | assign | compoundAssign | relational | equality | term | factor
  | and | or | not
  | number | text | name
  | trueWord | falseWord | nullWord
  | keyword (word : Keyword)
deriving DecidableEq, Repr

/-- What evaluation needs to know of a token. A compound assignment has the category of the
operation that it applies. -/
inductive Category where
  | generic | literal | keyword | name
  | plus | minus | times | over
  | less | lessEq | greater | greaterEq | equal | notEqual
  | bang | assign | and | or
deriving DecidableEq, Repr

def Category.ofOperator (spelling : String) : Category :=
  match spelling with
  | "+" | "+=" => .plus
  | "-" | "-=" => .minus
  | "*" | "*=" => .times
  | "/" | "/=" => .over
  | "<" => .less
  | "<=" => .lessEq
  | ">" => .greater
  | ">=" => .greaterEq
  | "==" => .equal
  | "!=" => .notEqual
  | "!" => .bang
  | "=" => .assign
  | _ => .generic

inductive Literal where
  | null
  | boolean (value : Bool)
  | number (value : Float)
  | text (value : String)

/-- A piece of source text that the grammar reads as one unit. -/
structure Token where
  kind : Kind
  category : Category
  lexeme : String
  literal : Option Literal
  position : Position

end XBase
