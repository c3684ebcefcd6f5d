import XBase.Token.Basic

/-!
# Expressions

An expression keeps the tokens that diagnostics point at. A call points at its callee, and an
argument at its label or, without one, at its value.
-/

namespace XBase

/-- An argument of a call, bound by position or by label. -/
structure Argument (ε : Type) where
  label : Option Token
  value : ε

inductive Expr where
  /-- A number, a text, a boolean or null; the token holds the value. -/
  | literal (token : Token)
  | name (token : Token)
  | unary (operator : Token) (right : Expr)
  | binary (left : Expr) (operator : Token) (right : Expr)
  /-- `and` and `or`, whose right operand may be left alone. -/
  | logical (left : Expr) (operator : Token) (right : Expr)
  | member (object : Expr) (property : Token)
  | index (object : Expr) (bracket : Token) (key : Expr)
  | call (callee : Expr) (arguments : List (Argument Expr))
  /-- `createobject("name", ...)`. -/
  | create (keyword : Token) (prototype : Token) (arguments : List Expr)
  /-- `consequence if condition else alternative`. -/
  | conditional (keyword : Token) (condition consequence : Expr) (alternative : Option Expr)
  /-- `this`, which has no meaning yet. -/
  | this (token : Token)
  /-- `&name`, which has no meaning yet. -/
  | substitution (token : Token)

namespace Expr

/-- The token that diagnostics about an expression point at. -/
def token : Expr → Token
  | literal token | name token | this token | substitution token => token
  | unary operator _ | binary _ operator _ | logical _ operator _ => operator
  | member _ property => property
  | index _ bracket _ => bracket
  | call callee _ => callee.token
  | create keyword _ _ => keyword
  | conditional keyword _ _ _ => keyword

/-- The name that a call uses for its callee, if it uses one. -/
def calleeName : Expr → Option String
  | name token => some token.lexeme
  | member _ property => some property.lexeme
  | _ => none

def isPlaceholder : Expr → Bool
  | name token => token.lexeme == "_"
  | _ => false

def isTarget : Expr → Bool
  | name _ | member _ _ | index _ _ _ => true
  | _ => false

end Expr

end XBase
