import XBase.Program.Expr

/-!
# Statements

Every compound statement holds its bodies as lists of statements. A statement keeps the token that
diagnostics about it point at.
-/

namespace XBase

/-- Whether a declaration binds in the current or in the global scope. -/
inductive Extent where
  | local
  | global
deriving DecidableEq, Repr

/-- One name of a declaration. The type decides only the value of a name without initializer. -/
structure Declarator where
  name : Token
  type : Option Token
  initializer : Option Expr

/-- A parameter of a function; callers may also address it by its alias. -/
structure Parameter where
  name : Token
  otherName : Option Token
  default : Option Expr

/-- A branch of a choice: it is taken if one of its conditions holds. -/
structure CaseBranch (σ : Type) where
  conditions : List Expr
  body : List σ

/-- A declared function. Its defer blocks stand apart from its body, in source order. -/
structure FunctionDecl (σ : Type) where
  token : Token
  name : Token
  parameters : List Parameter
  body : List σ
  defers : List (List σ)

structure Property where
  name : Token
  value : Expr

structure ClassDecl (σ : Type) where
  token : Token
  name : Token
  superclass : Option Token
  properties : List Property
  methods : List (FunctionDecl σ)

inductive Stmt where
  | expression (value : Expr)
  | print (token : Token) (values : List Expr)
  | giveBack (token : Token) (values : List Expr)
  | declare (token : Token) (extent : Extent) (declarators : List Declarator)
  /-- `local (a, b) = x, y`. -/
  | destructure (token : Token) (extent : Extent) (names : List Token) (values : List Expr)
  | branch (token : Token) (condition : Expr) (consequence alternative : List Stmt)
  | choose (token : Token) (branches : List (CaseBranch Stmt)) (otherwise : Option (List Stmt))
  /-- A loop that tests its condition before each round. -/
  | whileLoop (token : Token) (condition : Expr) (body : List Stmt)
  /-- A loop that tests its condition after each round. -/
  | doLoop (token : Token) (body : List Stmt) (condition : Expr)
  | forLoop (token : Token) (counter : Token) (start finish : Expr) (step : Option Expr)
      (body : List Stmt)
  | exit (token : Token)
  | loop (token : Token)
  | function (declaration : FunctionDecl Stmt)
  | classDef (declaration : ClassDecl Stmt)
  | const (token : Token) (name : Token) (value : Expr)
  | module (token : Token) (name : Token) (body : List Stmt)
  | release (token : Token) (targets : List Token)
  /-- A defer block that does not stand directly in a function. -/
  | defer (token : Token) (body : List Stmt)
  | assign (operator : Token) (target value : Expr)
  /-- `target op= value`; the operator has the category of `op`. -/
  | update (operator : Token) (target value : Expr)
  /-- `(a, b) = x, y`. -/
  | assignAll (token : Token) (targets values : List Expr)

/-- The token that diagnostics about a statement point at. -/
def Stmt.token : Stmt → Token
  | expression value => value.token
  | print token _ | giveBack token _ | declare token _ _ | destructure token _ _ _
  | branch token _ _ _ | choose token _ _ | whileLoop token _ _ | doLoop token _ _
  | forLoop token _ _ _ _ _ | exit token | loop token | const token _ _ | module token _ _
  | release token _ | defer token _ | assign token _ _ | update token _ _
  | assignAll token _ _ => token
  | function declaration => declaration.token
  | classDef declaration => declaration.token

end XBase
