import XBase.Decimal.Shortest
import XBase.Program.Stmt
import XBase.Text.Case

/-!
# Printed trees

The tree of a program is written as nested lists, operators first.
-/

namespace XBase

/-- Texts with single blanks between them. -/
def spaced (texts : List String) : String :=
  String.intercalate " " texts

/-- A literal as a tree shows it. -/
def Literal.written : Literal → String
  | .null => "null"
  | .boolean value => if value then "true" else "false"
  | .number value => Decimal.text value
  | .text value => "\"" ++ value ++ "\""

def Token.literalText (token : Token) : String :=
  (token.literal.map Literal.written).getD ""

mutual
/-- An expression as a nested list. -/
def Expr.text : Expr → String
  | .literal token => token.literalText
  | .name token => token.lexeme
  | .unary operator right => "(" ++ operator.lexeme ++ " " ++ right.text ++ ")"
  | .binary left operator right | .logical left operator right =>
    "(" ++ Text.lower operator.lexeme ++ " " ++ left.text ++ " " ++ right.text ++ ")"
  | .member object property => "(. " ++ object.text ++ " " ++ property.lexeme ++ ")"
  | .index object _ key => "([] " ++ object.text ++ " " ++ key.text ++ ")"
  | .call callee arguments => "(call " ++ callee.text ++ argumentsText arguments ++ ")"
  | .create _ prototype arguments =>
    "(createobject " ++ prototype.literalText ++ operandsText arguments ++ ")"
  | .conditional _ condition consequence alternative =>
    "(if " ++ condition.text ++ " " ++ consequence.text ++ alternativeText alternative ++ ")"
  | .this _ => "this"
  | .substitution token => "&" ++ token.lexeme

def argumentsText : List (Argument Expr) → String
  | [] => ""
  | ⟨some label, value⟩ :: rest =>
    " " ++ label.lexeme ++ ": " ++ value.text ++ argumentsText rest
  | ⟨none, value⟩ :: rest => " " ++ value.text ++ argumentsText rest

def operandsText : List Expr → String
  | [] => ""
  | value :: rest => " " ++ value.text ++ operandsText rest

def alternativeText : Option Expr → String
  | none => ""
  | some value => " " ++ value.text
end

def listText (values : List Expr) : String :=
  spaced (values.map Expr.text)

def lexemes (tokens : List Token) : String :=
  spaced (tokens.map Token.lexeme)

def Extent.text : Extent → String
  | .local => "local"
  | .global => "public"

def Declarator.text (declarator : Declarator) : String :=
  match declarator.initializer with
  | some value => " (= " ++ declarator.name.lexeme ++ " " ++ value.text ++ ")"
  | none => " " ++ declarator.name.lexeme

def stepText : Option Expr → String
  | none => ""
  | some value => value.text ++ " "

mutual
/-- A statement as a nested list. -/
def Stmt.text : Stmt → String
  | .expression value => value.text
  | .print _ values => "(print " ++ listText values ++ ")"
  | .giveBack _ values => "(return " ++ listText values ++ ")"
  | .declare _ extent declarators =>
    "(" ++ extent.text ++ String.join (declarators.map Declarator.text) ++ ")"
  | .destructure _ extent names values =>
    "(" ++ extent.text ++ " (" ++ lexemes names ++ ") " ++ listText values ++ ")"
  | .branch _ condition consequence alternative =>
    "(if " ++ condition.text ++ " (block " ++ spaced (stmtTexts consequence) ++ ") (block " ++
      spaced (stmtTexts alternative) ++ "))"
  | .choose _ branches otherwise =>
    "(do-case" ++ branchesText branches ++ otherwiseText otherwise ++ ")"
  | .whileLoop _ condition body =>
    "(do-while " ++ condition.text ++ " (block " ++ spaced (stmtTexts body) ++ "))"
  | .doLoop _ body condition =>
    "(do (block " ++ spaced (stmtTexts body) ++ ") " ++ condition.text ++ ")"
  | .forLoop _ counter start finish step body =>
    "(for " ++ counter.lexeme ++ " " ++ start.text ++ " " ++ finish.text ++ " " ++
      stepText step ++ "(block " ++ spaced (stmtTexts body) ++ "))"
  | .exit _ => "(exit)"
  | .loop _ => "(loop)"
  | .function ⟨_, name, parameters, body, defers⟩ =>
    "(function " ++ name.lexeme ++ " (" ++ lexemes (parameters.map Parameter.name) ++ ") " ++
      spaced (stmtTexts body) ++ defersText defers ++ ")"
  | .classDef declaration =>
    "(class " ++ declaration.name.lexeme ++ " (" ++
      lexemes (declaration.methods.map FunctionDecl.name) ++ "))"
  | .const _ name value => "(const " ++ name.lexeme ++ " " ++ value.text ++ ")"
  | .module _ name body => "(module " ++ name.lexeme ++ " " ++ spaced (stmtTexts body) ++ ")"
  | .release _ targets => "(release " ++ lexemes targets ++ ")"
  | .defer _ body => "(defer (block " ++ spaced (stmtTexts body) ++ "))"
  | .assign _ target value => "(= " ++ target.text ++ " " ++ value.text ++ ")"
  | .update operator target value =>
    "(" ++ operator.lexeme ++ " " ++ target.text ++ " " ++ value.text ++ ")"
  | .assignAll _ targets values => "(= (" ++ listText targets ++ ") " ++ listText values ++ ")"

def stmtTexts : List Stmt → List String
  | [] => []
  | statement :: rest => statement.text :: stmtTexts rest

def branchesText : List (CaseBranch Stmt) → String
  | [] => ""
  | ⟨conditions, body⟩ :: rest =>
    " (case " ++ listText conditions ++ " (block " ++ spaced (stmtTexts body) ++ "))" ++
      branchesText rest

def otherwiseText : Option (List Stmt) → String
  | none => ""
  | some body => " (otherwise (block " ++ spaced (stmtTexts body) ++ "))"

def defersText : List (List Stmt) → String
  | [] => ""
  | body :: rest => " (defer (block " ++ spaced (stmtTexts body) ++ "))" ++ defersText rest
end

end XBase
