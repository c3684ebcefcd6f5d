import XBase.Decimal.Shortest
import XBase.Heap.Chain

/-!
# Failures of a run

A fault is a cause without a place. A runtime error is a fault at the token whose evaluation
failed; it ends the unit.
-/

namespace XBase

inductive Fault where
  | operandNotNumber
  | operandsNotNumbers
  | divisionByZero
  | incompatibleTypes
  | scope (error : ScopeError)
  | notCallable (name : String)
  | arityMismatch (expected got : Nat)
  | argumentCount (expected got : Nat)
  | argumentType (expected got : String)
  | unknownArgument (label : String)
  | unknownMethod
  | indexNotNumber
  | indexOutOfBounds (index : Float) (length : Nat)
  | wrongNumberOfValues (expected got : Nat)
  | wrongNumberOfVariables (expected got : Nat)
  | invalidMemberTarget
  | forBounds
  | stepType
  | zeroStep
  | superclassNotClass
  | controlOutsideLoop (keyword : String)
  | stepBudgetExceeded (budget : Nat)
  | callDepthExceeded (limit : Nat)
  /-- A failure outside the language: a database or the output. -/
  | host (message : String)

def Fault.message : Fault → String
  | operandNotNumber => "Operand must be a number."
  | operandsNotNumbers => "Operands must be a number."
  | divisionByZero => "Division by zero."
  | incompatibleTypes => "Incompatible types."
  | scope error => error.message
  | notCallable name => "Not a function: " ++ name
  | arityMismatch expected got =>
    "Wrong number of parameters/arguments. Expected: " ++ toString expected ++ ", got: " ++
      toString got ++ "."
  | argumentCount expected got =>
    "Wrong number of arguments, expected: " ++ toString expected ++ ", got: " ++ toString got
  | argumentType expected got => "Wrong argument type, expected: " ++ expected ++ ", got: " ++ got
  | unknownArgument label => "Alias not found: `" ++ label ++ "`"
  | unknownMethod => "Function not defined for this data type."
  | indexNotNumber => "Invalid argument type for this function, expecting integer."
  | indexOutOfBounds index length =>
    "Index " ++ Decimal.text index ++ " out of bounds for length " ++ toString length ++ "."
  | wrongNumberOfValues expected got =>
    "Wrong number of values, expected: " ++ toString expected ++ ", got: " ++ toString got
  | wrongNumberOfVariables expected got =>
    "Wrong number of variables, expected: " ++ toString expected ++ ", got: " ++ toString got
  | invalidMemberTarget => "Invalid member target, expected a scope or an array."
  | forBounds => "Incompatible types in 'FOR' statement."
  | stepType => "Invalid type for incrementer."
  | zeroStep => "Step increment cannot be zero."
  | superclassNotClass => "Super class must be a class."
  | controlOutsideLoop keyword => "`" ++ keyword ++ "` used outside of a loop."
  | stepBudgetExceeded budget => "Execution step budget of " ++ toString budget ++ " exceeded."
  | callDepthExceeded limit => "Call depth limit of " ++ toString limit ++ " exceeded."
  | host message => message

structure RuntimeError where
  position : Position
  lexeme : String
  fault : Fault

namespace RuntimeError

def ofToken (token : Token) (fault : Fault) : RuntimeError :=
  ⟨token.position, token.lexeme, fault⟩

def message (error : RuntimeError) : String :=
  error.position.text ++ " Runtime error near of `" ++ error.lexeme ++ "`: " ++
    error.fault.message

end RuntimeError

end XBase
