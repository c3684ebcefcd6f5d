import XBase.Heap.Display
import XBase.Run.Machine

/-!
# What can be called

Functions, classes, builtins, arrays and cursors can be called. A call through a member tells its
callee the name of the method.
-/

namespace XBase

/-- The place of a call and the name of the member that it goes through. -/
structure CallSite where
  token : Token
  member : Option String

/-- The method that is called, in lowercase; a call without a member has none. -/
def CallSite.method (site : CallSite) : String :=
  Text.lower (site.member.getD "")

structure ArgumentValue where
  token : Token
  label : Option String
  value : Value

inductive ExpectedType where
  | text
  | number
deriving DecidableEq, Repr

namespace ExpectedType

def name : ExpectedType → String
  | text => "String"
  | number => "Double"

/-- Whether a value may be passed; null always may. -/
def accepts : ExpectedType → Value → Bool
  | _, .null | text, .text _ | number, .number _ => true
  | _, _ => false

end ExpectedType

/-- What is known of a callee before its arguments are evaluated. -/
structure Signature where
  name : String
  arity : Nat
  /-- Whether a call with another number of arguments fails before they are evaluated. -/
  checksArity : Bool
  expected : List ExpectedType
deriving DecidableEq, Repr

def Native.expected : Native → List ExpectedType
  | .alltrim | .len => [.text]
  | .tack => [.number]
  | .tick | .connection => []

/-- A class takes the arguments of its `init` method. -/
def ClassCell.arity (cell : ClassCell) : Nat :=
  let init? := cell.declaration.methods.find? fun method =>
    Text.sameUpToAsciiCase method.name.lexeme "init"
  (init?.map (·.parameters.length)).getD 0

def Heap.signature? (heap : Heap) : Value → Option Signature
  | .array id => some ⟨"array", (heap.elements id).size, false, []⟩
  | .function id =>
    (heap.functions[id]?).map fun closure =>
      ⟨closure.declaration.name.lexeme, closure.declaration.parameters.length, true, []⟩
  | .classRef id =>
    (heap.classes[id]?).map fun cell => ⟨cell.declaration.name.lexeme, cell.arity, false, []⟩
  | .native which =>
    some ⟨which.name, which.expected.length, which != .connection, which.expected⟩
  | .cursor _ => some ⟨"cursor", 0, false, []⟩
  | .null | .boolean _ | .number _ | .text _ | .scope _ => none

/-- An action that calls a function of the program. -/
abbrev Invocation := FunctionId → CallSite → List ArgumentValue → Run Value

end XBase
