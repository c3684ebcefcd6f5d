import XBase.Decimal.Shortest
import XBase.Heap.Chain
import XBase.Text.Quoted

/-!
# The text of a value

An array is written with its elements and a scope with its names in order. A container that
contains itself is cut short where it is met again.
-/

namespace XBase

/-- A cell that holds other values. -/
inductive Container where
  | array (id : ArrayId)
  | scope (id : ScopeId)
deriving DecidableEq, Repr

/-- The text of a number: a whole number below a quadrillion is written as an integer. -/
def numberText (n : Float) : String :=
  if Decimal.isIntegral n && (Decimal.integerPart n).natAbs < 1000000000000000 then
    toString (Decimal.integerPart n)
  else Decimal.text n

def Native.name : Native → String
  | alltrim => "alltrim"
  | len => "len"
  | tick => "tick"
  | tack => "tack"
  | connection => "connection"

namespace Heap

def functionName (heap : Heap) (id : FunctionId) : String :=
  ((heap.functions[id]?).map (·.declaration.name.lexeme)).getD ""

def className (heap : Heap) (id : ClassId) : String :=
  ((heap.classes[id]?).map (·.declaration.name.lexeme)).getD ""

/-- The entries of a scope in the order of their names. -/
def entries (heap : Heap) (id : ScopeId) : List (String × Binding) :=
  ((heap.scopes[id]?).map (·.bindings.toList)).getD []

/-- The text of a value inside the containers of `path`. Containers are nested no deeper than
there are containers, and `depth` counts those that may still be opened. -/
def render (heap : Heap) (depth : Nat) (path : List Container) (value : Value) : String :=
  match value with
  | .null => "null"
  | .boolean value => if value then "true" else "false"
  | .number value => numberText value
  | .text value => value
  | .function id => "fn(" ++ heap.functionName id ++ ")"
  | .classRef id => "class(" ++ heap.className id ++ ")"
  | .native which => "fn(" ++ which.name ++ ")"
  | .cursor id =>
    "Object(Cursor, " ++ toString (((heap.cursors[id]?).map (·.rows.length)).getD 0) ++ " rows)"
  | .array id =>
    if path.contains (.array id) then "[...]"
    else
      match depth with
      | 0 => "[...]"
      | depth + 1 =>
        let inner := (heap.elements id).toList.map (heap.render depth (.array id :: path))
        "[" ++ String.intercalate ", " inner ++ "]"
  | .scope id =>
    if path.contains (.scope id) then "\x7b...\x7d"
    else
      match depth with
      | 0 => "\x7b...\x7d"
      | depth + 1 =>
        let inner := (heap.entries id).map fun (name, binding) =>
          name ++ ":" ++ heap.render depth (.scope id :: path) binding.value
        "\x7b" ++ String.intercalate ", " inner ++ "\x7d"

def containers (heap : Heap) : Nat :=
  heap.arrays.size + heap.scopes.size

def text (heap : Heap) (value : Value) : String :=
  heap.render (heap.containers + 1) [] value

/-- The text of a scope that does not count as a container of itself. -/
def scopeText (heap : Heap) (id : ScopeId) : String :=
  let inner := (heap.entries id).map fun (name, binding) => name ++ ":" ++ heap.text binding.value
  "\x7b" ++ String.intercalate ", " inner ++ "\x7d"

/-- The names of a scope and whether there is a scope around it. -/
def outline (heap : Heap) (id : ScopeId) : String :=
  "Environment \x7b names: [" ++ String.intercalate ", " ((heap.names id).map Text.quoted) ++
    "], has_parent: " ++ (if (heap.parent? id).isSome then "true" else "false") ++ " \x7d"

end Heap

end XBase
