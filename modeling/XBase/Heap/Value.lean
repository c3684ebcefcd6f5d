import Std.Data.TreeMap
import XBase.Program.Stmt

/-!
# Values and the cells that they share

A value is a scalar or names a cell: an array, a scope, a function, a class or a cursor. Two values
that name one cell share it.
-/

namespace XBase

abbrev ScopeId := Nat

abbrev ArrayId := Nat

abbrev FunctionId := Nat

abbrev ClassId := Nat

abbrev CursorId := Nat

/-- The functions that every program finds. The three methods of the connection object are one. -/
inductive Native where
  | alltrim | len | tick | tack | connection
deriving DecidableEq, Repr

inductive Value where
  | null
  | boolean (value : Bool)
  | number (value : Float)
  | text (value : String)
  | array (id : ArrayId)
  | function (id : FunctionId)
  | classRef (id : ClassId)
  | scope (id : ScopeId)
  | native (which : Native)
  | cursor (id : CursorId)
deriving Inhabited

namespace Value

/-- Null is false, a boolean is itself, and all else is true. -/
def isTruthy : Value → Bool
  | null => false
  | boolean value => value
  | _ => true

/-- Scalars are equal by value, shared cells by identity. -/
def equals : Value → Value → Bool
  | null, null => true
  | boolean l, boolean r => l == r
  | number l, number r => l == r
  | text l, text r => l == r
  | array l, array r => l == r
  | function l, function r => l == r
  | classRef l, classRef r => l == r
  | scope l, scope r => l == r
  | native l, native r => l == r
  | cursor l, cursor r => l == r
  | _, _ => false

/-- The name of a type, which the types that builtins expect are looked for in. -/
def typeName : Value → String
  | null => "null"
  | boolean _ => "Boolean"
  | number _ => "Double"
  | text _ => "String"
  | array _ => "RuntimeArray"
  | function _ => "RuntimeFunction"
  | classRef _ => "RuntimeClass"
  | scope _ => "Environment"
  | native _ => "BuiltinFunction"
  | cursor _ => "HostObject"

/-- The value of a literal; a token without one stands for null. -/
def ofLiteral : Option Literal → Value
  | none | some .null => null
  | some (.boolean value) => boolean value
  | some (.number value) => number value
  | some (.text value) => text value

end Value

/-- A constant keeps its value; a variable may be written. -/
inductive BindingKind where
  | variable
  | constant
deriving DecidableEq, Repr

structure Binding where
  kind : BindingKind
  value : Value

/-- A table of names with the scope around it. Names are kept in lowercase. -/
structure Scope where
  bindings : Std.TreeMap String Binding
  parent : Option ScopeId

/-- A function with the scope in which it was declared. -/
structure Closure where
  declaration : FunctionDecl Stmt
  scope : ScopeId

structure ClassCell where
  declaration : ClassDecl Stmt
  superclass : Option ClassId

/-- One row of a table: its columns in order. -/
abbrev Row := List (String × Value)

/-- A place in the rows of a table; it moves forward only. -/
structure Cursor where
  rows : List Row
  position : Nat
  closed : Bool

/-- All cells. Cells are added and changed but never taken away. -/
structure Heap where
  scopes : Array Scope
  arrays : Array (Array Value)
  functions : Array Closure
  classes : Array ClassCell
  cursors : Array Cursor

namespace Heap

def empty : Heap :=
  ⟨#[], #[], #[], #[], #[]⟩

def newScope (heap : Heap) (parent : Option ScopeId) : ScopeId × Heap :=
  (heap.scopes.size, { heap with scopes := heap.scopes.push ⟨∅, parent⟩ })

def newArray (heap : Heap) (elements : Array Value) : ArrayId × Heap :=
  (heap.arrays.size, { heap with arrays := heap.arrays.push elements })

def newFunction (heap : Heap) (closure : Closure) : FunctionId × Heap :=
  (heap.functions.size, { heap with functions := heap.functions.push closure })

def newClass (heap : Heap) (cell : ClassCell) : ClassId × Heap :=
  (heap.classes.size, { heap with classes := heap.classes.push cell })

/-- A new cursor on the first of some rows. -/
def newCursor (heap : Heap) (rows : List Row) : CursorId × Heap :=
  (heap.cursors.size, { heap with cursors := heap.cursors.push ⟨rows, 0, false⟩ })

def elements (heap : Heap) (id : ArrayId) : Array Value :=
  heap.arrays.getD id #[]

def setElements (heap : Heap) (id : ArrayId) (elements : Array Value) : Heap :=
  { heap with arrays := heap.arrays.setIfInBounds id elements }

/-- Takes the elements out of an array, so that they can be changed in place. -/
@[noinline] def takeElements (heap : Heap) (id : ArrayId) : Array Value × Heap :=
  (heap.elements id, heap.setElements id #[])

/-- Changes the elements of an array and gives what the change made. -/
def updateElements {α : Type} (heap : Heap) (id : ArrayId) (f : Array Value → α × Array Value) :
    α × Heap :=
  match heap.takeElements id with
  | (elements, heap) =>
    match f elements with
    | (a, elements) => (a, heap.setElements id elements)

def setCursor (heap : Heap) (id : CursorId) (cursor : Cursor) : Heap :=
  { heap with cursors := heap.cursors.setIfInBounds id cursor }

end Heap

end XBase
