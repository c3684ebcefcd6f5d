import XBase.Heap.Value
import XBase.Text.Case

/-!
# Names along a chain of scopes

A name belongs to the nearest scope that binds it, its owner. Looking up, assigning and releasing
a name walk from a scope to the scopes around it and act on the owner. Names that differ only in
case are one name. An operation that is refused leaves the heap as it was.
-/

namespace XBase

inductive ScopeError where
  | undefined (name : String)
  | constantRedefinition (name : String)
  | constantAssignment (name : String)
deriving DecidableEq, Repr

def ScopeError.message : ScopeError → String
  | undefined name => "Undefined variable `" ++ name ++ "`."
  | constantRedefinition name => "Constants cannot be redefined `" ++ name ++ "`"
  | constantAssignment name => "Invalid constant assignment `" ++ name ++ "`"

namespace Heap

def own? (heap : Heap) (id : ScopeId) (key : String) : Option Binding :=
  (heap.scopes[id]?).bind fun scope => scope.bindings[key]?

/-- The scope around a scope. A scope is younger than the scope around it. -/
def parent? (heap : Heap) (id : ScopeId) : Option ScopeId :=
  ((heap.scopes[id]?).bind Scope.parent).filter (· < id)

theorem parent?_lt {heap : Heap} {id parent : ScopeId} (h : heap.parent? id = some parent) :
    parent < id := by
  simp only [parent?, Option.filter_eq_some_iff, decide_eq_true_eq] at h
  exact h.2

/-- The nearest scope that binds a lowercase name. -/
def owner? (heap : Heap) (id : ScopeId) (key : String) : Option ScopeId :=
  if (heap.own? id key).isSome then some id
  else
    match _ : heap.parent? id with
    | none => none
    | some parent => heap.owner? parent key
termination_by id
decreasing_by exact parent?_lt ‹_›

def modifyBindings (heap : Heap) (id : ScopeId)
    (f : Std.TreeMap String Binding → Std.TreeMap String Binding) : Heap :=
  { heap with scopes := heap.scopes.modify id fun scope =>
      { scope with bindings := f scope.bindings } }

/-- Binds a lowercase name in one scope, whatever it was bound to. -/
def bind (heap : Heap) (id : ScopeId) (key : String) (binding : Binding) : Heap :=
  heap.modifyBindings id (·.insert key binding)

/-- Binds a name for the host, over any binding that it has. -/
def seed (heap : Heap) (id : ScopeId) (name : String) (value : Value) (kind : BindingKind) : Heap :=
  heap.bind id (Text.lower name) ⟨kind, value⟩

/-- Declares a name in one scope; only a constant of the same scope stands in the way. -/
def define (heap : Heap) (id : ScopeId) (name : String) (value : Value) (kind : BindingKind) :
    Except ScopeError Unit × Heap :=
  let key := Text.lower name
  match (heap.own? id key).map Binding.kind with
  | some .constant => (.error (.constantRedefinition name), heap)
  | _ => (.ok (), heap.bind id key ⟨kind, value⟩)

def get (heap : Heap) (id : ScopeId) (key : String) : Option Value :=
  match heap.own? id key with
  | some binding => some binding.value
  | none =>
    match _ : heap.parent? id with
    | none => none
    | some parent => heap.get parent key
termination_by id
decreasing_by exact parent?_lt ‹_›

def lookup (heap : Heap) (id : ScopeId) (name : String) : Except ScopeError Value :=
  match heap.get id (Text.lower name) with
  | some value => .ok value
  | none => .error (.undefined name)

/-- Whether a name is a constant or a variable, if it is bound. -/
def kindOf (heap : Heap) (id : ScopeId) (name : String) : Option BindingKind :=
  let key := Text.lower name
  match heap.own? id key with
  | some binding => some binding.kind
  | none =>
    match _ : heap.parent? id with
    | none => none
    | some parent => heap.kindOf parent key
termination_by id
decreasing_by exact parent?_lt ‹_›

/-- Assigns to a name of one scope and of no scope around it. -/
def assignOwn (heap : Heap) (id : ScopeId) (name : String) (value : Value) :
    Except ScopeError Unit × Heap :=
  let key := Text.lower name
  match (heap.own? id key).map Binding.kind with
  | some .constant => (.error (.constantAssignment name), heap)
  | _ => (.ok (), heap.bind id key ⟨.variable, value⟩)

/-- Assigns to a lowercase name where it is bound; a value that finds no binding is given back. The
name stands in the error as it was written. -/
def assignExisting (heap : Heap) (id : ScopeId) (key name : String) (value : Value) :
    Except ScopeError (Option Value) × Heap :=
  match (heap.own? id key).map Binding.kind with
  | some .constant => (.error (.constantAssignment name), heap)
  | some .variable => (.ok none, heap.bind id key ⟨.variable, value⟩)
  | none =>
    match _ : heap.parent? id with
    | none => (.ok (some value), heap)
    | some parent => heap.assignExisting parent key name value
termination_by id
decreasing_by exact parent?_lt ‹_›

/-- Assigns to a name along the chain; a name that is bound nowhere becomes a variable of the scope
itself. -/
def assign (heap : Heap) (id : ScopeId) (name : String) (value : Value) :
    Except ScopeError Unit × Heap :=
  let key := Text.lower name
  match heap.assignExisting id key name value with
  | (.error why, heap) => (.error why, heap)
  | (.ok none, heap) => (.ok (), heap)
  | (.ok (some value), heap) => (.ok (), heap.bind id key ⟨.variable, value⟩)

/-- Takes a name away from the nearest scope that binds it. -/
def release (heap : Heap) (id : ScopeId) (name : String) : Heap :=
  let key := Text.lower name
  match heap.own? id key with
  | some _ => heap.modifyBindings id (·.erase key)
  | none =>
    match _ : heap.parent? id with
    | none => heap
    | some parent => heap.release parent key
termination_by id
decreasing_by exact parent?_lt ‹_›

def names (heap : Heap) (id : ScopeId) : List String :=
  ((heap.scopes[id]?).map (·.bindings.keys)).getD []

end Heap

end XBase
