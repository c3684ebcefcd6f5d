import XBase.Heap.Value

/-!
# Cells that are still held

References are counted: a cell is dropped as soon as nothing refers to it. So a cell is held if it
can be reached from a root, or from cells that refer to each other in a circle.
-/

namespace XBase

/-- A cell that refers to other cells. -/
inductive Cell where
  | array (id : ArrayId)
  | scope (id : ScopeId)
  | function (id : FunctionId)
  | cursor (id : CursorId)
deriving DecidableEq, Repr

def Value.cell? : Value → Option Cell
  | .array id => some (.array id)
  | .scope id => some (.scope id)
  | .function id => some (.function id)
  | .cursor id => some (.cursor id)
  | _ => none

namespace Heap

def references (heap : Heap) : Cell → List Cell
  | .array id => ((heap.arrays[id]?).getD #[]).toList.filterMap Value.cell?
  | .scope id =>
    match heap.scopes[id]? with
    | none => []
    | some scope =>
      scope.parent.toList.map Cell.scope ++
        scope.bindings.values.filterMap fun binding => binding.value.cell?
  | .function id => ((heap.functions[id]?).map fun closure => Cell.scope closure.scope).toList
  | .cursor id =>
    match heap.cursors[id]? with
    | none => []
    | some cursor => cursor.rows.flatten.filterMap fun entry => entry.2.cell?

def cells (heap : Heap) : List Cell :=
  (List.range heap.arrays.size).map Cell.array ++ (List.range heap.scopes.size).map Cell.scope ++
    (List.range heap.functions.size).map Cell.function ++
    (List.range heap.cursors.size).map Cell.cursor

def referenceCount (heap : Heap) : Nat :=
  heap.cells.foldl (fun count cell => count + (heap.references cell).length) 0

/-- Adds to `seen` what can be reached from `pending`, looking at `fuel` cells at most. -/
def spread (heap : Heap) : Nat → List Cell → List Cell → List Cell
  | 0, _, seen => seen
  | _, [], seen => seen
  | fuel + 1, cell :: pending, seen =>
    if seen.contains cell then heap.spread fuel pending seen
    else heap.spread fuel (heap.references cell ++ pending) (cell :: seen)

def reachable (heap : Heap) (start : List Cell) : List Cell :=
  heap.spread (heap.referenceCount + start.length + 1) start []

/-- Whether a cell refers to itself, directly or through others. -/
def onCircle (heap : Heap) (cell : Cell) : Bool :=
  (heap.reachable (heap.references cell)).contains cell

def holds (heap : Heap) (roots : List Cell) (target : Cell) : Bool :=
  (heap.reachable roots).contains target ||
    heap.cells.any fun cell => (heap.reachable [cell]).contains target && heap.onCircle cell

end Heap

end XBase
