import Mathlib.Logic.Relation
import XBase.Proofs.Conversation
import XBase.Run.Unit

/-!
# Transitions of the machine

Whatever a program does, its machine passes from one state to the next by transitions of a few
kinds. This file says what each of them may change, and what holds along a path of transitions.
-/

namespace XBase.Proofs

/-- One change of the heap. A name is bound anew only where it is no constant, and no edit takes
a binding away. -/
inductive Edit : Heap → Heap → Prop
  | bind {heap : Heap} {id : ScopeId} {key : String} (binding : Binding)
      (h : (heap.own? id key).map Binding.kind ≠ some .constant) :
      Edit heap (heap.bind id key binding)
  | newScope (heap : Heap) (parent : Option ScopeId) : Edit heap (heap.newScope parent).2
  | newArray (heap : Heap) (elements : Array Value) : Edit heap (heap.newArray elements).2
  | newFunction (heap : Heap) (closure : Closure) : Edit heap (heap.newFunction closure).2
  | newClass (heap : Heap) (cell : ClassCell) : Edit heap (heap.newClass cell).2
  | newCursor (heap : Heap) (rows : List Row) : Edit heap (heap.newCursor rows).2
  | setElements (heap : Heap) (id : ArrayId) (elements : Array Value) :
      Edit heap (heap.setElements id elements)
  | setCursor (heap : Heap) (id : CursorId) (cursor : Cursor) :
      Edit heap (heap.setCursor id cursor)

abbrev Edits : Heap → Heap → Prop :=
  Relation.ReflTransGen Edit

/-- What an act that evaluates nothing may change: it edits the heap, prints, leaves records, reads
the clock and talks to a database. The scopes, the counters and the cells in hand stay. -/
inductive Change (m : Machine) : Machine → Prop
  | mk (heap : Heap) (line : String) (log : Array Record) (session : Option DriverSession)
      (readings : Nat) (h : Edits m.heap heap) (htalks : Talks m.session session) :
      Change m { m with heap, output := m.output ++ line, log, session, readings }

lemma change_quiet (m : Machine) (log : Array Record) {session : Option DriverSession}
    (readings : Nat) (h : Talks m.session session) :
    Change m { m with log, session, readings } := by
  have hc := Change.mk m.heap "" log session readings (Relation.ReflTransGen.refl (r := Edit)) h
  simpa only [String.append_empty] using hc

lemma change_refl (m : Machine) : Change m m :=
  change_quiet m m.log m.readings (talks_refl _)

lemma change_trans {m m' m'' : Machine} (h : Change m m') (h' : Change m' m'') : Change m m'' := by
  cases h with
  | mk heap line log session readings h htalks =>
    cases h' with
    | mk heap' line' log' session' readings' h' htalks' =>
      have hc := Change.mk heap' (line ++ line') log' session' readings' (h.trans h')
        (talks_trans htalks htalks')
      simpa only [String.append_assoc] using hc

lemma change_of_edits (m : Machine) {heap : Heap} (h : Edits m.heap heap) :
    Change m { m with heap } := by
  have hc := Change.mk heap "" m.log m.session m.readings h (talks_refl _)
  simpa using hc

lemma change_steps {m m' : Machine} (h : Change m m') : m'.steps = m.steps := by
  cases h
  rfl

inductive Event where
  /-- An act that evaluates nothing. -/
  | acted
  | counted
  | released (targets : List Token)
  /-- Into a scope, and back to the scope before. -/
  | entered | left
  /-- Cells are taken in hand, and let go. -/
  | took | dropped
  /-- Into a call, and out of it. -/
  | called | returned
  | began
  /-- What was printed and recorded is handed over. -/
  | cleared

/-- The heap after names are released, from left to right. -/
def releaseAll (heap : Heap) (id : ScopeId) (targets : List Token) : Heap :=
  targets.foldl (fun heap target => heap.release id target.lexeme) heap

/-- The transitions that limits allow. A step is counted only by a run that has not exceeded its
budget, and a call goes deeper only below the deepest level. -/
inductive Transition (limits : Limits) (m : Machine) : Event → Machine → Prop
  | acted {m' : Machine} (h : Change m m') : Transition limits m .acted m'
  | counted (h : ∀ budget, limits.maxSteps = some budget → m.steps ≤ budget) :
      Transition limits m .counted { m with steps := m.steps + 1 }
  | released (targets : List Token) :
      Transition limits m (.released targets) { m with heap := releaseAll m.heap m.scope targets }
  | entered (id : ScopeId) :
      Transition limits m .entered { m with scope := id, saved := m.scope :: m.saved }
  | left {id : ScopeId} {saved : List ScopeId} (h : m.saved = id :: saved) :
      Transition limits m .left { m with scope := id, saved }
  | took (cells : List Cell) : Transition limits m .took { m with held := cells ++ m.held }
  | dropped {cells held : List Cell} (h : m.held = cells ++ held) :
      Transition limits m .dropped { m with held }
  | called (h : m.depth < limits.maxDepth) :
      Transition limits m .called { m with depth := m.depth + 1 }
  | returned (h : 0 < m.depth) : Transition limits m .returned { m with depth := m.depth - 1 }
  | began (log : Array Record) :
      Transition limits m .began
        { m with log, steps := 0, depth := 0, scope := m.globals, saved := [], held := [] }
  | cleared (log : Array Record) : Transition limits m .cleared { m with output := "", log }

structure Moment where
  event : Event
  machine : Machine

/-- Moments that follow a machine by transitions, one after another. -/
def Path (limits : Limits) : Machine → List Moment → Prop
  | _, [] => True
  | m, moment :: moments =>
    Transition limits m moment.event moment.machine ∧ Path limits moment.machine moments

def finish : Machine → List Moment → Machine
  | m, [] => m
  | _, moment :: moments => finish moment.machine moments

@[simp] lemma finish_nil (m : Machine) : finish m [] = m := rfl

@[simp] lemma finish_cons (m : Machine) (moment : Moment) (moments : List Moment) :
    finish m (moment :: moments) = finish moment.machine moments := rfl

@[simp] lemma finish_append (m : Machine) (s t : List Moment) :
    finish m (s ++ t) = finish (finish m s) t := by
  induction s generalizing m with
  | nil => rfl
  | cons moment s ih => exact ih moment.machine

lemma path_append {limits : Limits} (m : Machine) (s t : List Moment) :
    Path limits m (s ++ t) ↔ Path limits m s ∧ Path limits (finish m s) t := by
  induction s generalizing m with
  | nil => simp [Path]
  | cons moment s ih => simp only [List.cons_append, Path, finish_cons, ih, and_assoc]

lemma path_singleton {limits : Limits} (m : Machine) (moment : Moment) :
    Path limits m [moment] ↔ Transition limits m moment.event moment.machine := by
  simp [Path]

lemma path_initial {limits : Limits} {m : Machine} {earlier moments : List Moment}
    (hpath : Path limits m moments) (h : earlier <+: moments) : Path limits m earlier := by
  obtain ⟨later, rfl⟩ := h
  exact ((path_append m earlier later).mp hpath).1

/-- What every transition keeps holds at the end of a path. -/
lemma path_invariant {limits : Limits} {P : Machine → Prop}
    (hstep : ∀ m event m', Transition limits m event m' → P m → P m') (m : Machine)
    (moments : List Moment) (hpath : Path limits m moments) (h : P m) : P (finish m moments) := by
  induction moments generalizing m with
  | nil => exact h
  | cons moment moments ih =>
    exact ih moment.machine hpath.2 (hstep m moment.event moment.machine hpath.1 h)

end XBase.Proofs
