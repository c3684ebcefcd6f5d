import XBase.Proofs.Obedience

/-!
# Calls are local

A call leaves every scope and every array alone that cannot be reached from the scope that the
function has captured, from the global scope or from the arguments. What it gives back leads to
nothing else either, apart from what is new.
-/

noncomputable section

namespace XBase.Proofs

def cellValue : Cell → Value
  | .array id => .array id
  | .scope id => .scope id
  | .function id => .function id
  | .cursor id => .cursor id

/-- The drivers whose tables can be read: those of the host and that of the open session. -/
def Available (c : Config) (m : Machine) (driver : Driver) : Prop :=
  (∃ entry ∈ c.host.drivers, entry.2 = driver) ∨
    ∃ held, m.session = some held ∧ held.driver = driver

/-- The values that can be reached from some roots. -/
inductive InReach (c : Config) (m : Machine) (roots : Value → Prop) : Value → Prop
  | root {v : Value} (h : roots v) : InReach c m roots v
  | parent {id parent : ScopeId} (hid : InReach c m roots (.scope id))
      (h : m.heap.parent? id = some parent) : InReach c m roots (.scope parent)
  | binding {id : ScopeId} {key : String} {binding : Binding}
      (hid : InReach c m roots (.scope id)) (h : m.heap.own? id key = some binding) :
      InReach c m roots binding.value
  | closure {id : FunctionId} {closure : Closure} (hid : InReach c m roots (.function id))
      (h : m.heap.functions[id]? = some closure) : InReach c m roots (.scope closure.scope)
  | element {id : ArrayId} {v : Value} (hid : InReach c m roots (.array id))
      (h : v ∈ m.heap.elements id) : InReach c m roots v
  | column {id : CursorId} {cursor : Cursor} {row : Row} {entry : String × Value}
      (hid : InReach c m roots (.cursor id)) (h : m.heap.cursors[id]? = some cursor)
      (hrow : row ∈ cursor.rows) (hentry : entry ∈ row) : InReach c m roots entry.2
  /-- The tables behind the connection object. -/
  | table {driver : Driver} {settings : Settings} {calls : List SessionCall} {name : String}
      {rows : List Row} {row : Row} {entry : String × Value}
      (hconnection : InReach c m roots (.native .connection)) (hdriver : Available c m driver)
      (h : driver.rows settings calls name = .ok rows) (hrow : row ∈ rows) (hentry : entry ∈ row) :
      InReach c m roots entry.2

/-- A heap in which nothing but known cells has changed since an earlier one. -/
structure Untouched (knows : Cell → Prop) (heap heap' : Heap) : Prop where
  older : ∀ cell, Lacks heap' cell → Lacks heap cell
  scope : ∀ id, ¬ knows (.scope id) → heap'.scopes[id]? = heap.scopes[id]?
  array : ∀ id, ¬ knows (.array id) → heap'.arrays[id]? = heap.arrays[id]?

section Changes

variable {knows : Cell → Prop} {heap heap' heap'' : Heap}

lemma untouched_refl : Untouched knows heap heap :=
  ⟨fun _ h => h, fun _ _ => rfl, fun _ _ => rfl⟩

lemma untouched_trans (h : Untouched knows heap heap') (h' : Untouched knows heap' heap'') :
    Untouched knows heap heap'' :=
  ⟨fun cell hlacks => h.older cell (h'.older cell hlacks),
    fun id hid => (h'.scope id hid).trans (h.scope id hid),
    fun id hid => (h'.array id hid).trans (h.array id hid)⟩

lemma untouched_modifyBindings {id : ScopeId} (hid : knows (.scope id))
    (f : Std.TreeMap String Binding → Std.TreeMap String Binding) :
    Untouched knows heap (heap.modifyBindings id f) := by
  refine ⟨fun cell hlacks => ?_, fun other hother => ?_, fun _ _ => rfl⟩
  · cases cell with
    | scope other =>
      have hsize : (heap.modifyBindings id f).scopes.size = heap.scopes.size :=
        Law.size_modifyBindings id f
      change heap.scopes.size ≤ other
      rw [← hsize]
      exact hlacks
    | _ => exact hlacks
  · have hne : id ≠ other := fun h => hother (h ▸ hid)
    simp [Heap.modifyBindings, Array.getElem?_modify, hne]

/-- An edit of known cells leaves the others alone, where new cells are known. -/
lemma untouched_edit {ω : Type} {policy : Policy ω} {w : ω}
    (hnew : ∀ cell, Lacks heap cell → policy.knows cell) (h : policy.Edit w heap heap') :
    Untouched policy.knows heap heap' := by
  cases h with
  | bind key hid _ _ => exact untouched_modifyBindings hid _
  | erase key hid => exact untouched_modifyBindings hid _
  | @newArray elements _ =>
    refine ⟨fun cell hlacks => ?_, fun _ _ => rfl, fun id hid => ?_⟩
    · cases cell with
      | array id =>
        have hsize : heap.arrays.size + 1 ≤ id := by simpa [Lacks, Heap.newArray] using hlacks
        exact Nat.le_of_succ_le hsize
      | _ => exact hlacks
    · have hne : id ≠ heap.arrays.size := fun h => hid (hnew (.array id) (Nat.le_of_eq h.symm))
      simp [Heap.newArray, Array.getElem?_push, hne]
  | @newFunction closure _ _ =>
    refine ⟨fun cell hlacks => ?_, fun _ _ => rfl, fun _ _ => rfl⟩
    cases cell with
    | function id =>
      have hsize : heap.functions.size + 1 ≤ id := by simpa [Lacks, Heap.newFunction] using hlacks
      exact Nat.le_of_succ_le hsize
    | _ => exact hlacks
  | newClass cell =>
    refine ⟨fun cell hlacks => ?_, fun _ _ => rfl, fun _ _ => rfl⟩
    cases cell <;> exact hlacks
  | @newCursor rows _ =>
    refine ⟨fun cell hlacks => ?_, fun _ _ => rfl, fun _ _ => rfl⟩
    cases cell with
    | cursor id =>
      have hsize : heap.cursors.size + 1 ≤ id := by simpa [Lacks, Heap.newCursor] using hlacks
      exact Nat.le_of_succ_le hsize
    | _ => exact hlacks
  | @setElements owner elements hid _ =>
    refine ⟨fun cell hlacks => ?_, fun _ _ => rfl, fun id hother => ?_⟩
    · cases cell with
      | array id => simpa [Lacks, Heap.setElements] using hlacks
      | _ => exact hlacks
    · have hne : owner ≠ id := fun h => hother (h ▸ hid)
      simp [Heap.setElements, hne]
  | @setCursor owner cursor _ _ =>
    refine ⟨fun cell hlacks => ?_, fun _ _ => rfl, fun _ _ => rfl⟩
    cases cell with
    | cursor id => simpa [Lacks, Heap.setCursor] using hlacks
    | _ => exact hlacks

lemma untouched_newScope (hnew : ∀ cell, Lacks heap cell → knows cell) (parent : Option ScopeId) :
    Untouched knows heap (heap.newScope parent).2 := by
  refine ⟨fun cell hlacks => ?_, fun id hid => ?_, fun _ _ => rfl⟩
  · cases cell with
    | scope id =>
      have hsize : heap.scopes.size + 1 ≤ id := by simpa [Lacks, Heap.newScope] using hlacks
      exact Nat.le_of_succ_le hsize
    | _ => exact hlacks
  · have hne : id ≠ heap.scopes.size := fun h => hid (hnew (.scope id) (Nat.le_of_eq h.symm))
    simp [Heap.newScope, Array.getElem?_push, hne]

end Changes

section Law

variable (c : Config) (m : Machine) (roots : Value → Prop)

/-- What a program that starts in a machine with some roots may get hold of: what can be reached
and what is new. -/
def reachPolicy : Policy Unit where
  knows cell := Lacks m.heap cell ∨ InReach c m roots (cellValue cell)
  tables := InReach c m roots (.native .connection)
  driver := Available c m
  home := m.globals
  handle _ _ id := m.heap.scopes.size ≤ id ∨ InReach c m roots (.scope id)
  place _ id := m.heap.scopes.size ≤ id ∨ InReach c m roots (.scope id)
  stands _ _ _ := True
  opens id := m.heap.scopes.size ≤ id ∨ InReach c m roots (.scope id)
  grow _ _ := ()
  keep _ heap :=
    Untouched (fun cell => Lacks m.heap cell ∨ InReach c m roots (cellValue cell)) m.heap heap
  node _ := True
  stretch _ _ := True

variable {c m roots}

lemma value_of_inReach {v : Value} (h : InReach c m roots v) (n : Nat) :
    (reachPolicy c m roots).value () n v := by
  cases v with
  | native which =>
    cases which with
    | connection => exact h
    | _ => trivial
  | array id => exact .inr h
  | function id => exact .inr h
  | scope id => exact .inr h
  | cursor id => exact .inr h
  | _ => trivial

lemma inReach_of_value {cell : Cell} {n : Nat}
    (h : (reachPolicy c m roots).value () n (cellValue cell)) :
    Lacks m.heap cell ∨ InReach c m roots (cellValue cell) := by
  cases cell <;> exact h

/-- The heap of the machine obeys the policy of what can be reached in it. -/
lemma obeyed_start : (reachPolicy c m roots).Obeyed () m.heap where
  parent id parent hid hparent := by
    rcases hid with hlacks | hid
    · rw [Heap.parent?, Array.getElem?_eq_none hlacks] at hparent
      cases hparent
    · exact .inr (.parent hid hparent)
  binding id key binding hid hbinding := by
    rcases hid with hlacks | hid
    · rw [Heap.own?, Array.getElem?_eq_none hlacks] at hbinding
      cases hbinding
    · exact value_of_inReach (.binding hid hbinding) _
  element id hid v hv := by
    rcases hid with hlacks | hid
    · have hnone : m.heap.arrays[id]? = none := Array.getElem?_eq_none hlacks
      simp [Heap.elements, hnone] at hv
    · exact value_of_inReach (.element hid hv) _
  column id cursor hid hcursor row hrow entry hentry := by
    rcases hid with hlacks | hid
    · rw [Array.getElem?_eq_none hlacks] at hcursor
      cases hcursor
    · exact value_of_inReach (.column hid hcursor hrow hentry) _
  closure id closure hid hclosure := by
    refine ⟨?_, fun _ _ => trivial⟩
    rcases hid with hlacks | hid
    · rw [Array.getElem?_eq_none hlacks] at hclosure
      cases hclosure
    · exact .inr (.closure hid hclosure)

/-- The policy is a law if the global scope is one of the roots. -/
def reachLaw (hglobals : roots (.scope m.globals)) : Law Unit c where
  toPolicy := reachPolicy c m roots
  handle_mono _ h := h
  place_mono _ h := h
  stands_mono _ h := h
  knows_of_opens h := h
  knows_of_place h := h
  opens_home := .inr (.root hglobals)
  opens_of_handle h := h
  opens_new {_ heap _} hkeep _ := .inl (hkeep.older (.scope heap.scopes.size) (Nat.le_refl _))
  knows_of_lacks hkeep hlacks := .inl (hkeep.older _ hlacks)
  keep_edit hkeep hedit :=
    untouched_trans hkeep (untouched_edit (fun _ hlacks => Or.inl (hkeep.older _ hlacks)) hedit)
  keep_grow hkeep _ :=
    untouched_trans hkeep (untouched_newScope (fun _ hlacks => .inl (hkeep.older _ hlacks)) _)
  keep_shrink h := h
  handle_grow h := h
  handle_shrink h := h
  stands_grow h := h
  place_new {_ heap _} hkeep _ := .inl (hkeep.older (.scope heap.scopes.size) (Nat.le_refl _))
  stands_new _ _ := trivial
  handle_module {_ m' _ _ _ _} hkeep _ _ :=
    .inl (hkeep.older (.scope m'.heap.scopes.size) (Nat.le_refl _))
  registry entry hentry := .inl ⟨entry, hentry, rfl⟩
  rows_of_driver _ htables hdriver hrows _ hrow _ hentry :=
    value_of_inReach (.table htables hdriver hrows hrow hentry) _
  stretch_append _ := ⟨trivial, trivial⟩

/-- Whatever a lawful value reaches in a machine under the law is lawful. -/
lemma value_inReach (hglobals : roots (.scope m.globals)) {m' : Machine}
    (hm : (reachLaw (c := c) hglobals).Governs () m') {found v : Value}
    (hfound : (reachPolicy c m roots).value () m'.heap.scopes.size found)
    (h : InReach c m' (· = found) v) :
    (reachPolicy c m roots).value () m'.heap.scopes.size v := by
  induction h with
  | root h => exact h ▸ hfound
  | parent _ h ih => exact hm.heap.parent _ _ ih h
  | binding _ h ih => exact hm.heap.binding _ _ _ ih h
  | closure _ h ih => exact (hm.heap.closure _ _ ih h).1
  | element _ h ih => exact hm.heap.element _ ih _ h
  | column _ h hrow hentry ih => exact hm.heap.column _ _ ih h _ hrow _ hentry
  | @table driver _ _ _ _ _ _ _ hdriver h hrow hentry ih =>
    have havailable : Available c m driver := by
      rcases hdriver with ⟨entry, hregistry, rfl⟩ | ⟨held, hheld, rfl⟩
      · exact .inl ⟨entry, hregistry, rfl⟩
      · exact hm.session held hheld
    exact value_of_inReach (.table ih havailable h hrow hentry) _

end Law

/-- What a call of a function is given. -/
inductive CallRoot (m : Machine) (id : FunctionId) (arguments : List ArgumentValue) : Value → Prop
  | globals : CallRoot m id arguments (.scope m.globals)
  | captured {closure : Closure} (h : m.heap.functions[id]? = some closure) :
      CallRoot m id arguments (.scope closure.scope)
  | argument {argument : ArgumentValue} (h : argument ∈ arguments) :
      CallRoot m id arguments argument.value

/-- Whether a call returns or fails, it leaves every scope and every array as it was that cannot be
reached from what the call is given. The value that it returns reaches only what could be reached
before or is new. -/
theorem call_is_local (levels : Nat) (c : Config) (m : Machine) (id : FunctionId) (site : CallSite)
    (arguments : List ArgumentValue) :
    (∀ scope, scope < m.heap.scopes.size →
      ¬ InReach c m (CallRoot m id arguments) (.scope scope) →
        (Run.invoke levels id site arguments c m).2.heap.scopes[scope]? = m.heap.scopes[scope]?) ∧
    (∀ array, array < m.heap.arrays.size →
      ¬ InReach c m (CallRoot m id arguments) (.array array) →
        (Run.invoke levels id site arguments c m).2.heap.arrays[array]? = m.heap.arrays[array]?) ∧
    ∀ v, (Run.invoke levels id site arguments c m).1 = .ok v →
      ∀ cell, InReach c (Run.invoke levels id site arguments c m).2 (· = v) (cellValue cell) →
        Lacks m.heap cell ∨ InReach c m (CallRoot m id arguments) (cellValue cell) := by
  have hglobals : CallRoot m id arguments (.scope m.globals) := .globals
  have hm : (reachLaw (c := c) hglobals).Governs () m :=
    ⟨obeyed_start, untouched_refl, rfl, fun held hheld => .inr ⟨held, hheld, rfl⟩⟩
  have hout : (reachLaw (c := c) hglobals).Outcome (levels + 1) ()
      (.call id site arguments : Composition Signal.maxRounds _) m
      ((reachLaw (c := c) hglobals).value ()) := by
    refine (reachLaw hglobals).outcome_call ((reachLaw hglobals).calls levels)
      (fun closure hclosure => ⟨.inr (.root (.captured hclosure)), fun _ _ => trivial⟩) site
      (fun argument hargument => ?_) hm (fun _ _ => trivial) trivial
    exact value_of_inReach (.root (.argument hargument)) _
  have hkeep := hout.governs.keep
  refine ⟨fun scope hscope hreach => ?_, fun array harray hreach => ?_, fun v hv cell hcell => ?_⟩
  · refine hkeep.scope scope fun hknows => ?_
    rcases hknows with hlacks | hknows
    · exact Nat.not_le_of_lt hscope hlacks
    · exact hreach hknows
  · refine hkeep.array array fun hknows => ?_
    rcases hknows with hlacks | hknows
    · exact Nat.not_le_of_lt harray hlacks
    · exact hreach hknows
  · exact inReach_of_value (value_inReach hglobals hout.governs (hout.result v hv) hcell)

/-- A machine in a scope of its own that has a name `x`, with a function of the global scope that
writes to such a name. -/
def callerOfWriter : Machine :=
  let lost : Token := { nameToken "lost" with literal := some (.text "lost") }
  let write : Stmt := .assign (nameToken "=") (.name (nameToken "x")) (.literal lost)
  { Machine.start bareHost with
    heap :=
      { Heap.empty with
        scopes := #[⟨∅, none⟩, ⟨Std.TreeMap.empty.insert "x" ⟨.variable, .text "kept"⟩, some 0⟩]
        functions := #[⟨⟨nameToken "function", nameToken "f", [], [write], []⟩, 0⟩] }
    scope := 1
    saved := [0] }

theorem call_is_local_writer :
    ¬ InReach ⟨⟨none, 2⟩, bareHost⟩ callerOfWriter (CallRoot callerOfWriter 0 []) (.scope 1) ∧
      (Run.invoke 2 0 ⟨nameToken "f", none⟩ [] ⟨⟨none, 2⟩, bareHost⟩
        callerOfWriter).2.heap.scopes[1]? = callerOfWriter.heap.scopes[1]? := by
  have hreach : ∀ v,
      InReach ⟨⟨none, 2⟩, bareHost⟩ callerOfWriter (CallRoot callerOfWriter 0 []) v →
        v = .scope 0 := by
    intro v h
    induction h with
    | root h =>
      cases h with
      | globals => rfl
      | captured h =>
        cases h
        rfl
      | argument h => cases h
    | parent _ h ih =>
      cases ih
      cases h
    | binding _ h ih =>
      cases ih
      simp [Heap.own?, callerOfWriter] at h
    | closure _ _ ih => cases ih
    | element _ _ ih => cases ih
    | column _ _ _ _ ih => cases ih
    | table _ _ _ _ _ ih => cases ih
  have hfar : ¬ InReach ⟨⟨none, 2⟩, bareHost⟩ callerOfWriter (CallRoot callerOfWriter 0 [])
      (.scope 1) := fun h => by cases hreach _ h
  exact ⟨hfar, (call_is_local 2 _ _ 0 _ []).1 1 (by decide) hfar⟩

end XBase.Proofs

end
