import XBase.Proofs.Constants
import XBase.Proofs.Nodes

/-!
# Laws

A law says what a program may get hold of: the cells that it may know, the scopes that it may have
as values, and the scopes that it may run in. A heap obeys a law if whoever knows a cell may also
know what the cell refers to, so that a program that starts lawfully never finds anything else.
Edits of the heap keep this up as long as they write nothing but lawful values into known cells.
-/

noncomputable section

namespace XBase.Proofs

def Lacks (heap : Heap) : Cell → Prop
  | .array id => heap.arrays.size ≤ id
  | .scope id => heap.scopes.size ≤ id
  | .function id => heap.functions.size ≤ id
  | .cursor id => heap.cursors.size ≤ id

def belowTrace : Nat → CallTrace
  | 0 => fun _ _ _ _ _ => []
  | levels + 1 => callTrace levels

abbrev Composition.moments {rounds : Nat} {α : Type} {x : Invocation → Run α}
    (d : Composition rounds x) (levels : Nat) (c : Config) (m : Machine) : List Moment :=
  d.trace (below levels) (belowTrace levels) c m

/-- What a program may get hold of. A world of `ω` tells which scopes are under way, and a number
tells how many scopes there are. -/
structure Policy (ω : Type) where
  /-- The cells that may be read and changed. -/
  knows : Cell → Prop
  /-- Whether the tables behind the connection object may be read. -/
  tables : Prop
  /-- The drivers that may answer for the tables. -/
  driver : Driver → Prop
  home : ScopeId
  /-- The scopes that may be had as values. -/
  handle : ω → Nat → ScopeId → Prop
  /-- The scopes that may be run in and captured. -/
  place : Nat → ScopeId → Prop
  /-- The scopes that the machine may be in or may go back to. -/
  stands : ω → Nat → ScopeId → Prop
  /-- The scopes in which new names may be bound. -/
  opens : ScopeId → Prop
  /-- The world in which one more scope is under way. -/
  grow : ω → ScopeId → ω
  /-- What is kept of the heap besides. -/
  keep : ω → Heap → Prop
  node : Node → Prop
  /-- The stretches of moments that a run may pass through. -/
  stretch : Machine → List Moment → Prop
  unit : List Stmt → Prop := fun _ => True

namespace Policy

variable {ω : Type} (policy : Policy ω) (w : ω)

def value (n : Nat) : Value → Prop
  | .array id => policy.knows (.array id)
  | .function id => policy.knows (.function id)
  | .cursor id => policy.knows (.cursor id)
  | .scope id => policy.handle w n id
  | .native .connection => policy.tables
  | _ => True

def Rows (n : Nat) (rows : List Row) : Prop :=
  ∀ row ∈ rows, ∀ entry ∈ row, policy.value w n entry.2

def Code (nodes : List Node) : Prop :=
  ∀ node ∈ nodes, policy.node node

/-- A program that may run, with all its code. -/
def Admits (program : List Stmt) : Prop :=
  policy.unit program ∧ policy.Code (Stmt.allNodes program)

/-- A heap in which known cells lead to nothing but lawful values. -/
structure Obeyed (heap : Heap) : Prop where
  parent : ∀ id parent, policy.knows (.scope id) → heap.parent? id = some parent →
    policy.knows (.scope parent)
  binding : ∀ id key binding, policy.knows (.scope id) → heap.own? id key = some binding →
    policy.value w heap.scopes.size binding.value
  element : ∀ id, policy.knows (.array id) → ∀ v ∈ heap.elements id,
    policy.value w heap.scopes.size v
  column : ∀ id cursor, policy.knows (.cursor id) → heap.cursors[id]? = some cursor →
    policy.Rows w heap.scopes.size cursor.rows
  closure : ∀ id closure, policy.knows (.function id) → heap.functions[id]? = some closure →
    policy.place heap.scopes.size closure.scope ∧
      policy.Code (Stmt.functionNodes closure.declaration)

/-- A lawful edit: it changes known cells only and writes lawful values only. A name that is new in
its scope is bound only where new names may be. -/
inductive Edit (heap : Heap) : Heap → Prop
  | bind {id : ScopeId} {binding : Binding} (key : String) (hid : policy.knows (.scope id))
      (hvalue : policy.value w heap.scopes.size binding.value)
      (hopens : heap.own? id key = none → policy.opens id) : Edit heap (heap.bind id key binding)
  | erase {id : ScopeId} (key : String) (hid : policy.knows (.scope id)) :
      Edit heap (heap.modifyBindings id (·.erase key))
  | newArray {elements : Array Value} (h : ∀ v ∈ elements, policy.value w heap.scopes.size v) :
      Edit heap (heap.newArray elements).2
  | newFunction {closure : Closure} (hplace : policy.place heap.scopes.size closure.scope)
      (hcode : policy.Code (Stmt.functionNodes closure.declaration)) :
      Edit heap (heap.newFunction closure).2
  | newClass (cell : ClassCell) : Edit heap (heap.newClass cell).2
  | newCursor {rows : List Row} (h : policy.Rows w heap.scopes.size rows) :
      Edit heap (heap.newCursor rows).2
  | setElements {id : ArrayId} {elements : Array Value} (hid : policy.knows (.array id))
      (h : ∀ v ∈ elements, policy.value w heap.scopes.size v) :
      Edit heap (heap.setElements id elements)
  | setCursor {id : CursorId} {cursor : Cursor} (hid : policy.knows (.cursor id))
      (h : policy.Rows w heap.scopes.size cursor.rows) : Edit heap (heap.setCursor id cursor)

end Policy

/-- A policy that can be followed: what may be had stays so while scopes are added, and the only
new scopes that may be had as values are those of modules. -/
structure Law (ω : Type) (c : Config) extends Policy ω where
  handle_mono : ∀ {w n n' id}, n ≤ n' → handle w n id → handle w n' id
  place_mono : ∀ {n n' id}, n ≤ n' → place n id → place n' id
  stands_mono : ∀ {w n n' id}, n ≤ n' → stands w n id → stands w n' id
  knows_of_opens : ∀ {id}, opens id → knows (.scope id)
  knows_of_place : ∀ {n id}, place n id → knows (.scope id)
  opens_home : opens home
  opens_of_handle : ∀ {w n id}, handle w n id → opens id
  opens_new : ∀ {w heap parent}, keep w heap → place heap.scopes.size parent →
    opens heap.scopes.size
  knows_of_lacks : ∀ {w heap cell}, keep w heap → Lacks heap cell → knows cell
  keep_edit : ∀ {w heap heap'}, keep w heap → toPolicy.Edit w heap heap' → keep w heap'
  keep_grow : ∀ {w heap parent}, keep w heap → place heap.scopes.size parent →
    keep (grow w heap.scopes.size) (heap.newScope (some parent)).2
  keep_shrink : ∀ {w id heap}, keep (grow w id) heap → keep w heap
  handle_grow : ∀ {w n id}, handle w n id → handle (grow w n) (n + 1) id
  handle_shrink : ∀ {w new n id}, handle (grow w new) n id → handle w n id
  stands_grow : ∀ {w new n id}, stands w n id → stands (grow w new) n id
  place_new : ∀ {w heap parent}, keep w heap → place heap.scopes.size parent →
    place (heap.scopes.size + 1) heap.scopes.size
  stands_new : ∀ {w heap parent}, keep w heap → place heap.scopes.size parent →
    stands (grow w heap.scopes.size) (heap.scopes.size + 1) heap.scopes.size
  handle_module : ∀ {w m levels token name body}, keep w m.heap →
    node (.statement (.module token name body)) →
    stretch m ((execComposition (.module token name body)).moments levels c m) →
    handle w (m.heap.scopes.size + 1) m.heap.scopes.size
  registry : ∀ entry ∈ c.host.drivers, driver entry.2
  rows_of_driver : ∀ {w heap found settings calls table rows}, keep w heap → tables →
    driver found → found.rows settings calls table = .ok rows →
    toPolicy.Rows w heap.scopes.size rows
  stretch_append : ∀ {m s t}, stretch m (s ++ t) → stretch m s ∧ stretch (finish m s) t

namespace Law

variable {ω : Type} {c : Config} (law : Law ω c) {w : ω}

lemma knows_home : law.knows (.scope law.home) :=
  law.knows_of_opens law.opens_home

section Values

variable {n n' : Nat}

lemma knows_of_handle {id : ScopeId} (h : law.handle w n id) : law.knows (.scope id) :=
  law.knows_of_opens (law.opens_of_handle h)

lemma value_mono {v : Value} (h : n ≤ n') (hv : law.value w n v) : law.value w n' v := by
  cases v with
  | scope id => exact law.handle_mono h hv
  | native which => cases which <;> exact hv
  | _ => exact hv

lemma value_grow {v : Value} (hv : law.value w n v) : law.value (law.grow w n) (n + 1) v := by
  cases v with
  | scope id => exact law.handle_grow hv
  | native which => cases which <;> exact hv
  | _ => exact hv

lemma value_shrink {new : ScopeId} {v : Value} (hv : law.value (law.grow w new) n v) :
    law.value w n v := by
  cases v with
  | scope id => exact law.handle_shrink hv
  | native which => cases which <;> exact hv
  | _ => exact hv

lemma rows_mono {rows : List Row} (h : n ≤ n') (hrows : law.Rows w n rows) :
    law.Rows w n' rows :=
  fun row hrow entry hentry => law.value_mono h (hrows row hrow entry hentry)

end Values

section Edits

variable {heap heap' : Heap}

lemma size_modifyBindings (owner : ScopeId)
    (f : Std.TreeMap String Binding → Std.TreeMap String Binding) :
    (heap.modifyBindings owner f).scopes.size = heap.scopes.size := by
  simp [Heap.modifyBindings]

lemma own?_bind (owner id : ScopeId) (other key : String) (binding found : Binding)
    (h : (heap.bind owner other binding).own? id key = some found) :
    (owner = id ∧ found = binding) ∨ heap.own? id key = some found := by
  unfold Heap.bind at h
  rw [own?_modifyBindings] at h
  by_cases hid : owner = id
  · rw [if_pos hid, Option.bind_eq_some_iff] at h
    obtain ⟨scope, hscope, hfound⟩ := h
    rw [Std.TreeMap.getElem?_insert] at hfound
    split at hfound
    · exact .inl ⟨hid, (Option.some.inj hfound).symm⟩
    · refine .inr ?_
      rw [Heap.own?, hscope]
      exact hfound
  · rw [if_neg hid] at h
    exact .inr h

lemma size_edit (h : law.Edit w heap heap') : heap'.scopes.size = heap.scopes.size := by
  cases h with
  | bind _ _ _ _ => exact size_modifyBindings _ _
  | erase _ _ => exact size_modifyBindings _ _
  | _ => rfl

/-- A scope may be given other bindings, each lawful or one that it had. -/
lemma obeyed_modifyBindings (h : law.Obeyed w heap) {owner : ScopeId}
    {f : Std.TreeMap String Binding → Std.TreeMap String Binding}
    (hbinding : ∀ id key found, (heap.modifyBindings owner f).own? id key = some found →
      law.value w heap.scopes.size found.value ∨ heap.own? id key = some found) :
    law.Obeyed w (heap.modifyBindings owner f) := by
  have hsize : (heap.modifyBindings owner f).scopes.size = heap.scopes.size :=
    size_modifyBindings owner f
  refine ⟨fun id parent hknows hparent => ?_, fun id key found hknows hfound => ?_,
    hsize ▸ h.element, hsize ▸ h.column, hsize ▸ h.closure⟩
  · rw [parent?_modifyBindings] at hparent
    exact h.parent id parent hknows hparent
  · rw [hsize]
    rcases hbinding id key found hfound with hvalue | hold
    · exact hvalue
    · exact h.binding id key found hknows hold

lemma elements_newArray (elements : Elements) (id : ArrayId) :
    (heap.newArray elements).2.elements id = elements ∨
      (heap.newArray elements).2.elements id = heap.elements id := by
  by_cases hnew : id = heap.arrays.size
  · exact .inl (by simp [Heap.elements, Heap.newArray, hnew])
  · exact .inr (by simp [Heap.elements, Heap.newArray, Array.getElem?_push, hnew])

lemma elements_setElements (owner : ArrayId) (elements : Elements) (id : ArrayId) :
    (heap.setElements owner elements).elements id = elements ∨
      (heap.setElements owner elements).elements id = heap.elements id := by
  by_cases hid : owner = id
  · subst hid
    by_cases hlt : owner < heap.arrays.size
    · exact .inl (by simp [Heap.elements, Heap.setElements, hlt])
    · exact .inr (by simp [Heap.elements, Heap.setElements, hlt])
  · exact .inr (by simp [Heap.elements, Heap.setElements, hid])

lemma obeyed_edit (h : law.Obeyed w heap) (hedit : law.Edit w heap heap') :
    law.Obeyed w heap' := by
  cases hedit with
  | @bind owner binding key hid hvalue _ =>
    refine law.obeyed_modifyBindings h fun id other found hfound => ?_
    rcases own?_bind owner id key other binding found hfound with ⟨-, rfl⟩ | hold
    · exact .inl hvalue
    · exact .inr hold
  | @erase owner key hid =>
    refine law.obeyed_modifyBindings h fun id other found hfound => ?_
    rw [own?_erase] at hfound
    split at hfound
    · cases hfound
    · exact .inr hfound
  | @newArray elements hvalues =>
    refine ⟨h.parent, h.binding, fun id hknows v hv => ?_, h.column, h.closure⟩
    rcases elements_newArray elements id with helements | helements <;> rw [helements] at hv
    · exact hvalues v hv
    · exact h.element id hknows v hv
  | @newFunction closure hplace hcode =>
    refine ⟨h.parent, h.binding, h.element, h.column, fun id found hknows hfound => ?_⟩
    have hpush : (heap.functions.push closure)[id]? = some found := hfound
    rw [Array.getElem?_push] at hpush
    split at hpush
    · cases hpush
      exact ⟨hplace, hcode⟩
    · exact h.closure id found hknows hpush
  | newClass cell => exact ⟨h.parent, h.binding, h.element, h.column, h.closure⟩
  | @newCursor rows hrows =>
    refine ⟨h.parent, h.binding, h.element, fun id found hknows hfound => ?_, h.closure⟩
    have hpush : (heap.cursors.push ⟨rows, 0, false⟩)[id]? = some found := hfound
    rw [Array.getElem?_push] at hpush
    split at hpush
    · cases hpush
      exact hrows
    · exact h.column id found hknows hpush
  | @setElements owner elements hid hvalues =>
    refine ⟨h.parent, h.binding, fun id hknows v hv => ?_, h.column, h.closure⟩
    rcases elements_setElements owner elements id with helements | helements <;>
      rw [helements] at hv
    · exact hvalues v hv
    · exact h.element id hknows v hv
  | @setCursor owner cursor hid hrows =>
    refine ⟨h.parent, h.binding, h.element, fun id found hknows hfound => ?_, h.closure⟩
    have hset : (heap.cursors.setIfInBounds owner cursor)[id]? = some found := hfound
    rw [Array.getElem?_setIfInBounds] at hset
    split at hset
    · split at hset
      · cases hset
        exact hrows
      · cases hset
    · exact h.column id found hknows hset

end Edits

section Growth

variable {heap : Heap}

/-- A new scope in a known one keeps the law of the world that it is under way in. -/
lemma obeyed_grow {parent : ScopeId} (h : law.Obeyed w heap)
    (hparent : law.place heap.scopes.size parent) :
    law.Obeyed (law.grow w heap.scopes.size) (heap.newScope (some parent)).2 := by
  have hsize : (heap.newScope (some parent)).2.scopes.size = heap.scopes.size + 1 := by
    simp [Heap.newScope]
  have hold : ∀ id, id ≠ heap.scopes.size →
      (heap.newScope (some parent)).2.scopes[id]? = heap.scopes[id]? := by
    intro id hid
    simp [Heap.newScope, Array.getElem?_push, hid]
  have hnew : (heap.newScope (some parent)).2.scopes[heap.scopes.size]? = some ⟨∅, some parent⟩ := by
    simp [Heap.newScope]
  refine ⟨fun id above hknows habove => ?_, fun id key binding hknows hbinding => ?_,
    fun id hknows v hv => ?_, fun id cursor hknows hcursor => ?_, fun id closure hknows hclosure => ?_⟩
  · by_cases hid : id = heap.scopes.size
    · rw [Heap.parent?, hid, hnew, Option.filter_eq_some_iff] at habove
      cases habove.1
      exact law.knows_of_place hparent
    · rw [Heap.parent?, hold id hid] at habove
      exact h.parent id above hknows habove
  · rw [hsize]
    by_cases hid : id = heap.scopes.size
    · rw [Heap.own?, hid, hnew] at hbinding
      simp at hbinding
    · rw [Heap.own?, hold id hid] at hbinding
      exact law.value_grow (h.binding id key binding hknows hbinding)
  · rw [hsize]
    exact law.value_grow (h.element id hknows v hv)
  · rw [hsize]
    exact fun row hrow entry hentry =>
      law.value_grow (h.column id cursor hknows hcursor row hrow entry hentry)
  · rw [hsize]
    obtain ⟨hplace, hcode⟩ := h.closure id closure hknows hclosure
    exact ⟨law.place_mono (Nat.le_succ _) hplace, hcode⟩

/-- What is lawful while a scope is under way is so afterwards. -/
lemma obeyed_shrink {new : ScopeId} (h : law.Obeyed (law.grow w new) heap) :
    law.Obeyed w heap where
  parent := h.parent
  binding id key binding hknows hbinding :=
    law.value_shrink (h.binding id key binding hknows hbinding)
  element id hknows v hv := law.value_shrink (h.element id hknows v hv)
  column id cursor hknows hcursor row hrow entry hentry :=
    law.value_shrink (h.column id cursor hknows hcursor row hrow entry hentry)
  closure := h.closure

end Growth

section Names

variable {heap : Heap} {id owner : ScopeId} {key : String}

lemma knows_owner (h : law.Obeyed w heap) (hid : law.knows (.scope id))
    (howner : heap.owner? id key = some owner) : law.knows (.scope owner) := by
  induction id using chain_induction heap key with
  | own id binding hown =>
    rw [owner?_own hown] at howner
    cases howner
    exact hid
  | root id hown hroot => simp [owner?_around hown, hroot] at howner
  | parent id parent hown hparent ih =>
    rw [owner?_around hown, hparent] at howner
    exact ih (h.parent id parent hid hparent) howner

lemma value_lookup (h : law.Obeyed w heap) (hid : law.knows (.scope id)) {name : String}
    {v : Value} (hv : heap.lookup id name = .ok v) : law.value w heap.scopes.size v := by
  unfold Heap.lookup at hv
  split at hv
  · next found hfound =>
    cases hv
    rw [get_eq, Option.map_eq_some_iff] at hfound
    obtain ⟨binding, hbinding, rfl⟩ := hfound
    obtain ⟨owner, howner, hown⟩ := Option.bind_eq_some_iff.mp hbinding
    exact h.binding owner _ binding (law.knows_owner h hid howner) hown
  · cases hv

abbrev Edits (w : ω) : Heap → Heap → Prop :=
  Relation.ReflTransGen (law.Edit w)

lemma edits_define (hid : law.opens id) {v : Value}
    (hv : law.value w heap.scopes.size v) (name : String) (kind : BindingKind) :
    law.Edits w heap (heap.define id name v kind).2 := by
  unfold Heap.define
  dsimp only
  split
  · exact .refl
  · exact .single (.bind _ (law.knows_of_opens hid) hv fun _ => hid)

lemma edits_assignOwn (hid : law.knows (.scope id)) {v : Value}
    (hv : law.value w heap.scopes.size v) {name : String}
    (hopens : heap.own? id (Text.lower name) = none → law.opens id) :
    law.Edits w heap (heap.assignOwn id name v).2 := by
  unfold Heap.assignOwn
  dsimp only
  split
  · exact .refl
  · exact .single (.bind _ hid hv hopens)

/-- An assignment binds a new name in the scope that it is made in, or changes one further out. -/
lemma edits_assign (h : law.Obeyed w heap) (hid : law.opens id) {v : Value}
    (hv : law.value w heap.scopes.size v) (name : String) :
    law.Edits w heap (heap.assign id name v).2 := by
  rw [assign_eq]
  cases howner : heap.owner? id (Text.lower name) with
  | none => exact law.edits_assignOwn (law.knows_of_opens hid) hv fun _ => hid
  | some owner =>
    obtain ⟨binding, hown⟩ := own?_of_owner? howner
    refine law.edits_assignOwn (law.knows_owner h (law.knows_of_opens hid) howner) hv fun hnone => ?_
    rw [hown] at hnone
    cases hnone

lemma edits_release (h : law.Obeyed w heap) (hid : law.knows (.scope id)) (name : String) :
    law.Edits w heap (heap.release id name) := by
  rw [release_eq heap id rfl]
  cases howner : heap.owner? id (Text.lower name) with
  | none => exact .refl
  | some owner => exact .single (.erase _ (law.knows_owner h hid howner))

lemma edits_updateElements {α : Type} {array : ArrayId} (hid : law.knows (.array array))
    {f : Elements → α × Elements}
    (hf : ∀ v ∈ (f (heap.elements array)).2, law.value w heap.scopes.size v) :
    law.Edits w heap (heap.updateElements array f).2 :=
  (Relation.ReflTransGen.single (.setElements hid (by simp))).tail (.setElements hid hf)

end Names

end Law

end XBase.Proofs

end
