import XBase.Proofs.Rounds

/-!
# Scopes that nothing refers to

A scope that has just been made is no value of a name, of an array or of a column, is captured by no
function and is around no other scope. Code that runs beside it, or in it, can then at most read its
names: what it holds changes only by what the statement or the call that has made it writes there.
-/

noncomputable section

namespace XBase.Proofs

section Fence

variable {c : Config} {id : ScopeId}

/-- Code beside a scope that nothing refers to: it may know, run in and have as values all scopes
but this one, of which it may at most read the names. A world is what the scope holds. -/
def fencePolicy (id : ScopeId) : Policy Scope where
  knows cell := cell ≠ .scope id
  tables := True
  driver driver := ∀ settings calls table rows, driver.rows settings calls table = .ok rows →
    PlainRows rows
  home := 0
  handle _ _ other := other ≠ id
  place _ other := other ≠ id
  stands _ _ _ := True
  opens other := other ≠ id
  grow w _ := w
  keep w heap := heap.scopes[id]? = some w
  node _ := True
  stretch _ _ := True

variable {w : Scope} {heap : Heap} {levels : Nat} {e : Expr}

lemma fence_value {n : Nat} {v : Value} : (fencePolicy id).value w n v ↔ v ≠ .scope id := by
  cases v with
  | scope other => simp [Policy.value, fencePolicy]
  | native which => cases which <;> simp [Policy.value, fencePolicy]
  | _ => simp [Policy.value, fencePolicy]

lemma fence_made (h : (fencePolicy id).keep w heap) : id < heap.scopes.size :=
  (Array.getElem?_eq_some_iff.mp h).1

lemma scopes_modify_of_ne {owner : ScopeId}
    {f : Std.TreeMap String Binding → Std.TreeMap String Binding} (h : owner ≠ id) :
    (heap.modifyBindings owner f).scopes[id]? = heap.scopes[id]? := by
  simp [Heap.modifyBindings, Array.getElem?_modify, h]

lemma fence_edit {heap' : Heap} (h : (fencePolicy id).Edit w heap heap') :
    heap'.scopes[id]? = heap.scopes[id]? := by
  cases h with
  | @bind owner binding key hknows _ _ =>
    exact scopes_modify_of_ne fun h => hknows (congrArg Cell.scope h)
  | @erase owner key hknows => exact scopes_modify_of_ne fun h => hknows (congrArg Cell.scope h)
  | _ => rfl

lemma fence_knows {other : ScopeId} (h : other ≠ id) : (fencePolicy id).knows (.scope other) :=
  fun hcell => h (Cell.scope.inj hcell)

lemma fence_new (h : (fencePolicy id).keep w heap) : heap.scopes.size ≠ id :=
  Nat.ne_of_gt (fence_made h)

lemma fence_lacks {cell : Cell} (h : (fencePolicy id).keep w heap) (hlacks : Lacks heap cell) :
    (fencePolicy id).knows cell := by
  rintro rfl
  exact Nat.not_le_of_lt (fence_made h) hlacks

lemma fence_grow (h : (fencePolicy id).keep w heap) (parent : ScopeId) :
    (fencePolicy id).keep w (heap.newScope (some parent)).2 := by
  have hne := Nat.ne_of_lt (fence_made h)
  refine Eq.trans ?_ h
  simp [Heap.newScope, Array.getElem?_push, hne]

lemma fence_registry (hhost : DataOnly c.host) :
    ∀ entry ∈ c.host.drivers, (fencePolicy id).driver entry.2 :=
  hhost.drivers

lemma fence_rows {driver : Driver} {settings : Settings} {calls : List SessionCall} {table : String}
    {rows : List Row} (hdriver : (fencePolicy id).driver driver)
    (hrows : driver.rows settings calls table = .ok rows) {n : Nat} :
    (fencePolicy id).Rows w n rows :=
  fun row hrow entry hentry => fence_value.mpr (hdriver _ _ _ _ hrows row hrow entry hentry id)

lemma fence_stretch {m : Machine} {s t : List Moment} :
    (fencePolicy id).stretch m s ∧ (fencePolicy id).stretch (finish m s) t :=
  ⟨trivial, trivial⟩

/-- The policy is a law for every scope that is made, other than the global one. -/
def fenceLaw (hhost : DataOnly c.host) (hid : 0 ≠ id) : Law Scope c where
  toPolicy := fencePolicy id
  handle_mono _ h := h
  place_mono _ h := h
  stands_mono _ h := h
  knows_of_opens h := fence_knows h
  knows_of_place h := fence_knows h
  opens_home := hid
  opens_of_handle h := h
  opens_new hkeep _ := fence_new hkeep
  knows_of_lacks hkeep hlacks := fence_lacks hkeep hlacks
  keep_edit hkeep hedit := (fence_edit hedit).trans hkeep
  keep_grow hkeep _ := fence_grow hkeep _
  keep_shrink h := h
  handle_grow h := h
  handle_shrink h := h
  stands_grow h := h
  place_new hkeep _ := fence_new hkeep
  stands_new _ _ := trivial
  handle_module hkeep _ _ := fence_new hkeep
  registry := fence_registry hhost
  rows_of_driver _ _ hdriver hrows := fence_rows hdriver hrows
  stretch_append _ := fence_stretch

/-- A scope that refers to itself neither by its names nor as the scope around it. -/
structure Fenced (id : ScopeId) (scope : Scope) : Prop where
  names : ∀ (key : String) (binding : Binding), scope.bindings[key]? = some binding →
    binding.value ≠ .scope id
  around : ∀ parent, scope.parent = some parent → parent ≠ id

lemma lookup_cases {name : String} {v : Value} (h : heap.lookup id name = .ok v) :
    (∃ kind, heap.own? id (Text.lower name) = some ⟨kind, v⟩) ∨
      ∃ parent, heap.parent? id = some parent ∧ heap.lookup parent name = .ok v := by
  unfold Heap.lookup at h ⊢
  simp only [get_eq] at h ⊢
  cases hown : heap.own? id (Text.lower name) with
  | some binding =>
    rw [owner?_own hown, Option.bind_some, hown] at h
    cases h
    exact .inl ⟨binding.kind, rfl⟩
  | none =>
    cases hparent : heap.parent? id with
    | none =>
      rw [owner?_around hown, hparent] at h
      cases h
    | some parent =>
      rw [owner?_around hown, hparent, Option.bind_some] at h
      exact .inr ⟨parent, rfl, h⟩

lemma fence_reads (hhost : DataOnly c.host) (hid : 0 ≠ id) {scope : Scope} (h : Fenced id scope) :
    (fenceLaw hhost hid).Reads scope id := by
  intro n name token m hs hn hm
  have hscope : m.heap.scopes[id]? = some scope := hm.keep
  rw [lookup_eq]
  refine ⟨hm, rfl, Nat.le_refl _, ?_, ?_⟩
  · intro v hv
    cases hlookup : m.heap.lookup id name with
    | error why =>
      rw [hlookup] at hv
      cases hv
    | ok found =>
      rw [hlookup] at hv
      cases hv
      rcases lookup_cases hlookup with ⟨kind, hown⟩ | ⟨parent, hparent, hseen⟩
      · rw [Heap.own?, hscope] at hown
        exact fence_value.mpr (h.names _ _ hown)
      · rw [Heap.parent?, hscope, Option.filter_eq_some_iff] at hparent
        have hne := h.around parent hparent.1
        exact (fenceLaw hhost hid).value_lookup hm.heap (fun hcell => hne (Cell.scope.inj hcell))
          hseen
  · intro error herror
    cases hlookup : m.heap.lookup id name with
    | error why =>
      rw [hlookup] at herror
      cases herror
      rfl
    | ok found =>
      rw [hlookup] at herror
      cases herror

/-- A machine that can run code beside a scope. -/
def Beside (hhost : DataOnly c.host) (hid : 0 ≠ id) (m : Machine) : Prop :=
  ∃ scope, Fenced id scope ∧ (fenceLaw hhost hid).Governs scope m

variable {hhost : DataOnly c.host} {hid : 0 ≠ id} {m m' : Machine} {v : Value}

lemma Beside.made (h : Beside hhost hid m) : id < m.heap.scopes.size := by
  obtain ⟨scope, -, hm⟩ := h
  exact fence_made hm.keep

/-- Code that runs lawfully beside the scope leaves the scope as it is and does not give it as a
value. -/
lemma Beside.run {x : Invocation → Run Value} (d : Composition Signal.maxRounds x)
    (hd : ∀ scope, Fenced id scope → (fenceLaw hhost hid).Conducts levels m.scope scope scope 0 d
      ((fenceLaw hhost hid).value scope)) (h : Beside hhost hid m)
    (hrun : x (below levels) c m = (.ok v, m')) :
    Beside hhost hid m' ∧ v ≠ .scope id ∧ m'.heap.scopes[id]? = m.heap.scopes[id]? := by
  obtain ⟨scope, hscope, hm⟩ := h
  have hout := hd scope hscope m rfl (Nat.zero_le _) hm (fun _ _ => trivial) trivial
  have hgoverns := hout.governs
  have hresult := hout.result v (congrArg Prod.fst hrun)
  rw [hrun] at hgoverns
  exact ⟨⟨scope, hscope, hgoverns⟩, fence_value.mp hresult, hgoverns.keep.trans hm.keep.symm⟩

/-- An expression may be evaluated in the scope. -/
lemma Beside.eval (h : Beside hhost hid m)
    (hrun : Run.within id (e.eval (below levels)) c m = (.ok v, m')) :
    Beside hhost hid m' ∧ v ≠ .scope id ∧ m'.heap.scopes[id]? = m.heap.scopes[id]? := by
  let law := fenceLaw hhost hid
  refine Beside.run (.within id (evalComposition e)) (fun scope hscope => ?_) h hrun
  apply law.conducts_within trivial
  exact law.reads_eval (law.calls levels) (fence_reads hhost hid hscope) e fun _ _ => trivial

/-- An expression may be evaluated in another scope, with cells in hand or without. -/
lemma Beside.eval_outside (h : Beside hhost hid m) (hscope : m.scope ≠ id)
    (hrun : e.eval (below levels) c m = (.ok v, m')) :
    Beside hhost hid m' ∧ m'.scope = m.scope ∧ m'.heap.scopes[id]? = m.heap.scopes[id]? := by
  let law := fenceLaw hhost hid
  let d : Composition Signal.maxRounds _ := evalComposition e
  have hkept := run_keeps levels c d m
  rw [hrun] at hkept
  obtain ⟨hbeside, -, hsame⟩ := Beside.run d (fun scope _ =>
    law.conducts_eval (law.calls levels) hscope e fun _ _ => trivial) h hrun
  exact ⟨hbeside, hkept.scope, hsame⟩

lemma Beside.eval_holding (h : Beside hhost hid m) (hscope : m.scope ≠ id) {cells : List Cell}
    (hrun : Run.holdingCells cells (e.eval (below levels)) c m = (.ok v, m')) :
    Beside hhost hid m' ∧ m'.scope = m.scope ∧ m'.heap.scopes[id]? = m.heap.scopes[id]? := by
  let law := fenceLaw hhost hid
  let d : Composition Signal.maxRounds _ := .holding cells (evalComposition e)
  have hkept := run_keeps levels c d m
  rw [hrun] at hkept
  obtain ⟨hbeside, -, hsame⟩ := Beside.run d (fun scope _ => law.conducts_holding
    (law.conducts_eval (law.calls levels) hscope e fun _ _ => trivial)) h hrun
  exact ⟨hbeside, hkept.scope, hsame⟩

lemma Beside.bind (h : Beside hhost hid m) (key : String) {binding : Binding}
    (hbinding : binding.value ≠ .scope id) :
    Beside hhost hid { m with heap := m.heap.bind id key binding } := by
  obtain ⟨scope, hscope, hm⟩ := h
  have hkeep : m.heap.scopes[id]? = some scope := hm.keep
  refine ⟨{ scope with bindings := scope.bindings.insert key binding }, ⟨?_, hscope.around⟩, ?_⟩
  · intro other found hfound
    rw [Std.TreeMap.getElem?_insert] at hfound
    split at hfound
    · cases hfound
      exact hbinding
    · exact hscope.names other found hfound
  · refine ⟨⟨?_, ?_, ?_, ?_, ?_⟩, ?_, hm.home, hm.session⟩
    · intro other parent hother hparent
      have hsame : (m.heap.bind id key binding).parent? other = m.heap.parent? other :=
        parent?_modifyBindings m.heap other id _
      exact hm.heap.parent other parent hother (hsame.symm.trans hparent)
    · intro other name found hother hfound
      rw [own?_bind_of_ne _ _ _ _ _ fun h => absurd (congrArg Cell.scope h).symm hother] at hfound
      exact fence_value.mpr (fence_value.mp (hm.heap.binding other name found hother hfound))
    · intro array harray v hv
      exact fence_value.mpr (fence_value.mp (hm.heap.element array harray v hv))
    · intro cursor found hcursor hfound row hrow entry hentry
      exact fence_value.mpr
        (fence_value.mp (hm.heap.column cursor found hcursor hfound row hrow entry hentry))
    · intro function closure hfunction hclosure
      exact hm.heap.closure function closure hfunction hclosure
    · change (m.heap.bind id key binding).scopes[id]? = _
      simp [Heap.bind, Heap.modifyBindings, Array.getElem?_modify, hkeep]

/-- A scope that is made at a moment of a session is one that nothing refers to. -/
lemma beside_new {library : Library} {directory : String} {sources : List String}
    {w : List ScopeId} (hm : (sessionLaw hhost library directory sources).Governs w m)
    (hid : 0 ≠ m.heap.scopes.size) {around : ScopeId} (haround : around < m.heap.scopes.size) :
    Beside hhost hid { m with heap := (m.heap.newScope (some around)).2 } := by
  have hvalue : ∀ v, (sessionLaw hhost library directory sources).value w m.heap.scopes.size v →
      v ≠ .scope m.heap.scopes.size := by
    rintro v hv rfl
    exact Nat.lt_irrefl _ hv.1
  have hnew : (m.heap.newScope (some around)).2.scopes[m.heap.scopes.size]? =
      some ⟨∅, some around⟩ := by simp [Heap.newScope]
  have hold : ∀ other, other ≠ m.heap.scopes.size →
      (m.heap.newScope (some around)).2.scopes[other]? = m.heap.scopes[other]? := by
    intro other hother
    simp [Heap.newScope, Array.getElem?_push, hother]
  refine ⟨⟨∅, some around⟩, ⟨?_, ?_⟩, ⟨?_, ?_, ?_, ?_, ?_⟩, hnew, hm.home, hm.session⟩
  · intro key binding hbinding
    simp at hbinding
  · rintro parent ⟨⟩
    exact Nat.ne_of_lt haround
  · intro other parent hother hparent hcell
    have hne : other ≠ m.heap.scopes.size := fun h => hother (congrArg Cell.scope h)
    have hlt := Heap.parent?_lt hparent
    rw [Heap.parent?, hold other hne] at hparent
    have hsize : other < m.heap.scopes.size := by
      by_contra hlarge
      rw [Array.getElem?_eq_none (Nat.le_of_not_lt hlarge)] at hparent
      cases hparent
    cases hcell
    exact Nat.lt_asymm hlt hsize
  · intro other key binding hother hbinding
    have hne : other ≠ m.heap.scopes.size := fun h => hother (congrArg Cell.scope h)
    rw [Heap.own?, hold other hne] at hbinding
    exact fence_value.mpr (hvalue _ (hm.heap.binding other key binding trivial hbinding))
  · intro array _ v hv
    exact fence_value.mpr (hvalue _ (hm.heap.element array trivial v hv))
  · intro cursor found _ hfound row hrow entry hentry
    exact fence_value.mpr
      (hvalue _ (hm.heap.column cursor found trivial hfound row hrow entry hentry))
  · intro function closure _ hclosure
    have hplace := (hm.heap.closure function closure trivial hclosure).1
    exact ⟨Nat.ne_of_lt hplace.1, fun _ _ => trivial⟩

end Fence

end XBase.Proofs

end
