import XBase.Proofs.Obedience

/-!
# The graph of scopes

A scope is younger than the scope around it and stays in it for good, and everything that a program
can run in leads to the global scope. A scope that is under way is nothing that a program can get
hold of as a value: the only scopes that are values are `empty`, `connection` and those that modules
have left behind.
-/

noncomputable section

namespace XBase.Proofs

/-- The scope that a scope was made in. -/
def outer? (heap : Heap) (id : ScopeId) : Option ScopeId :=
  (heap.scopes[id]?).bind Scope.parent

variable {m : Machine} {w : List ScopeId} {n : Nat} {v : Value} {heap : Heap} {host : Host}

section Parents

variable {heap heap' : Heap} {id : ScopeId}

lemma outer?_modifyBindings (owner : ScopeId)
    (f : Std.TreeMap String Binding → Std.TreeMap String Binding) :
    outer? (heap.modifyBindings owner f) id = outer? heap id := by
  unfold outer? Heap.modifyBindings
  rw [Array.getElem?_modify]
  split
  · cases heap.scopes[id]? <;> rfl
  · rfl

lemma outer?_newScope (parent : Option ScopeId) (hid : id < heap.scopes.size) :
    outer? (heap.newScope parent).2 id = outer? heap id := by
  simp [outer?, Heap.newScope, Array.getElem?_push, Nat.ne_of_lt hid]

lemma outer?_new (parent : Option ScopeId) :
    outer? (heap.newScope parent).2 heap.scopes.size = parent := by
  simp [outer?, Heap.newScope]

/-- Scopes stay, each where it is. -/
structure Grows (heap heap' : Heap) : Prop where
  size : heap.scopes.size ≤ heap'.scopes.size
  outer : ∀ id, id < heap.scopes.size → outer? heap' id = outer? heap id

lemma grows_refl : Grows heap heap :=
  ⟨Nat.le_refl _, fun _ _ => rfl⟩

lemma grows_trans {heap'' : Heap} (h : Grows heap heap') (h' : Grows heap' heap'') :
    Grows heap heap'' :=
  ⟨Nat.le_trans h.size h'.size, fun id hid =>
    (h'.outer id (Nat.lt_of_lt_of_le hid h.size)).trans (h.outer id hid)⟩

lemma grows_modifyBindings (owner : ScopeId)
    (f : Std.TreeMap String Binding → Std.TreeMap String Binding) :
    Grows heap (heap.modifyBindings owner f) :=
  ⟨Nat.le_of_eq (Law.size_modifyBindings owner f).symm, fun _ _ => outer?_modifyBindings owner f⟩

lemma grows_edits (h : Edits heap heap') : Grows heap heap' := by
  induction h with
  | refl => exact grows_refl
  | tail _ hedit ih =>
    refine grows_trans ih ?_
    cases hedit with
    | bind binding _ => exact grows_modifyBindings _ _
    | newScope parent => exact ⟨by simp [Heap.newScope], fun _ hid => outer?_newScope parent hid⟩
    | _ => exact ⟨Nat.le_refl _, fun _ _ => rfl⟩

lemma grows_releaseAll (id : ScopeId) (targets : List Token) :
    Grows heap (releaseAll heap id targets) := by
  induction targets generalizing heap with
  | nil => exact grows_refl
  | cons target targets ih =>
    have hfirst : Grows heap (heap.release id target.lexeme) := by
      rw [release_eq heap id rfl]
      cases heap.owner? id (Text.lower target.lexeme) with
      | none => exact grows_refl
      | some owner =>
        rw [Option.map_some, Option.getD_some]
        exact grows_modifyBindings owner _
    exact grows_trans hfirst ih

lemma grows_transition {limits : Limits} {m' : Machine} {event : Event}
    (h : Transition limits m event m') : Grows m.heap m'.heap := by
  cases h with
  | acted h =>
    cases h with
    | mk _ _ _ _ _ hedits => exact grows_edits hedits
  | released targets => exact grows_releaseAll _ _
  | _ => exact grows_refl

lemma grows_path {limits : Limits} {moments : List Moment} (h : Path limits m moments) :
    Grows m.heap (finish m moments).heap :=
  path_invariant (fun _ _ _ hstep hgrows => grows_trans hgrows (grows_transition hstep)) m moments h
    grows_refl

end Parents

/-- A heap in which every scope that a program has made leads to the global scope. The first scopes
are the global one, that of `empty` and that of `connection`; none of them is in another. -/
structure Rooted (heap : Heap) : Prop where
  size : 3 ≤ heap.scopes.size
  root : ∀ id, id < 3 → outer? heap id = none
  inner : ∀ id, 3 ≤ id → id < heap.scopes.size →
    ∃ parent, outer? heap id = some parent ∧ parent < id ∧ (parent = 0 ∨ 3 ≤ parent)

section Roots

variable {heap heap' : Heap}

lemma rooted_grows (h : Rooted heap) (hgrows : Grows heap heap')
    (hsize : heap'.scopes.size = heap.scopes.size) : Rooted heap' := by
  refine ⟨hsize ▸ h.size, fun id hid => ?_, fun id hid hlt => ?_⟩
  · rw [hgrows.outer id (Nat.lt_of_lt_of_le hid h.size)]
    exact h.root id hid
  · rw [hsize] at hlt
    rw [hgrows.outer id hlt]
    exact h.inner id hid hlt

lemma rooted_newScope (h : Rooted heap) {parent : ScopeId} (hlt : parent < heap.scopes.size)
    (hparent : parent = 0 ∨ 3 ≤ parent) : Rooted (heap.newScope (some parent)).2 := by
  have hsize : (heap.newScope (some parent)).2.scopes.size = heap.scopes.size + 1 := by
    simp [Heap.newScope]
  refine ⟨by rw [hsize]; exact Nat.le_succ_of_le h.size, fun id hid => ?_, fun id hid hid' => ?_⟩
  · rw [outer?_newScope _ (Nat.lt_of_lt_of_le hid h.size)]
    exact h.root id hid
  · by_cases hnew : id = heap.scopes.size
    · rw [hnew, outer?_new]
      exact ⟨parent, rfl, hlt, hparent⟩
    · have hold : id < heap.scopes.size := by omega
      rw [outer?_newScope _ hold]
      exact h.inner id hid hold

lemma rooted_lt (h : Rooted heap) {id parent : ScopeId} (hparent : outer? heap id = some parent) :
    parent < id := by
  have hid : id < heap.scopes.size := by
    refine Nat.lt_of_not_le fun hge => ?_
    rw [outer?, Array.getElem?_eq_none hge] at hparent
    cases hparent
  by_cases hfirst : id < 3
  · rw [h.root id hfirst] at hparent
    cases hparent
  · obtain ⟨found, hfound, hlt, -⟩ := h.inner id (Nat.le_of_not_lt hfirst) hid
    rw [hfound] at hparent
    cases hparent
    exact hlt

/-- The chain of a scope to run in ends in the global scope. -/
lemma rooted_chain (h : Rooted heap) {id : ScopeId} (hlt : id < heap.scopes.size)
    (hid : id = 0 ∨ 3 ≤ id) :
    Relation.ReflTransGen (fun inner outer => outer? heap inner = some outer) id 0 := by
  induction id using Nat.strongRecOn with
  | ind id ih =>
    rcases hid with rfl | hid
    · exact .refl
    · obtain ⟨parent, hparent, hless, hplace⟩ := h.inner id hid hlt
      exact .head hparent (ih parent hless (Nat.lt_trans hless hlt) hplace)

end Roots

/-- Rows without a scope in them. -/
def PlainRows (rows : List Row) : Prop :=
  ∀ row ∈ rows, ∀ entry ∈ row, ∀ id, entry.2 ≠ .scope id

/-- A host that brings nothing but data: its cells are arrays and cursors, and neither they nor the
tables of its drivers hold a scope. -/
structure DataOnly (host : Host) : Prop where
  scopes : host.heap.scopes = #[]
  functions : host.heap.functions = #[]
  arrays : ∀ array v, v ∈ host.heap.elements array → ∀ id, v ≠ .scope id
  cursors : ∀ cursor ∈ host.heap.cursors, PlainRows cursor.rows
  drivers : ∀ entry ∈ host.drivers, ∀ settings calls table rows,
    entry.2.rows settings calls table = .ok rows → PlainRows rows

lemma dataOnly_bareHost : DataOnly bareHost := by
  refine ⟨rfl, rfl, fun array v hv => ?_, fun cursor hcursor => ?_, fun entry hentry => ?_⟩
  · simp [bareHost, Heap.empty, Heap.elements] at hv
  · simp [bareHost, Heap.empty] at hcursor
  · simp [bareHost] at hentry

section Law

variable (made : ScopeId → Prop) (node : Node → Prop)
  (stretch : Machine → List Moment → Prop) (base : Nat)

/-- A program may run in the global scope and in scopes that it has made, and it may have `empty`,
`connection` and the scopes of some modules as values, but none that is under way. A world is the
list of the scopes under way. -/
def graphPolicy : Policy (List ScopeId) where
  knows _ := True
  tables := True
  driver driver := ∀ settings calls table rows, driver.rows settings calls table = .ok rows →
    PlainRows rows
  home := 0
  handle w n id := id < n ∧ id ∉ w ∧ (id = 1 ∨ id = 2 ∨ made id)
  place n id := id < n ∧ (id = 0 ∨ 3 ≤ id)
  stands w n id := (id < n ∧ (id = 0 ∨ 3 ≤ id)) ∧ (id = 0 ∨ id ∈ w)
  opens _ := True
  grow w id := id :: w
  keep w heap := Rooted heap ∧ base ≤ heap.scopes.size ∧ ∀ id ∈ w, id < heap.scopes.size
  node := node
  stretch := stretch

variable {made node stretch base}

lemma plain_value (h : ∀ id, v ≠ .scope id) : (graphPolicy made node stretch base).value w n v := by
  cases v with
  | scope id => exact (h id rfl).elim
  | native which => cases which <;> trivial
  | _ => trivial

lemma grows_lawful {heap' : Heap} (h : (graphPolicy made node stretch base).Edit w heap heap') :
    Grows heap heap' := by
  cases h with
  | bind key _ _ _ => exact grows_modifyBindings _ _
  | erase key _ => exact grows_modifyBindings _ _
  | _ => exact ⟨Nat.le_refl _, fun _ _ => rfl⟩

lemma size_lawful {heap' : Heap} (h : (graphPolicy made node stretch base).Edit w heap heap') :
    heap'.scopes.size = heap.scopes.size := by
  cases h with
  | bind key _ _ _ => exact Law.size_modifyBindings _ _
  | erase key _ => exact Law.size_modifyBindings _ _
  | _ => rfl

variable {c : Config}

variable (made node stretch base) in
/-- The policy is a law if modules make what it takes for scopes of modules. -/
def graphLaw (hhost : DataOnly c.host)
    (happend : ∀ {m s t}, stretch m (s ++ t) → stretch m s ∧ stretch (finish m s) t)
    (hmodule : ∀ {m levels token name body}, base ≤ m.heap.scopes.size →
      node (.statement (.module token name body)) →
      stretch m ((execComposition (.module token name body)).moments levels c m) →
      made m.heap.scopes.size) : Law (List ScopeId) c where
  toPolicy := graphPolicy made node stretch base
  handle_mono hn h := ⟨Nat.lt_of_lt_of_le h.1 hn, h.2⟩
  place_mono hn h := ⟨Nat.lt_of_lt_of_le h.1 hn, h.2⟩
  stands_mono hn h := ⟨⟨Nat.lt_of_lt_of_le h.1.1 hn, h.1.2⟩, h.2⟩
  knows_of_opens _ := trivial
  knows_of_place _ := trivial
  opens_home := trivial
  opens_of_handle _ := trivial
  opens_new _ _ := trivial
  knows_of_lacks _ _ := trivial
  keep_edit h hedit := by
    have hsize := size_lawful hedit
    refine ⟨rooted_grows h.1 (grows_lawful hedit) hsize, ?_, ?_⟩
    · rw [hsize]
      exact h.2.1
    · rw [hsize]
      exact h.2.2
  keep_grow {w heap parent} h hparent := by
    have hsize : (heap.newScope (some parent)).2.scopes.size = heap.scopes.size + 1 := by
      simp [Heap.newScope]
    refine ⟨rooted_newScope h.1 hparent.1 hparent.2, ?_, ?_⟩
    · rw [hsize]
      exact Nat.le_succ_of_le h.2.1
    · rw [hsize]
      intro id hid
      rcases List.mem_cons.mp hid with rfl | hid
      · exact Nat.lt_succ_self _
      · exact Nat.lt_succ_of_lt (h.2.2 id hid)
  keep_shrink h := ⟨h.1, h.2.1, fun id hid => h.2.2 id (List.mem_cons_of_mem _ hid)⟩
  handle_grow h := by
    refine ⟨Nat.lt_succ_of_lt h.1, fun hid => ?_, h.2.2⟩
    rcases List.mem_cons.mp hid with rfl | hid
    · exact Nat.lt_irrefl _ h.1
    · exact h.2.1 hid
  handle_shrink h := ⟨h.1, fun hid => h.2.1 (List.mem_cons_of_mem _ hid), h.2.2⟩
  stands_grow h := ⟨h.1, h.2.imp id (List.mem_cons_of_mem _)⟩
  place_new h _ := ⟨Nat.lt_succ_self _, .inr h.1.size⟩
  stands_new h _ := ⟨⟨Nat.lt_succ_self _, .inr h.1.size⟩, .inr List.mem_cons_self⟩
  handle_module h hnode hstretch :=
    ⟨Nat.lt_succ_self _, fun hid => Nat.lt_irrefl _ (h.2.2 _ hid),
      .inr (.inr (hmodule h.2.1 hnode hstretch))⟩
  registry entry hentry := hhost.drivers entry hentry
  rows_of_driver _ _ hdriver hrows row hrow entry hentry :=
    plain_value (hdriver _ _ _ _ hrows row hrow entry hentry)
  stretch_append := happend

end Law

section Start

/-- The heap of a machine that starts, before anything is bound in its scopes. -/
def blankHeap (host : Host) : Heap :=
  { host.heap with
    scopes := #[⟨∅, none⟩, ⟨∅, none⟩, ⟨∅, none⟩]
    arrays := host.heap.arrays.push #[] }

/-- What is bound in the global scope at the start. -/
def globalSeeds (host : Host) : List (String × Value) :=
  Machine.constants ++
    [("empty", .scope 1), ("array", .array host.heap.arrays.size), ("connection", .scope 2)]

lemma start_heap (h : host.heap.scopes = #[]) :
    (Machine.start host).heap =
      (globalSeeds host).foldl (·.seedConstant 0 ·)
        ((Connection.methods.map fun name => (name, Value.native .connection)).foldl
          (·.seedConstant 2 ·)
          (Connection.properties.foldl (fun heap name => heap.seed 2 name (.text "") .variable)
            (blankHeap host))) := by
  obtain ⟨drivers, ⟨scopes, arrays, functions, classes, cursors⟩, clock, outputFailure⟩ := host
  cases h
  rfl

lemma size_foldl {α : Type} {step : Heap → α → Heap}
    (hstep : ∀ heap entry, (step heap entry).scopes.size = heap.scopes.size) (entries : List α)
    (heap : Heap) : (entries.foldl step heap).scopes.size = heap.scopes.size := by
  induction entries generalizing heap with
  | nil => rfl
  | cons entry entries ih => exact (ih _).trans (hstep heap entry)

section Seeds

variable {heap : Heap} {id : ScopeId} {name key : String} (v : Value) (kind : BindingKind)

lemma size_seed : (heap.seed id name v kind).scopes.size = heap.scopes.size :=
  Law.size_modifyBindings id _

lemma own?_seed (h : id < heap.scopes.size) (hname : Text.lower name = key) :
    (heap.seed id name v kind).own? id key = some ⟨kind, v⟩ := by
  unfold Heap.seed Heap.bind
  rw [own?_modifyBindings, if_pos rfl, Array.getElem?_eq_getElem h]
  simp [hname]

lemma own?_seed_of_ne (hname : Text.lower name ≠ key) :
    (heap.seed id name v kind).own? id key = heap.own? id key :=
  own?_bind_of_ne heap id id key _ fun _ => hname

end Seeds

lemma size_start (h : host.heap.scopes = #[]) : (Machine.start host).heap.scopes.size = 3 := by
  rw [start_heap h]
  exact (size_foldl (fun _ _ => size_seed _ _) _ _).trans
    ((size_foldl (fun _ _ => size_seed _ _) _ _).trans (size_foldl (fun _ _ => size_seed _ _) _ _))

variable {ω : Type} {c : Config} (law : Law ω c) {w : ω}

lemma edits_seeds {α : Type} {step : Heap → α → Heap} {entries : List α}
    (hstep : ∀ heap, heap.scopes.size = n → ∀ entry ∈ entries, law.Edits w heap (step heap entry))
    (hheap : heap.scopes.size = n) : law.Edits w heap (entries.foldl step heap) := by
  induction entries generalizing heap with
  | nil => exact .refl
  | cons entry entries ih =>
    have hfirst := hstep heap hheap entry List.mem_cons_self
    refine hfirst.trans (ih (fun heap hheap other hother => ?_) ?_)
    · exact hstep heap hheap other (List.mem_cons_of_mem _ hother)
    · rw [law.size_edits hfirst]
      exact hheap

end Start

section Sessions

variable {made : ScopeId → Prop} {node : Node → Prop} {stretch : Machine → List Moment → Prop}
  {c : Config}

lemma obeyed_blank (hhost : DataOnly c.host) :
    (graphPolicy made node stretch 3).Obeyed [] (blankHeap c.host) where
  parent _ _ _ _ := trivial
  binding id key binding _ hbinding := by
    obtain ⟨scope, hscope, hfound⟩ := Option.bind_eq_some_iff.mp hbinding
    have hmember := Array.mem_of_getElem? hscope
    simp only [blankHeap, List.mem_toArray, List.mem_cons, List.not_mem_nil, or_false,
      or_self] at hmember
    rw [hmember] at hfound
    simp at hfound
  element id _ v hv := by
    refine plain_value (hhost.arrays id v ?_)
    by_cases hid : id = c.host.heap.arrays.size
    · simp [Heap.elements, blankHeap, hid] at hv
    · simpa [Heap.elements, blankHeap, Array.getElem?_push, hid] using hv
  column id cursor _ hcursor row hrow entry hentry :=
    plain_value (hhost.cursors cursor (Array.mem_of_getElem? hcursor) row hrow entry hentry)
  closure id closure _ hclosure := by
    have hfunctions : (blankHeap c.host).functions = #[] := hhost.functions
    rw [hfunctions] at hclosure
    simp at hclosure

lemma rooted_blank (host : Host) : Rooted (blankHeap host) := by
  refine ⟨Nat.le_refl 3, fun id hid => ?_, fun id hid hlt => ?_⟩
  · match id, hid with
    | 0, _ => rfl
    | 1, _ => rfl
    | 2, _ => rfl
  · exact absurd hlt (Nat.not_lt_of_le hid)

lemma value_globalSeeds (host : Host) :
    ∀ entry ∈ globalSeeds host, (graphPolicy made node stretch 3).value [] 3 entry.2 := by
  intro entry hentry
  rcases List.mem_append.mp hentry with hentry | hentry
  · refine plain_value fun id => ?_
    simp only [Machine.constants, Native.functions, List.map_cons, List.map_nil, List.cons_append,
      List.nil_append, List.mem_cons, List.not_mem_nil, or_false] at hentry
    rcases hentry with rfl | rfl | rfl | rfl | rfl | rfl | rfl | rfl <;> exact Value.noConfusion
  · simp only [List.mem_cons, List.not_mem_nil, or_false] at hentry
    rcases hentry with rfl | rfl | rfl
    · exact ⟨by decide, by simp, .inl rfl⟩
    · trivial
    · exact ⟨by decide, by simp, .inr (.inl rfl)⟩

lemma graph_ready (hhost : DataOnly c.host)
    (happend : ∀ {m s t}, stretch m (s ++ t) → stretch m s ∧ stretch (finish m s) t)
    (hmodule : ∀ {m levels token name body}, 3 ≤ m.heap.scopes.size →
      node (.statement (.module token name body)) →
      stretch m ((execComposition (.module token name body)).moments levels c m) →
      made m.heap.scopes.size) :
    (graphLaw made node stretch 3 hhost happend hmodule).Ready [] (Machine.start c.host) := by
  let law := graphLaw made node stretch 3 hhost happend hmodule
  have hblank : law.Governs [] { Machine.start c.host with heap := blankHeap c.host } := by
    refine ⟨obeyed_blank hhost, ⟨rooted_blank c.host, Nat.le_refl 3, fun _ h => by cases h⟩, ?_, ?_⟩
    · exact congrArg Array.size hhost.scopes
    · intro held hheld
      cases hheld
  have hedits : law.Edits [] (blankHeap c.host) (Machine.start c.host).heap := by
    rw [start_heap hhost.scopes]
    let properties : Heap := Connection.properties.foldl
      (fun heap name => heap.seed 2 name (.text "") .variable) (blankHeap c.host)
    let methods : Heap := (Connection.methods.map fun name => (name, Value.native .connection)).foldl
      (·.seedConstant 2 ·) properties
    have hproperties : law.Edits [] (blankHeap c.host) properties := by
      refine edits_seeds law (fun _ _ _ _ => .single (.bind _ trivial ?_ fun _ => trivial)) rfl
      exact plain_value fun _ => Value.noConfusion
    have hmethods : law.Edits [] properties methods := by
      refine edits_seeds law
        (fun heap _ entry hentry => .single (.bind _ trivial ?_ fun _ => trivial))
        (law.size_edits hproperties)
      obtain ⟨name, -, rfl⟩ := List.mem_map.mp hentry
      exact plain_value fun _ => Value.noConfusion
    refine hproperties.trans (hmethods.trans (edits_seeds law (fun heap hheap entry hentry => ?_)
      ((law.size_edits hmethods).trans (law.size_edits hproperties))))
    have hvalue : law.value [] 3 entry.2 := value_globalSeeds c.host entry hentry
    have hsize : heap.scopes.size = 3 := hheap
    exact .single (.bind _ trivial (hsize ▸ hvalue) fun _ => trivial)
  have hplace : law.place (Machine.start c.host).heap.scopes.size law.home := by
    rw [size_start hhost.scopes]
    exact ⟨Nat.zero_lt_succ 2, .inl rfl⟩
  exact ⟨law.governs_edits hblank hedits, hplace, ⟨hplace, .inl rfl⟩, rfl, rfl⟩

/-- What may be had if fewer scopes count as those of modules may be had if more do. -/
lemma value_made {made' : ScopeId → Prop} {node' : Node → Prop}
    {stretch' : Machine → List Moment → Prop} {base base' : Nat} (h : ∀ id, made id → made' id)
    (hv : (graphPolicy made node stretch base).value w n v) :
    (graphPolicy made' node' stretch' base').value w n v := by
  cases v with
  | scope id => exact ⟨hv.1, hv.2.1, hv.2.2.imp_right (Or.imp_right (h id))⟩
  | native which => cases which <;> trivial
  | _ => trivial

end Sessions

/-- A value that is stored: under a name, in an array or in the rows of a cursor. -/
inductive Stored (heap : Heap) : Value → Prop
  | bound {id : ScopeId} {key : String} {binding : Binding}
      (h : heap.own? id key = some binding) : Stored heap binding.value
  | element {id : ArrayId} {v : Value} (h : v ∈ heap.elements id) : Stored heap v
  | column {id : CursorId} {cursor : Cursor} {row : Row} {entry : String × Value}
      (h : heap.cursors[id]? = some cursor) (hrow : row ∈ cursor.rows) (hentry : entry ∈ row) :
      Stored heap entry.2

/-- A value that a program can get hold of: it is stored, or an expression gives it. -/
inductive Obtainable (c : Config) (m : Machine) (v : Value) : Prop
  | stored (h : Stored m.heap v)
  | evaluated {levels : Nat} {expression : Expr} {m' : Machine}
      (h : expression.eval (below levels) c m = (.ok v, m'))

/-- The scopes that the constants `empty` and `connection` stand for. -/
def IsPrototype (host : Host) (id : ScopeId) : Prop :=
  ∃ name ∈ ["empty", "connection"],
    ((Machine.start host).heap.own? (Machine.start host).globals name).map Binding.value =
      some (.scope id)

lemma isPrototype_start (h : host.heap.scopes = #[]) {id : ScopeId} (hid : id = 1 ∨ id = 2) :
    IsPrototype host id := by
  have hglobals : (Machine.start host).globals = 0 := congrArg Array.size h
  obtain ⟨heap, hheap⟩ : ∃ heap : Heap, (Machine.start host).heap =
      ((heap.seed 0 "empty" (.scope 1) .constant).seed 0 "array"
        (.array host.heap.arrays.size) .constant).seed 0 "connection" (.scope 2) .constant := by
    rw [start_heap h, globalSeeds, List.foldl_append]
    exact ⟨_, rfl⟩
  have hsize := size_start h
  rw [hheap, size_seed, size_seed, size_seed] at hsize
  have hzero : 0 < heap.scopes.size := by omega
  unfold IsPrototype
  rw [hglobals, hheap]
  rcases hid with rfl | rfl
  · refine ⟨"empty", List.mem_cons_self, ?_⟩
    rw [own?_seed_of_ne _ _ (by decide +kernel), own?_seed_of_ne _ _ (by decide +kernel),
      own?_seed _ _ hzero (by decide +kernel)]
    rfl
  · refine ⟨"connection", List.mem_cons_of_mem _ List.mem_cons_self, ?_⟩
    rw [own?_seed _ _ (by rwa [size_seed, size_seed]) (by decide +kernel)]
    rfl

/-- A scope that is made by a module statement of the source texts that a session runs. -/
def FromModule (session : Session) (sources : List String) (id : ScopeId) : Prop :=
  ∃ m levels token name body,
    InCode session.library sources (.statement (.module token name body)) ∧
    Within (current session) (history session sources) m
      ((execComposition (.module token name body)).moments levels session.config m) ∧
    m.heap.scopes.size = id

section Moments

variable {c : Config} {library : Library} {directory : String} {sources : List String}

/-- The law of the scopes of a session, under which it is known of every scope that is a value which
module has made it. -/
def sessionLaw (hhost : DataOnly c.host) (library : Library) (directory : String)
    (sources : List String) : Law (List ScopeId) c :=
  graphLaw (fun id => 3 ≤ id ∧ FromModule (Session.new c library directory) sources id)
    (InCode library sources)
    (Within (Machine.start c.host) (history (Session.new c library directory) sources)) 3 hhost
    within_append fun hsize hnode hstretch => ⟨hsize, _, _, _, _, _, hnode, hstretch, rfl⟩

/-- At every moment of a session its scopes are under the law. -/
lemma session_governed (hhost : DataOnly c.host) {earlier : List Moment}
    (hearlier : earlier <+: history (Session.new c library directory) sources) :
    (sessionLaw hhost library directory sources).Lawful (finish (Machine.start c.host) earlier) := by
  have hready : (sessionLaw hhost library directory sources).Ready []
      (current (Session.new c library directory)) :=
    graph_ready hhost within_append fun hsize hnode hstretch =>
      ⟨hsize, _, _, _, _, _, hnode, hstretch, rfl⟩
  refine (sessionLaw hhost library directory sources).session_lawful_at rfl ?_ hready ?_ hearlier
  · intro source hsource program hprogram
    exact ⟨trivial, fun node hnode => ⟨source, hsource, program, hprogram, hnode⟩⟩
  · exact ⟨[], rfl, List.prefix_refl _⟩

/-- The law for what an expression would give at a moment. Scopes that it would make itself count as
those of modules. -/
def momentLaw (hhost : DataOnly c.host) (made : ScopeId → Prop) (m : Machine) :
    Law (List ScopeId) c :=
  graphLaw (fun id => made id ∨ m.heap.scopes.size ≤ id) (fun _ => True) (fun _ _ => True)
    m.heap.scopes.size hhost (fun _ => ⟨trivial, trivial⟩) fun hsize _ _ => .inr hsize

/-- A machine of a session is under a law for any code, from now on, if that law allows the values
that the session may have now. -/
lemma governs_from_now {hhost : DataOnly c.host}
    (hm : (sessionLaw hhost library directory sources).Governs w m) {made : ScopeId → Prop}
    (hvalue : ∀ v, (sessionLaw hhost library directory sources).value w m.heap.scopes.size v →
      (graphPolicy made (fun _ => True) (fun _ _ => True) m.heap.scopes.size).value w
      m.heap.scopes.size v)
    (hmodule : ∀ {m' : Machine}, m.heap.scopes.size ≤ m'.heap.scopes.size →
      made m'.heap.scopes.size) :
    (graphLaw made (fun _ => True) (fun _ _ => True) m.heap.scopes.size hhost
      (fun _ => ⟨trivial, trivial⟩) fun hsize _ _ => hmodule hsize).Governs w m := by
  refine ⟨⟨fun _ _ _ _ => trivial, ?_, ?_, ?_, ?_⟩, ⟨hm.keep.1, Nat.le_refl _, hm.keep.2.2⟩, hm.home,
    hm.session⟩
  · intro id key binding hid hbinding
    exact hvalue _ (hm.heap.binding id key binding hid hbinding)
  · intro id hid v hv
    exact hvalue _ (hm.heap.element id hid v hv)
  · intro id cursor hid hcursor row hrow entry hentry
    exact hvalue _ (hm.heap.column id cursor hid hcursor row hrow entry hentry)
  · intro id closure hid hclosure
    exact ⟨(hm.heap.closure id closure hid hclosure).1, fun _ _ => trivial⟩

lemma moment_governed {hhost : DataOnly c.host}
    (hm : (sessionLaw hhost library directory sources).Governs w m) :
    (momentLaw hhost (fun id => 3 ≤ id ∧
      FromModule (Session.new c library directory) sources id) m).Governs w m :=
  governs_from_now hm (fun _ => value_made fun _ => .inl) .inr

lemma value_stored {hhost : DataOnly c.host}
    (hm : (sessionLaw hhost library directory sources).Governs w m) (h : Stored m.heap v) :
    (sessionLaw hhost library directory sources).value w m.heap.scopes.size v := by
  cases h with
  | bound h => exact hm.heap.binding _ _ _ trivial h
  | element h => exact hm.heap.element _ trivial _ h
  | column h hrow hentry => exact hm.heap.column _ _ trivial h _ hrow _ hentry

lemma value_evaluated {hhost : DataOnly c.host} {m' : Machine}
    (hm : (sessionLaw hhost library directory sources).Governs w m)
    (hstack : (sessionLaw hhost library directory sources).Stack w m) {levels : Nat}
    {expression : Expr} (h : expression.eval (below levels) c m = (.ok v, m')) :
    (momentLaw hhost (fun id => 3 ≤ id ∧
      FromModule (Session.new c library directory) sources id) m).value w m'.heap.scopes.size v := by
  let law := momentLaw hhost (fun id => 3 ≤ id ∧
    FromModule (Session.new c library directory) sources id) m
  have hplace : law.place m.heap.scopes.size m.scope := (hstack m.scope List.mem_cons_self).1
  have hout := law.conducts_eval (w := w) (law.calls levels) hplace expression
    (fun _ _ => trivial) m rfl (Nat.le_refl _) (moment_governed hm) hstack trivial
  have hresult := hout.result v (by rw [h])
  rw [h] at hresult
  exact hresult

/-- A scope that a program may have as a value is none that the machine is in or goes back to. -/
lemma handle_off_stack {made : ScopeId → Prop} {node : Node → Prop}
    {stretch : Machine → List Moment → Prop} {base : Nat} (hmade : ∀ id, made id → 3 ≤ id)
    (hstack : ∀ id ∈ m.scope :: m.saved,
      (graphPolicy made node stretch base).stands w m.heap.scopes.size id) {id : ScopeId}
    (hid : (graphPolicy made node stretch base).handle w n id) :
    id ∉ m.scope :: m.saved ∧ id ≠ 0 := by
  obtain ⟨-, hfree, hkind⟩ := hid
  have hzero : id ≠ 0 := by
    rcases hkind with rfl | rfl | hkind
    · decide
    · decide
    · exact Nat.ne_of_gt (Nat.lt_of_lt_of_le (by decide) (hmade id hkind))
  refine ⟨fun hmember => ?_, hzero⟩
  rcases (hstack id hmember).2 with h | h
  · exact hzero h
  · exact hfree h

/-- At every moment of a session: a scope is younger than the scope around it and stays there, so
that no chain of scopes is endless. The chains of the current scope, of the saved scopes and of the
scopes that functions have captured end in the global scope. No scope that the machine is in or goes
back to can be got hold of as a value; what can be is `empty`, `connection`, the scope of a module
that was left, or what is yet to be made. -/
theorem scope_graph_invariant (config : Config) (hhost : DataOnly config.host) (library : Library)
    (directory : String) (sources : List String) {earlier : List Moment}
    (hearlier : earlier <+: history (Session.new config library directory) sources) :
    let m := finish (Machine.start config.host) earlier
    (∀ id parent, outer? m.heap id = some parent → parent < id) ∧
    WellFounded (fun outer inner => outer? m.heap inner = some outer) ∧
    (∀ between, earlier ++ between <+: history (Session.new config library directory) sources →
      ∀ id, id < m.heap.scopes.size → outer? (finish m between).heap id = outer? m.heap id) ∧
    (∀ id, id ∈ m.scope :: m.saved ∨ (∃ closure ∈ m.heap.functions, closure.scope = id) →
      Relation.ReflTransGen (fun inner outer => outer? m.heap inner = some outer) id m.globals) ∧
    outer? m.heap m.globals = none ∧
    (∀ id, Stored m.heap (.scope id) → id < m.heap.scopes.size) ∧
    ∀ id, Obtainable config m (.scope id) →
      id ∉ m.scope :: m.saved ∧ id ≠ m.globals ∧
        (IsPrototype config.host id ∨
          FromModule (Session.new config library directory) sources id ∨
          m.heap.scopes.size ≤ id) := by
  intro m
  obtain ⟨w, hm, hstack⟩ := session_governed hhost hearlier
  have hrooted : Rooted m.heap := hm.keep.1
  have hglobals : m.globals = 0 := hm.home
  have hpath := (history_leads (Session.new config library directory) sources).1
  have hlt : ∀ id parent, outer? m.heap id = some parent → parent < id :=
    fun id parent => rooted_lt hrooted
  refine ⟨hlt, ?_, ?_, ?_, ?_, ?_, ?_⟩
  · exact Subrelation.wf (fun h => hlt _ _ h) Nat.lt_wfRel.wf
  · intro between hbetween id hid
    have hparts := (path_append _ _ _).mp (path_initial hpath hbetween)
    exact (grows_path hparts.2).outer id hid
  · rintro id (hid | ⟨closure, hclosure, rfl⟩)
    · rw [hglobals]
      exact rooted_chain hrooted (hstack id hid).1.1 (hstack id hid).1.2
    · obtain ⟨function, hfunction⟩ := Array.mem_iff_getElem?.mp hclosure
      have hplace := (hm.heap.closure function closure trivial hfunction).1
      rw [hglobals]
      exact rooted_chain hrooted hplace.1 hplace.2
  · rw [hglobals]
    exact hrooted.root 0 (by decide)
  · intro id hid
    exact (value_stored hm hid).1
  · intro id hid
    rw [hglobals]
    have hold : ∀ id, id = 1 ∨ id = 2 → IsPrototype config.host id :=
      fun id => isPrototype_start hhost.scopes
    cases hid with
    | stored h =>
      have hhandle := value_stored hm h
      obtain ⟨hfree, hzero⟩ := handle_off_stack (fun _ h => h.1) hstack hhandle
      refine ⟨hfree, hzero, ?_⟩
      rcases hhandle.2.2 with h | h | h
      · exact .inl (hold id (.inl h))
      · exact .inl (hold id (.inr h))
      · exact .inr (.inl h.2)
    | evaluated h =>
      have hhandle := value_evaluated hm hstack h
      have hmade : ∀ id, (3 ≤ id ∧ FromModule (Session.new config library directory) sources id) ∨
          m.heap.scopes.size ≤ id → 3 ≤ id := by
        rintro id (h | h)
        · exact h.1
        · exact Nat.le_trans hrooted.size h
      obtain ⟨hfree, hzero⟩ := handle_off_stack hmade hstack hhandle
      refine ⟨hfree, hzero, ?_⟩
      rcases hhandle.2.2 with h | h | h | h
      · exact .inl (hold id (.inl h))
      · exact .inl (hold id (.inr h))
      · exact .inr (.inl h.2)
      · exact .inr (.inr h)

/-- A moment inside the call of a function which a module has left behind. -/
theorem scope_graph_in_module_function :
    let session := Session.new ⟨⟨none, 2⟩, bareHost⟩ (Library.ofModules []) ""
    let sources := ["module m\nlocal n = 1\nfunction f()\nreturn n\nendfunc\nendmodule", "? m.f()"]
    let m := finish (Machine.start bareHost) ((history session sources).take 45)
    m.saved ≠ [] ∧ m.scope ≠ m.globals ∧ DataOnly bareHost ∧
      (∀ source ∈ sources, (SourceUnit.parse session.library source).errors = []) ∧
      (∀ id ∈ m.scope :: m.saved, Relation.ReflTransGen
        (fun inner outer => outer? m.heap inner = some outer) id m.globals) ∧
      ∀ id ∈ m.scope :: m.saved, ¬ Obtainable session.config m (.scope id) := by
  intro session sources m
  obtain ⟨hsaved, hscope⟩ : m.saved ≠ [] ∧ m.scope ≠ m.globals := by decide +kernel
  obtain ⟨-, -, -, hchain, -, -, hobtain⟩ := scope_graph_invariant session.config dataOnly_bareHost
    session.library "" sources (List.take_prefix 45 (history session sources))
  refine ⟨hsaved, hscope, dataOnly_bareHost, ?_, fun id hid => hchain id (.inl hid),
    fun id hid h => (hobtain id h).1 hid⟩
  simp only [sources, List.forall_mem_cons, ← List.isEmpty_iff]
  refine ⟨by decide +kernel, by decide +kernel, fun _ h => by cases h⟩

end Moments

end XBase.Proofs

end
