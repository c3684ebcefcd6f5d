import Mathlib.Data.Set.Basic
import XBase.Proofs.ScopeGraph

/-!
# Names stay in their blocks

The blocks of a compound statement run in scopes of their own, so the scope around the statement is
no longer one that names are added to. Names could still get there through a value, since a member
assignment binds names in the scope that it is given; but a scope that is under way is no value. A
law can be sealed against a name in such a scope, and the statement keeps the sealed law.
-/

noncomputable section

namespace XBase.Proofs

variable {heap : Heap} {id : ScopeId} {key : String} {m : Machine} {w : List ScopeId}

section Seals

variable {ω : Type} {c : Config}

lemma own?_newScope (hid : id < heap.scopes.size) (parent : Option ScopeId) (key : String) :
    (heap.newScope parent).2.own? id key = heap.own? id key := by
  simp [Heap.own?, Heap.newScope, Array.getElem?_push, Nat.ne_of_lt hid]

/-- The policy that nothing but what a scope already binds may be bound in it, and not `key`. -/
def Policy.sealed (policy : Policy ω) (id : ScopeId) (key : String) : Policy ω :=
  { policy with
    opens := fun other => policy.opens other ∧ other ≠ id
    keep := fun w heap => policy.keep w heap ∧ heap.own? id key = none }

lemma own?_sealed {policy : Policy ω} {w : ω} {heap' : Heap} (hkey : heap.own? id key = none)
    (h : (policy.sealed id key).Edit w heap heap') : heap'.own? id key = none := by
  cases h with
  | @bind owner binding name _ _ hopens =>
    -- A name that is bound in this scope was bound there before, so it is another one.
    have hother : owner = id → name ≠ key := by
      rintro rfl rfl
      exact (hopens hkey).2 rfl
    exact (own?_bind_of_ne heap id owner key binding hother).trans hkey
  | @erase owner name _ =>
    rw [own?_erase]
    split
    · rfl
    · exact hkey
  | _ => exact hkey

lemma edit_of_sealed {policy : Policy ω} {w : ω} {heap' : Heap}
    (h : (policy.sealed id key).Edit w heap heap') : policy.Edit w heap heap' := by
  cases h with
  | bind name hid hvalue hopens => exact .bind name hid hvalue fun hnone => (hopens hnone).1
  | erase name hid => exact .erase name hid
  | newArray h => exact .newArray h
  | newFunction hplace hcode => exact .newFunction hplace hcode
  | newClass cell => exact .newClass cell
  | newCursor h => exact .newCursor h
  | setElements hid h => exact .setElements hid h
  | setCursor hid h => exact .setCursor hid h

/-- A law can be sealed for a scope that is made already and that is neither the global scope nor
one that may be had as a value. -/
def Law.sealed (law : Law ω c) (id : ScopeId) (key : String) (hhome : law.home ≠ id)
    (hhandle : ∀ {w n other}, law.handle w n other → other ≠ id)
    (hmade : ∀ {w heap}, law.keep w heap → id < heap.scopes.size) : Law ω c where
  toPolicy := law.toPolicy.sealed id key
  handle_mono := law.handle_mono
  place_mono := law.place_mono
  stands_mono := law.stands_mono
  knows_of_opens h := law.knows_of_opens h.1
  knows_of_place := law.knows_of_place
  opens_home := ⟨law.opens_home, hhome⟩
  opens_of_handle h := ⟨law.opens_of_handle h, hhandle h⟩
  opens_new hkeep hparent := ⟨law.opens_new hkeep.1 hparent, Nat.ne_of_gt (hmade hkeep.1)⟩
  knows_of_lacks hkeep := law.knows_of_lacks hkeep.1
  keep_edit hkeep hedit :=
    ⟨law.keep_edit hkeep.1 (edit_of_sealed hedit), own?_sealed hkeep.2 hedit⟩
  keep_grow hkeep hparent :=
    ⟨law.keep_grow hkeep.1 hparent, (own?_newScope (hmade hkeep.1) _ _).trans hkeep.2⟩
  keep_shrink hkeep := ⟨law.keep_shrink hkeep.1, hkeep.2⟩
  handle_grow := law.handle_grow
  handle_shrink := law.handle_shrink
  stands_grow := law.stands_grow
  place_new hkeep := law.place_new hkeep.1
  stands_new hkeep := law.stands_new hkeep.1
  handle_module hkeep := law.handle_module hkeep.1
  registry := law.registry
  rows_of_driver hkeep := law.rows_of_driver hkeep.1
  stretch_append := law.stretch_append

lemma Law.governs_sealed {law : Law ω c} {hhome : law.home ≠ id}
    {hhandle : ∀ {w n other}, law.handle w n other → other ≠ id}
    {hmade : ∀ {w heap}, law.keep w heap → id < heap.scopes.size} {w : ω} (hm : law.Governs w m)
    (hkey : m.heap.own? id key = none) : (law.sealed id key hhome hhandle hmade).Governs w m :=
  ⟨⟨hm.heap.parent, hm.heap.binding, hm.heap.element, hm.heap.column, hm.heap.closure⟩,
    ⟨hm.keep, hkey⟩, hm.home, hm.session⟩

end Seals

/-- The names that a scope itself binds. -/
def boundNames (heap : Heap) (id : ScopeId) : Set String :=
  { key | heap.own? id key ≠ none }

lemma mem_boundNames : key ∈ boundNames heap id ↔ heap.own? id key ≠ none :=
  Iff.rfl

section Blocks

variable {c : Config} {library : Library} {directory : String} {sources : List String}

/-- The law of what may happen once there are `base` scopes and one of them is under way: all but
that scope may be values. -/
def besideLaw (hhost : DataOnly c.host) (id : ScopeId) (base : Nat) (hid : id < base) :
    Law (List ScopeId) c :=
  graphLaw (· ≠ id) (fun _ => True) (fun _ _ => True) base hhost (fun _ => ⟨trivial, trivial⟩)
    fun hsize _ _ => Nat.ne_of_gt (Nat.lt_of_lt_of_le hid hsize)

/-- A scope under way is none of the values that a session may have. -/
lemma value_beside {made : ScopeId → Prop} {node node' : Node → Prop}
    {stretch stretch' : Machine → List Moment → Prop} {base base' n : Nat} (hid : id ∈ w)
    {v : Value} (hv : (graphPolicy made node stretch base).value w n v) :
    (graphPolicy (· ≠ id) node' stretch' base').value w n v := by
  cases v with
  | scope other => exact ⟨hv.1, hv.2.1, .inr (.inr fun h => hv.2.1 (h ▸ hid))⟩
  | native which => cases which <;> trivial
  | _ => trivial

lemma governs_beside {hhost : DataOnly c.host}
    (hm : (sessionLaw hhost library directory sources).Governs w m) (hid : id ∈ w) :
    (besideLaw hhost id m.heap.scopes.size (hm.keep.2.2 id hid)).Governs w m :=
  governs_from_now hm (fun _ => value_beside hid)
    fun hsize => Nat.ne_of_gt (Nat.lt_of_lt_of_le (hm.keep.2.2 id hid) hsize)

section Sealed

variable {hhost : DataOnly c.host} {id : ScopeId} {base : Nat} {hid : id < base}

/-- The scopes that programs make are no prototypes, so the one under way is no value. -/
lemma handle_beside (hthree : 3 ≤ id) {n : Nat} {other : ScopeId}
    (h : (besideLaw hhost id base hid).handle w n other) : other ≠ id := by
  obtain ⟨-, -, rfl | rfl | hother⟩ := h
  · exact Nat.ne_of_lt (Nat.lt_of_lt_of_le (by decide) hthree)
  · exact Nat.ne_of_lt (Nat.lt_of_lt_of_le (by decide) hthree)
  · exact hother

lemma home_beside (hthree : 3 ≤ id) : (besideLaw hhost id base hid).home ≠ id := by
  exact Nat.ne_of_lt (Nat.lt_of_lt_of_le (Nat.zero_lt_succ 2) hthree)

lemma made_beside (hkeep : (besideLaw hhost id base hid).keep w heap) : id < heap.scopes.size :=
  Nat.lt_of_lt_of_le hid hkeep.2.1

variable (hhost hid) in
/-- The same law, sealed against a name in the scope that is under way. -/
def sealedLaw (hthree : 3 ≤ id) (key : String) : Law (List ScopeId) c :=
  (besideLaw hhost id base hid).sealed id key (home_beside hthree) (handle_beside hthree)
    made_beside

variable {w : List ScopeId} {m : Machine} {levels rounds : Nat} {α : Type}
  {x : Invocation → Run α}

lemma governs_sealedLaw (hthree : 3 ≤ id) (hm : (besideLaw hhost id base hid).Governs w m)
    (hkey : m.heap.own? id key = none) : (sealedLaw hhost hid hthree key).Governs w m :=
  Law.governs_sealed hm hkey

/-- Whatever keeps all sealed laws adds no names to the scope, at no moment. -/
lemma sealed_names (d : Composition rounds x) (hthree : 3 ≤ id)
    (hm : (besideLaw hhost id base hid).Governs w m)
    (hout : ∀ key, (sealedLaw hhost hid hthree key).Governs w m →
      ∃ post, (sealedLaw hhost hid hthree key).Outcome levels w d m post) :
    boundNames (x (below levels) c m).2.heap id ⊆ boundNames m.heap id ∧
      ∀ moment ∈ d.moments levels c m,
        boundNames moment.machine.heap id ⊆ boundNames m.heap id := by
  refine ⟨fun key hkey hnone => ?_, fun moment hmoment key hkey hnone => ?_⟩
  · obtain ⟨_, hend⟩ := hout key (governs_sealedLaw hthree hm hnone)
    exact hkey hend.governs.keep.2
  · obtain ⟨_, hend⟩ := hout key (governs_sealedLaw hthree hm hnone)
    obtain ⟨_, hlawful, -⟩ := hend.moments moment hmoment
    exact hkey hlawful.keep.2

end Sealed

/-- A compound statement adds no names to a scope under way. -/
lemma exec_adds_no_names {hhost : DataOnly c.host}
    (hm : (sessionLaw hhost library directory sources).Governs w m)
    (hstack : (sessionLaw hhost library directory sources).Stack w m) (hid : id ∈ w)
    (hthree : 3 ≤ id) {statement : Stmt} (hcompound : isCompound statement = true) (levels : Nat) :
    boundNames (statement.exec (below levels) c m).2.heap id ⊆ boundNames m.heap id ∧
      ∀ moment ∈ (execComposition statement).moments levels c m,
        boundNames moment.machine.heap id ⊆ boundNames m.heap id := by
  have hlt := hm.keep.2.2 id hid
  have hhere : (besideLaw hhost id m.heap.scopes.size hlt).place m.heap.scopes.size m.scope :=
    (hstack m.scope List.mem_cons_self).1
  refine sealed_names (execComposition statement) hthree (governs_beside hm hid)
    fun key hsealed => ?_
  let law := sealedLaw hhost hlt hthree key
  refine ⟨_, law.conducts_exec (law.calls levels) hhere statement (fun hsimple => ?_)
    (fun _ _ => trivial) m rfl (Nat.le_refl _) hsealed hstack trivial⟩
  rw [hcompound] at hsimple
  cases hsimple

/-- At any moment of a session, a compound statement adds no names to a scope that the machine is in
or goes back to, unless it is the global scope: neither by the time it has ended, with a signal or
with a failure, nor at any moment until then. -/
theorem names_stay_in_blocks (config : Config) (hhost : DataOnly config.host) (library : Library)
    (directory : String) (sources : List String) {earlier : List Moment}
    (hearlier : earlier <+: history (Session.new config library directory) sources) :
    let m := finish (Machine.start config.host) earlier
    ∀ id ∈ m.scope :: m.saved, id ≠ m.globals → ∀ statement, isCompound statement = true →
      ∀ levels,
        boundNames (statement.exec (below levels) config m).2.heap id ⊆ boundNames m.heap id ∧
        ∀ moment ∈ (execComposition statement).moments levels config m,
          boundNames moment.machine.heap id ⊆ boundNames m.heap id := by
  intro m id hid hglobal statement hcompound levels
  obtain ⟨w, hm, hstack⟩ := session_governed hhost hearlier
  have hzero : id ≠ 0 := fun h => hglobal (h.trans hm.home.symm)
  obtain ⟨⟨-, hplace⟩, hstands⟩ := hstack id hid
  exact exec_adds_no_names hm hstack (hstands.resolve_left hzero) (hplace.resolve_left hzero)
    hcompound levels

/-- A statement in the body of a module, with a block that would declare, assign and define names
and then jumps out of it. -/
theorem names_stay_in_module_block :
    let session := Session.new ⟨⟨none, 2⟩, bareHost⟩ (Library.ofModules []) ""
    let sources := ["module m\nlocal a = \"x\"\nendmodule"]
    let m := finish (Machine.start bareHost) ((history session sources).take 7)
    let body : List Stmt :=
      [.declare (nameToken "local") .local [⟨nameToken "b", none, none⟩],
        .assign (nameToken "=") (.name (nameToken "c")) (.literal (nameToken "d")),
        .function ⟨nameToken "function", nameToken "f", [], [], []⟩,
        .module (nameToken "module") (nameToken "n") [], .exit (nameToken "exit")]
    let statement : Stmt := .branch (nameToken "if") (.name (nameToken "empty")) body body
    m.scope ≠ m.globals ∧
      boundNames (statement.exec (below 2) session.config m).2.heap m.scope ⊆
        boundNames m.heap m.scope := by
  intro session sources m body statement
  have hscope : m.scope ≠ m.globals := by decide +kernel
  exact ⟨hscope, (names_stay_in_blocks session.config dataOnly_bareHost session.library "" sources
    (List.take_prefix 7 (history session sources)) m.scope List.mem_cons_self hscope statement rfl
    2).1⟩

end Blocks

end XBase.Proofs

end
