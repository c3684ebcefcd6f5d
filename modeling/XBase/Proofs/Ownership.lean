import XBase.Proofs.Constants

/-!
# One owner for every operation on a name

The owner of a name is the nearest scope, from a scope outwards, that binds it. Looking up,
classifying, assigning and releasing the name all agree on it: an assignment or a release changes
what the owner binds the name to and nothing else. What a name means elsewhere after an assignment
depends only on whether its owner there is the scope that was written.
-/

namespace XBase

/-- A scope and the scopes around it, nearest first. -/
def Heap.chain (heap : Heap) (id : ScopeId) : List ScopeId :=
  id ::
    match _ : heap.parent? id with
    | none => []
    | some parent => heap.chain parent
termination_by id
decreasing_by exact parent?_lt ‹_›

/-- The nearest scope of the chain that binds a lowercase name. -/
def Heap.nearest? (heap : Heap) (id : ScopeId) (key : String) : Option ScopeId :=
  (heap.chain id).find? fun scope => (heap.own? scope key).isSome

/-- `after` is `heap` except for what the scope `id` binds a lowercase name to. -/
structure Heap.DiffersAt (heap after : Heap) (id : ScopeId) (key : String)
    (binding : Option Binding) : Prop where
  here : after.own? id key = binding
  elsewhere : ∀ other name, ¬(other = id ∧ name = key) →
    after.own? other name = heap.own? other name
  parents : ∀ other, after.parent? other = heap.parent? other
  size : after.scopes.size = heap.scopes.size
  cells : { after with scopes := heap.scopes } = heap

namespace Proofs

variable {heap after : Heap} {id owner other : ScopeId} {key : String}

lemma owner?_eq_nearest? (heap : Heap) (id : ScopeId) (key : String) :
    heap.owner? id key = heap.nearest? id key := by
  unfold Heap.nearest?
  induction id using chain_induction heap key with
  | own id binding hown =>
    rw [owner?_own hown, Heap.chain, List.find?_cons_of_pos]
    simp [hown]
  | root id hown hroot =>
    rw [owner?_around hown, Heap.chain, List.find?_cons_of_neg (by simp [hown])]
    split
    · simp [hroot]
    · next hparent => simp [hroot] at hparent
  | parent id parent hown hparent ih =>
    rw [owner?_around hown, Heap.chain, List.find?_cons_of_neg (by simp [hown])]
    split
    · next hroot => simp [hparent] at hroot
    · next above habove =>
      rw [hparent] at habove
      cases habove
      rw [hparent]
      exact ih

section Differences

lemma differs_bind (hid : id < heap.scopes.size) (binding : Binding) :
    heap.DiffersAt (heap.bind id key binding) id key (some binding) where
  here := by simp [Heap.bind, own?_modifyBindings, hid]
  elsewhere other name hne := by
    apply own?_bind_of_ne
    rintro rfl rfl
    exact hne ⟨rfl, rfl⟩
  parents other := parent?_modifyBindings heap other id _
  size := Array.size_modify ..
  cells := rfl

lemma differs_erase (heap : Heap) (id : ScopeId) (key : String) :
    heap.DiffersAt (heap.modifyBindings id (·.erase key)) id key none where
  here := by simp [own?_erase]
  elsewhere other name hne := by
    rw [own?_erase, if_neg]
    rintro ⟨rfl, rfl⟩
    exact hne ⟨rfl, rfl⟩
  parents other := parent?_modifyBindings heap other id _
  size := Array.size_modify ..
  cells := rfl

variable {binding : Option Binding}

/-- A name that the same scopes bind keeps its owner. -/
lemma owner?_congr {name : String} (hparents : ∀ scope, after.parent? scope = heap.parent? scope)
    (hbound : ∀ scope, (after.own? scope name).isSome = (heap.own? scope name).isSome)
    (other : ScopeId) : after.owner? other name = heap.owner? other name := by
  induction other using chain_induction heap name with
  | own other binding hown =>
    obtain ⟨found, hfound⟩ := Option.isSome_iff_exists.mp ((hbound other).trans (by simp [hown]))
    rw [owner?_own hown, owner?_own hfound]
  | root other hnone hroot =>
    have hnone' : after.own? other name = none := by
      simpa [hnone] using hbound other
    rw [owner?_around hnone, owner?_around hnone', hparents, hroot]
    rfl
  | parent other parent hnone hparent ih =>
    have hnone' : after.own? other name = none := by
      simpa [hnone] using hbound other
    rw [owner?_around hnone, owner?_around hnone', hparents, hparent]
    exact ih

lemma owner?_differs_of_bound {old new : Binding} (h : heap.DiffersAt after id key (some new))
    (hold : heap.own? id key = some old) (other : ScopeId) :
    after.owner? other key = heap.owner? other key := by
  apply owner?_congr h.parents
  intro scope
  by_cases hscope : scope = id
  · rw [hscope, h.here, hold]
    rfl
  · rw [h.elsewhere scope key fun hsame => hscope hsame.1]

/-- A chain that does not reach the changed binding first keeps its owner. -/
lemma owner?_differs (h : heap.DiffersAt after id key binding) (hbinding : binding.isSome)
    (hother : after.owner? other key ≠ some id) :
    after.owner? other key = heap.owner? other key := by
  have hid : after.own? id key ≠ none := by
    rw [h.here]
    exact Option.isSome_iff_ne_none.mp hbinding
  induction other using chain_induction after key with
  | own other found hbound =>
    rw [owner?_own hbound] at hother ⊢
    have hne : ¬(other = id ∧ key = key) := fun hsame => hother (congrArg some hsame.1)
    rw [h.elsewhere other key hne] at hbound
    rw [owner?_own hbound]
  | root other hnone hroot =>
    have hne : ¬(other = id ∧ key = key) := fun hsame => hid (hsame.1 ▸ hnone)
    have hnone' := (h.elsewhere other key hne).symm.trans hnone
    rw [owner?_around hnone, owner?_around hnone', ← h.parents, hroot]
    rfl
  | parent other parent hnone hparent ih =>
    have hne : ¬(other = id ∧ key = key) := fun hsame => hid (hsame.1 ▸ hnone)
    have hnone' := (h.elsewhere other key hne).symm.trans hnone
    rw [owner?_around hnone, hparent] at hother ⊢
    rw [owner?_around hnone', ← h.parents, hparent]
    exact ih hother

lemma lookup_differs {binding : Binding} (h : heap.DiffersAt after id key (some binding))
    (other : ScopeId) (name : String) :
    after.lookup other name =
      if Text.lower name = key ∧ after.owner? other key = some id then .ok binding.value
      else heap.lookup other name := by
  unfold Heap.lookup
  rw [get_eq, get_eq]
  by_cases hname : Text.lower name = key
  · rw [hname]
    by_cases hother : after.owner? other key = some id
    · rw [if_pos ⟨rfl, hother⟩, hother]
      simp [h.here]
    · rw [if_neg fun hsame => hother hsame.2, ← owner?_differs h rfl hother]
      cases howner : after.owner? other key with
      | none => rfl
      | some found =>
        have hne : ¬(found = id ∧ key = key) :=
          fun hsame => hother (howner.trans (congrArg some hsame.1))
        simp [h.elsewhere found key hne]
  · have hown : ∀ scope, after.own? scope (Text.lower name) = heap.own? scope (Text.lower name) :=
      fun scope => h.elsewhere scope _ fun hsame => hname hsame.2
    have howner := owner?_congr h.parents (fun scope => by rw [hown scope]) other
    rw [if_neg fun hsame => hname hsame.1, howner]
    simp only [hown]

end Differences

section Operations

variable (name : String) (value : Value)

lemma lt_size_of_own? {binding : Binding} (h : heap.own? id key = some binding) :
    id < heap.scopes.size := by
  by_cases hid : id < heap.scopes.size
  · exact hid
  · rw [Heap.own?, Array.getElem?_eq_none (Nat.le_of_not_lt hid)] at h
    cases h

lemma assignOwn_constant {bound : Value}
    (h : heap.own? id (Text.lower name) = some ⟨.constant, bound⟩) :
    heap.assignOwn id name value = (.error (.constantAssignment name), heap) := by
  simp [Heap.assignOwn, h]

lemma assignOwn_free (h : (heap.own? id (Text.lower name)).map Binding.kind ≠ some .constant) :
    heap.assignOwn id name value =
      (.ok (), heap.bind id (Text.lower name) ⟨.variable, value⟩) := by
  unfold Heap.assignOwn
  dsimp only
  split
  · next hconstant => exact absurd hconstant h
  · rfl

/-- A successful assignment puts the value in the owner, or in the scope itself. -/
lemma assign_differs (hid : id < heap.scopes.size) (h : (heap.assign id name value).1 = .ok ()) :
    heap.DiffersAt (heap.assign id name value).2
      ((heap.owner? id (Text.lower name)).getD id) (Text.lower name)
      (some ⟨.variable, value⟩) := by
  rw [assign_eq] at h ⊢
  have hsize : (heap.owner? id (Text.lower name)).getD id < heap.scopes.size := by
    cases howner : heap.owner? id (Text.lower name) with
    | none => exact hid
    | some owner =>
      obtain ⟨binding, hbound⟩ := own?_of_owner? howner
      exact lt_size_of_own? hbound
  have hfree : (heap.own? ((heap.owner? id (Text.lower name)).getD id)
      (Text.lower name)).map Binding.kind ≠ some .constant := by
    intro hconstant
    simp [Heap.assignOwn, hconstant] at h
  rw [assignOwn_free name value hfree]
  exact differs_bind hsize _

end Operations

/-- Every operation on a name from a scope acts on its owner, the nearest scope of the chain that
binds it. After an assignment that succeeds, a name looked up from any scope has the assigned value
if it is the assigned name and its owner there is the scope that was written, and else means what
it meant before. -/
theorem operations_agree_on_owner (heap : Heap) (id : ScopeId) (hid : id < heap.scopes.size)
    (name : String) (value : Value) :
    let key := Text.lower name
    (match heap.nearest? id key with
      | some owner => ∃ binding, heap.own? owner key = some binding ∧
          heap.lookup id name = .ok binding.value ∧
          heap.kindOf id name = some binding.kind ∧
          (binding.kind = .variable → (heap.assign id name value).1 = .ok () ∧
            heap.DiffersAt (heap.assign id name value).2 owner key (some ⟨.variable, value⟩) ∧
            ∀ other, (heap.assign id name value).2.nearest? other key = heap.nearest? other key) ∧
          (binding.kind = .constant →
            heap.assign id name value = (.error (.constantAssignment name), heap)) ∧
          heap.DiffersAt (heap.release id name) owner key none
      | none =>
          heap.lookup id name = .error (.undefined name) ∧
          heap.kindOf id name = none ∧
          (heap.assign id name value).1 = .ok () ∧
          heap.own? id key = none ∧
          heap.DiffersAt (heap.assign id name value).2 id key (some ⟨.variable, value⟩) ∧
          heap.release id name = heap) ∧
    ((heap.assign id name value).1 = .ok () → ∀ (other : ScopeId) (written : String),
      (heap.assign id name value).2.lookup other written =
        if Text.lower written = key ∧
            (heap.assign id name value).2.nearest? other key = some ((heap.nearest? id key).getD id)
        then .ok value
        else heap.lookup other written) := by
  dsimp only
  have hassign := assign_differs name value hid
  have hbound := assign_eq heap id name value
  simp only [← owner?_eq_nearest?]
  refine ⟨?_, fun hok other written => lookup_differs (hassign hok) other written⟩
  unfold Heap.lookup
  rw [get_eq, kindOf_eq heap id rfl, release_eq heap id rfl]
  cases howner : heap.owner? id (Text.lower name) with
  | none =>
    have hnone := own?_of_owner?_none howner
    have hok : (heap.assign id name value).1 = .ok () := by
      rw [hbound, howner, Option.getD_none, assignOwn_free name value (by simp [hnone])]
    have hdiffers := hassign hok
    rw [howner] at hdiffers
    exact ⟨rfl, rfl, hok, hnone, hdiffers, rfl⟩
  | some owner =>
    obtain ⟨⟨kind, bound⟩, hown⟩ := own?_of_owner? howner
    rw [howner, Option.getD_some] at hbound
    refine ⟨⟨kind, bound⟩, hown, ?_, ?_, ?_, ?_, differs_erase heap owner _⟩
    · simp [hown]
    · simp [hown]
    · rintro rfl
      have hok : (heap.assign id name value).1 = .ok () := by
        rw [hbound, assignOwn_free name value (by simp [hown])]
      have hdiffers := hassign hok
      rw [howner] at hdiffers
      exact ⟨hok, hdiffers, owner?_differs_of_bound hdiffers hown⟩
    · rintro rfl
      rw [hbound, assignOwn_constant name value hown]

/-- Three scopes, each inside the one before. The outermost binds a constant that the middle one
shadows with a variable. -/
def nested : Heap :=
  let heap := ((Heap.empty.newScope none).2.newScope (some 0)).2.newScope (some 1)
  let heap := heap.2.seed 0 "Total" .null .constant
  heap.seed 1 "total" (.boolean false) .variable

/-- An assignment from the innermost scope writes the middle one and not the constant beyond it. -/
theorem nested_total_written :
    let after := (nested.assign 2 "TOTAL" (.boolean true)).2
    2 < nested.scopes.size ∧ nested.nearest? 2 "total" = some 1 ∧
      after.lookup 1 "Total" = .ok (.boolean true) ∧
      after.lookup 0 "total" = nested.lookup 0 "total" := by
  intro after
  have hsize : 2 < nested.scopes.size := by decide +kernel
  have howner : nested.nearest? 2 (Text.lower "TOTAL") = some 1 := by decide +kernel
  have hkind : nested.kindOf 2 "TOTAL" = some .variable := by decide +kernel
  obtain ⟨hcase, hafter⟩ := operations_agree_on_owner nested 2 hsize "TOTAL" (.boolean true)
  rw [howner] at hcase hafter
  obtain ⟨binding, -, -, hkind', hassign, -⟩ := hcase
  rw [hkind, Option.some_inj] at hkind'
  obtain ⟨hok, -, hnearest⟩ := hassign hkind'.symm
  have hmiddle : nested.nearest? 1 (Text.lower "TOTAL") = some 1 := by decide +kernel
  have houter : nested.nearest? 0 (Text.lower "TOTAL") = some 0 := by decide +kernel
  have hlower : Text.lower "Total" = Text.lower "TOTAL" := by decide +kernel
  refine ⟨hsize, by decide +kernel, ?_, ?_⟩
  · rw [hafter hok 1 "Total", hnearest, hmiddle, if_pos ⟨hlower, rfl⟩]
  · rw [hafter hok 0 "total", hnearest, houter, if_neg (by simp)]

end Proofs

end XBase
