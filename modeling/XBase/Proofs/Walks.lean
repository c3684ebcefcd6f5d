import XBase.Heap.Chain
import XBase.Proofs.Casing

/-!
# Walks along a chain of scopes

Looking up, classifying, assigning and releasing a name walk the chain of scopes each on their own.
Every walk stops at the owner of the name.
-/

namespace XBase.Proofs

variable {heap : Heap} {id parent owner : ScopeId} {key : String}

section Owner

lemma owner?_around (h : heap.own? id key = none) :
    heap.owner? id key = (heap.parent? id).bind (heap.owner? · key) := by
  rw [Heap.owner?, h]
  simp only [Option.isSome_none, Bool.false_eq_true, if_false]
  split <;> simp_all

lemma owner?_own {binding : Binding} (h : heap.own? id key = some binding) :
    heap.owner? id key = some id := by
  rw [Heap.owner?]
  simp [h]

/-- Induction along the chain from a scope to the owner of a name or to the last scope. -/
lemma chain_induction (heap : Heap) (key : String) {motive : ScopeId → Prop}
    (own : ∀ id binding, heap.own? id key = some binding → motive id)
    (root : ∀ id, heap.own? id key = none → heap.parent? id = none → motive id)
    (parent : ∀ id parent, heap.own? id key = none → heap.parent? id = some parent →
      motive parent → motive id) (id : ScopeId) : motive id := by
  induction id using Nat.strongRecOn with
  | ind id ih =>
    cases hown : heap.own? id key with
    | some binding => exact own id binding hown
    | none =>
      cases hparent : heap.parent? id with
      | none => exact root id hown hparent
      | some above => exact parent id above hown hparent (ih above (Heap.parent?_lt hparent))

lemma own?_of_owner? (h : heap.owner? id key = some owner) :
    ∃ binding, heap.own? owner key = some binding := by
  induction id using chain_induction heap key with
  | own id binding hown =>
    rw [owner?_own hown] at h
    cases h
    exact ⟨binding, hown⟩
  | root id hown hroot => simp [owner?_around hown, hroot] at h
  | parent id parent hown hparent ih =>
    rw [owner?_around hown, hparent] at h
    exact ih h

lemma own?_of_owner?_none (h : heap.owner? id key = none) : heap.own? id key = none := by
  cases hown : heap.own? id key with
  | none => rfl
  | some binding =>
    rw [owner?_own hown] at h
    cases h

end Owner

section Walks

variable (heap id)

lemma get_eq (key : String) :
    heap.get id key =
      ((heap.owner? id key).bind fun owner => heap.own? owner key).map Binding.value := by
  have haround : ∀ id, heap.own? id key = none →
      heap.get id key = (heap.parent? id).bind (heap.get · key) := by
    intro id hown
    rw [Heap.get, hown]
    dsimp only
    split <;> simp_all
  induction id using chain_induction heap key with
  | own id binding hown =>
    rw [Heap.get, owner?_own hown]
    simp [hown]
  | root id hown hroot => rw [haround id hown, owner?_around hown, hroot]; rfl
  | parent id parent hown hparent ih =>
    rw [haround id hown, owner?_around hown, hparent]
    exact ih

/-- The walk brings the name to lowercase at every scope; a lowercase name stays as it is. -/
lemma kindOf_eq {name key : String} (hname : Text.lower name = key) :
    heap.kindOf id name =
      ((heap.owner? id key).bind fun owner => heap.own? owner key).map Binding.kind := by
  have haround : ∀ id name, Text.lower name = key → heap.own? id key = none →
      heap.kindOf id name = (heap.parent? id).bind (heap.kindOf · key) := by
    intro id name hname hown
    rw [Heap.kindOf, hname, hown]
    dsimp only
    split <;> simp_all
  induction id using chain_induction heap key generalizing name with
  | own id binding hown =>
    rw [Heap.kindOf, owner?_own hown, hname]
    simp [hown]
  | root id hown hroot => rw [haround id name hname hown, owner?_around hown, hroot]; rfl
  | parent id parent hown hparent ih =>
    rw [haround id name hname hown, owner?_around hown, hparent]
    exact ih (hname ▸ lower_lower name)

lemma release_eq {name key : String} (hname : Text.lower name = key) :
    heap.release id name = ((heap.owner? id key).map fun owner =>
      heap.modifyBindings owner (·.erase key)).getD heap := by
  have haround : ∀ id name, Text.lower name = key → heap.own? id key = none →
      heap.release id name = ((heap.parent? id).map (heap.release · key)).getD heap := by
    intro id name hname hown
    rw [Heap.release, hname, hown]
    dsimp only
    split <;> simp_all
  induction id using chain_induction heap key generalizing name with
  | own id binding hown =>
    rw [Heap.release, owner?_own hown, hname]
    simp [hown]
  | root id hown hroot => rw [haround id name hname hown, owner?_around hown, hroot]; rfl
  | parent id parent hown hparent ih =>
    rw [haround id name hname hown, owner?_around hown, hparent]
    exact ih (hname ▸ lower_lower name)

/-- Where the name has an owner the walk assigns there; else it gives the value back. -/
lemma assignExisting_eq {name key : String} (hname : Text.lower name = key) (value : Value) :
    heap.assignExisting id key name value =
      ((heap.owner? id key).map fun owner =>
        ((heap.assignOwn owner name value).1.map fun _ => none,
          (heap.assignOwn owner name value).2)).getD (.ok (some value), heap) := by
  have haround : ∀ id, heap.own? id key = none →
      heap.assignExisting id key name value = ((heap.parent? id).map fun parent =>
        heap.assignExisting parent key name value).getD (.ok (some value), heap) := by
    intro id hown
    rw [Heap.assignExisting, hown]
    dsimp only [Option.map_none]
    split <;> simp_all
  induction id using chain_induction heap key with
  | own id binding hown =>
    rw [Heap.assignExisting, owner?_own hown]
    obtain ⟨kind, _⟩ := binding
    cases kind <;> simp [Heap.assignOwn, hname, hown, Except.map]
  | root id hown hroot => rw [haround id hown, owner?_around hown, hroot]; rfl
  | parent id parent hown hparent ih =>
    rw [haround id hown, owner?_around hown, hparent]
    exact ih

/-- An assignment along the chain is one in the owner, or in the scope itself if there is none. -/
lemma assign_eq (name : String) (value : Value) :
    heap.assign id name value =
      heap.assignOwn ((heap.owner? id (Text.lower name)).getD id) name value := by
  unfold Heap.assign
  dsimp only
  rw [assignExisting_eq heap id rfl]
  cases howner : heap.owner? id (Text.lower name) with
  | none => simp [Heap.assignOwn, own?_of_owner?_none howner]
  | some owner =>
    obtain ⟨⟨kind, _⟩, hown⟩ := own?_of_owner? howner
    cases kind <;> simp [Heap.assignOwn, hown, Except.map]

end Walks

end XBase.Proofs
