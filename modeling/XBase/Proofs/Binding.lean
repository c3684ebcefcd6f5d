import XBase.Proofs.Deferral
import XBase.Proofs.Fence
import XBase.Proofs.Labels

/-!
# The binding of parameters

A call binds its parameters in a scope that is made for it, in two passes: first every parameter is
bound to its default, one after another, and then the arguments are written over the defaults from
left to right. A default may call anything, but no code that it reaches can change what is bound in
the scope of the call.
-/

noncomputable section

namespace XBase

/-- The name under which a scope has a parameter. -/
def Parameter.key (parameter : Parameter) : String :=
  Text.lower parameter.name.lexeme

namespace Proofs

section Names

variable {heap heap' : Heap} {id : ScopeId} {parameters : List Parameter} {values : List Value}
  {parameter : Parameter} {v : Value}

/-- A scope binds parameters to values, as variables, and binds nothing else. -/
structure HoldsExactly (heap : Heap) (id : ScopeId) (parameters : List Parameter)
    (values : List Value) : Prop where
  length : values.length = parameters.length
  here : ∀ (i : Nat) (parameter : Parameter) (v : Value), parameters[i]? = some parameter →
    values[i]? = some v → heap.own? id parameter.key = some ⟨.variable, v⟩
  only : ∀ key, (∀ parameter ∈ parameters, parameter.key ≠ key) → heap.own? id key = none

variable (h : HoldsExactly heap id parameters values)

include h

lemma HoldsExactly.same (hsame : heap'.scopes[id]? = heap.scopes[id]?) :
    HoldsExactly heap' id parameters values := by
  have hown : ∀ key, heap'.own? id key = heap.own? id key := by
    intro key
    rw [Heap.own?, Heap.own?, hsame]
  refine ⟨h.length, ?_, ?_⟩
  · intro i parameter v hparameter hv
    rw [hown]
    exact h.here i parameter v hparameter hv
  · intro key hkey
    rw [hown]
    exact h.only key hkey

lemma HoldsExactly.push (hid : id < heap.scopes.size)
    (hfresh : ∀ other ∈ parameters, other.key ≠ parameter.key) (v : Value) :
    HoldsExactly (heap.bind id parameter.key ⟨.variable, v⟩) id (parameters ++ [parameter])
      (values ++ [v]) := by
  refine ⟨by simp [h.length], ?_, ?_⟩
  · intro i found value hfound hvalue
    by_cases hi : i < parameters.length
    · rw [List.getElem?_append_left hi] at hfound
      rw [List.getElem?_append_left (by rw [h.length]; exact hi)] at hvalue
      rw [own?_bind_of_ne _ _ _ _ _ fun _ => (hfresh found (List.mem_of_getElem? hfound)).symm]
      exact h.here i found value hfound hvalue
    · have hlt := (List.getElem?_eq_some_iff.mp hfound).1
      rw [List.length_append, List.length_singleton] at hlt
      have hlast : i = parameters.length := by omega
      subst hlast
      rw [List.getElem?_concat_length] at hfound
      rw [← h.length, List.getElem?_concat_length] at hvalue
      cases hfound
      cases hvalue
      exact own?_bind_self _ _ _ _ hid
  · intro key hkey
    rw [own?_bind_of_ne _ _ _ _ _ fun _ => hkey parameter (by simp)]
    exact h.only key fun other hother => hkey other (List.mem_append_left _ hother)

lemma HoldsExactly.set (hid : id < heap.scopes.size) (hnames : (parameters.map Parameter.key).Nodup)
    {i : Nat} (hi : parameters[i]? = some parameter) (v : Value) :
    HoldsExactly (heap.bind id parameter.key ⟨.variable, v⟩) id parameters (values.set i v) := by
  refine ⟨by rw [List.length_set, h.length], ?_, ?_⟩
  · intro j found value hfound hvalue
    by_cases hj : i = j
    · subst hj
      rw [hi] at hfound
      cases hfound
      have hlt : i < values.length := by
        rw [h.length]
        exact (List.getElem?_eq_some_iff.mp hi).1
      rw [List.getElem?_set_self hlt] at hvalue
      cases hvalue
      exact own?_bind_self _ _ _ _ hid
    · rw [List.getElem?_set_ne hj] at hvalue
      have hne : parameter.key ≠ found.key := by
        intro hkey
        have hlt : i < (parameters.map Parameter.key).length := by
          rw [List.length_map]
          exact (List.getElem?_eq_some_iff.mp hi).1
        apply hj
        apply (List.getElem?_inj hlt hnames).mp
        rw [List.getElem?_map, List.getElem?_map, hi, hfound]
        exact congrArg some hkey
      rw [own?_bind_of_ne _ _ _ _ _ fun _ => hne]
      exact h.here j found value hfound hvalue
  · intro key hkey
    rw [own?_bind_of_ne _ _ _ _ _ fun _ => hkey parameter (List.mem_of_getElem? hi)]
    exact h.only key hkey

end Names

section Defaults

variable {c : Config} {id : ScopeId} {levels : Nat}

variable {hhost : DataOnly c.host} {hid : 0 ≠ id} {m m' m'' : Machine} {v : Value}

end Defaults

section Arguments

variable {parameters : List Parameter} {position i j : Nat} {argument : ArgumentValue}
  {arguments others : List ArgumentValue} {c : Config} {m : Machine} {id : ScopeId}

end Arguments

lemma Beside.inHand {c : Config} {id : ScopeId} {hhost : DataOnly c.host} {hid : 0 ≠ id}
    {m : Machine} (h : Beside hhost hid m) (values : List Value) :
    Beside hhost hid (inHand values m) := by
  obtain ⟨scope, hscope, hm⟩ := h
  exact ⟨scope, hscope, hm.heap, hm.keep, hm.home, hm.session⟩

end Proofs

end XBase

end
