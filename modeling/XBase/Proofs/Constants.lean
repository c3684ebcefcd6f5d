import XBase.Proofs.History

/-!
# Constants last

A name that is bound as a constant keeps its value for the rest of the session. Nothing that a
program does binds it anew; only a `release` that resolves the name to its scope takes it away.
-/

namespace XBase.Proofs

section Heaps

variable (heap : Heap) (id owner : ScopeId) (key : String)

lemma own?_modifyBindings (f : Std.TreeMap String Binding → Std.TreeMap String Binding) :
    (heap.modifyBindings owner f).own? id key =
      if owner = id then (heap.scopes[id]?).bind fun scope => (f scope.bindings)[key]?
      else heap.own? id key := by
  unfold Heap.own? Heap.modifyBindings
  rw [Array.getElem?_modify]
  split
  · rw [Option.bind_map]
    rfl
  · rfl

lemma parent?_modifyBindings (f : Std.TreeMap String Binding → Std.TreeMap String Binding) :
    (heap.modifyBindings owner f).parent? id = heap.parent? id := by
  unfold Heap.parent? Heap.modifyBindings
  rw [Array.getElem?_modify]
  split
  · rw [Option.bind_map]
    rfl
  · rfl

lemma own?_bind_of_ne {other : String} (binding : Binding) (h : owner = id → other ≠ key) :
    (heap.bind owner other binding).own? id key = heap.own? id key := by
  unfold Heap.bind
  rw [own?_modifyBindings]
  split
  · next hid =>
    simp [Std.TreeMap.getElem?_insert, h hid, Heap.own?]
  · rfl

lemma own?_bind_self (binding : Binding) (h : id < heap.scopes.size) :
    (heap.bind id key binding).own? id key = some binding := by
  unfold Heap.bind
  rw [own?_modifyBindings, if_pos rfl, Array.getElem?_eq_getElem h]
  simp

lemma own?_erase (other : String) :
    (heap.modifyBindings owner (·.erase other)).own? id key =
      if owner = id ∧ other = key then none else heap.own? id key := by
  rw [own?_modifyBindings]
  by_cases hid : owner = id
  · by_cases hkey : other = key
    · simp [hid, hkey]
    · simp [hid, hkey, Std.TreeMap.getElem?_erase, Heap.own?]
  · simp [hid]

/-- A release takes a name from its owner and leaves all other bindings alone. -/
lemma own?_release (start : ScopeId) (name : String) :
    (heap.release start name).own? id key =
      if Text.lower name = key ∧ heap.owner? start key = some id then none
      else heap.own? id key := by
  rw [release_eq heap start rfl]
  cases h : heap.owner? start (Text.lower name) with
  | none =>
    rw [Option.map_none, Option.getD_none, if_neg]
    rintro ⟨rfl, howner⟩
    rw [h] at howner
    cases howner
  | some owner =>
    rw [Option.map_some, Option.getD_some, own?_erase]
    have hiff : (owner = id ∧ Text.lower name = key) ↔
        (Text.lower name = key ∧ heap.owner? start key = some id) := by
      constructor
      · rintro ⟨rfl, rfl⟩
        exact ⟨rfl, h⟩
      · rintro ⟨rfl, howner⟩
        rw [h] at howner
        cases howner
        exact ⟨rfl, rfl⟩
    simp only [hiff]

/-- Whether the release of some names from a scope on, from left to right, resolves one of them to
the scope `id` that binds it. -/
def Takes (id : ScopeId) (key : String) (start : ScopeId) : Heap → List Token → Prop
  | _, [] => False
  | heap, target :: targets =>
    (Text.lower target.lexeme = key ∧ heap.owner? start key = some id) ∨
      Takes id key start (heap.release start target.lexeme) targets

lemma own?_releaseAll (start : ScopeId) (targets : List Token) :
    (Takes id key start heap targets ∧ (releaseAll heap start targets).own? id key = none) ∨
      (releaseAll heap start targets).own? id key = heap.own? id key := by
  induction targets generalizing heap with
  | nil => exact .inr rfl
  | cons target targets ih =>
    have hfirst := own?_release heap id key start target.lexeme
    change (_ ∧ (releaseAll (heap.release start target.lexeme) start targets).own? id key = none) ∨
      (releaseAll (heap.release start target.lexeme) start targets).own? id key = _
    rcases ih (heap.release start target.lexeme) with ⟨htakes, hnone⟩ | hrest
    · exact .inl ⟨.inr htakes, hnone⟩
    · rw [hrest, hfirst]
      split
      · next h => exact .inl ⟨.inl h, rfl⟩
      · exact .inr rfl

end Heaps

section Moments

variable {id : ScopeId} {key : String} {value : Value}

lemma edit_constant {heap heap' : Heap} (h : Edit heap heap')
    (hbound : heap.own? id key = some ⟨.constant, value⟩) :
    heap'.own? id key = some ⟨.constant, value⟩ := by
  cases h with
  | @bind owner other binding h =>
    rw [own?_bind_of_ne heap id owner key binding, hbound]
    rintro rfl rfl
    simp [hbound] at h
  | newScope parent =>
    have hsome : id ≠ heap.scopes.size := by
      rintro rfl
      simp [Heap.own?] at hbound
    unfold Heap.own? Heap.newScope
    rw [Array.getElem?_push, if_neg hsome]
    exact hbound
  | _ => exact hbound

lemma change_constant {m m' : Machine} (h : Change m m')
    (hbound : m.heap.own? id key = some ⟨.constant, value⟩) :
    m'.heap.own? id key = some ⟨.constant, value⟩ := by
  cases h with
  | mk heap line log session readings hedits =>
    induction hedits with
    | refl => exact hbound
    | tail _ hedit ih => exact edit_constant hedit ih

/-- Every transition keeps a constant, except a `release` that takes it away. -/
lemma transition_constant {limits : Limits} {m m' : Machine} {event : Event}
    (h : Transition limits m event m') (hbound : m.heap.own? id key = some ⟨.constant, value⟩) :
    m'.heap.own? id key = some ⟨.constant, value⟩ ∨
      ∃ targets, event = .released targets ∧ Takes id key m.scope m.heap targets ∧
        m'.heap.own? id key = none := by
  cases h with
  | acted h => exact .inl (change_constant h hbound)
  | released targets =>
    rcases own?_releaseAll m.heap id key m.scope targets with ⟨htakes, hnone⟩ | hkept
    · exact .inr ⟨targets, rfl, htakes, hnone⟩
    · exact .inl (hkept.trans hbound)
  | _ => exact .inl hbound

/-- Some `release` statement among the moments takes a name away from a scope. -/
def Released (id : ScopeId) (key : String) (m : Machine) (moments : List Moment) : Prop :=
  ∃ before targets after rest, moments = before ++ ⟨.released targets, after⟩ :: rest ∧
    Takes id key (finish m before).scope (finish m before).heap targets ∧
    after.heap.own? id key = none

lemma path_constant {limits : Limits} (m : Machine) (moments : List Moment)
    (hpath : Path limits m moments) (hbound : m.heap.own? id key = some ⟨.constant, value⟩) :
    (finish m moments).heap.own? id key = some ⟨.constant, value⟩ ∨ Released id key m moments := by
  induction moments generalizing m with
  | nil => exact .inl hbound
  | cons moment moments ih =>
    rcases transition_constant hpath.1 hbound with hkept | ⟨targets, hevent, htakes, hnone⟩
    · rcases ih moment.machine hpath.2 hkept with hlast | ⟨before, targets, after, rest, rfl, hrest⟩
      · exact .inl hlast
      · exact .inr ⟨moment :: before, targets, after, rest, rfl, hrest⟩
    · refine .inr ⟨[], targets, moment.machine, moments, ?_, htakes, hnone⟩
      rw [← hevent]
      rfl

end Moments

/-- Once a scope binds a name as a constant, it binds the name to the same value for as long as the
session lasts, unless a `release` statement in between resolves the name to this scope and takes it
away. -/
theorem constants_last (session : Session) (sources : List String) :
    finish (current session) (history session sources) = current (runAll session sources) ∧
    ∀ (earlier between : List Moment) (id : ScopeId) (key : String) (value : Value),
      earlier ++ between <+: history session sources →
      (finish (current session) earlier).heap.own? id key = some ⟨.constant, value⟩ →
      (finish (current session) (earlier ++ between)).heap.own? id key = some ⟨.constant, value⟩ ∨
        Released id key (finish (current session) earlier) between := by
  obtain ⟨hpath, hfinish⟩ := history_leads session sources
  refine ⟨hfinish, ?_⟩
  intro earlier between id key value hinitial hbound
  have hbetween := ((path_append _ earlier between).mp (path_initial hpath hinitial)).2
  rw [finish_append]
  exact path_constant _ between hbetween hbound

def declared : Session :=
  runAll (Session.new ⟨⟨none, 2⟩, bareHost⟩ ⟨fun _ => .error "", 0⟩ "") ["const a = null"]

/-- A declared constant after an assignment to it and after the release of another name. -/
theorem declared_constant_lasts :
    let sources := ["a = true", "release b"]
    let m := current declared
    ∃ value, m.heap.own? m.globals "a" = some ⟨.constant, value⟩ ∧
      ((current (runAll declared sources)).heap.own? m.globals "a" = some ⟨.constant, value⟩ ∨
        Released m.globals "a" m (history declared sources)) := by
  intro sources m
  have hkind : (m.heap.own? m.globals "a").map Binding.kind = some .constant := by decide +kernel
  obtain ⟨⟨kind, value⟩, hbound, hconstant⟩ := Option.map_eq_some_iff.mp hkind
  cases hconstant
  obtain ⟨hfinish, hlast⟩ := constants_last declared sources
  have h := hlast [] (history declared sources) m.globals "a" value (List.prefix_refl _) hbound
  rw [List.nil_append, hfinish] at h
  exact ⟨value, hbound, h⟩

end XBase.Proofs
