import XBase.Proofs.History
import XBase.Proofs.Rendering

/-!
# A budget ends every run

With a budget of steps every unit comes to an end: it succeeds or it fails with a runtime error.
The loops and the calls of the evaluator are bounded, but under a budget no run reaches these
bounds. A loop would have to count more steps than the budget has, and a call would have to be
nested deeper than the limit of the depth.
-/

namespace XBase.Proofs

lemma steps_preserved : Preserved fun m m' => m.steps ≤ m'.steps where
  refl _ := Nat.le_refl _
  trans _ _ _ := Nat.le_trans
  change _ _ h := Nat.le_of_eq (change_steps h).symm
  count m := Nat.le_succ m.steps
  release m _ := Nat.le_refl m.steps
  within _ _ _ h := h
  holding _ _ _ h := h
  deeper _ _ h := h

lemma transition_steps_le {limits : Limits} {budget : Nat} (hbudget : limits.maxSteps = some budget)
    {m m' : Machine} {event : Event} (h : Transition limits m event m')
    (hm : m.steps ≤ budget + 1) : m'.steps ≤ budget + 1 := by
  cases h with
  | acted h =>
    rw [change_steps h]
    exact hm
  | counted h => exact Nat.succ_le_succ (h budget hbudget)
  | began _ => exact Nat.zero_le _
  | _ => exact hm

lemma leads_steps_le {limits : Limits} {budget : Nat} (hbudget : limits.maxSteps = some budget)
    {m : Machine} {moments : List Moment} {α : Type} {outcome : Except Halt α × Machine}
    (h : Leads limits m moments outcome) (hm : Affordable limits m) :
    outcome.2.steps ≤ budget + 1 := by
  rw [← h.finish_eq]
  exact path_invariant (fun _ _ _ => transition_steps_le hbudget) m moments h.path
    (Nat.le_succ_of_le (hm budget hbudget))

/-- An action gives up only after it has counted as many steps as its composition has rounds, if
its calls do not give up. -/
lemma composition_gives_up {c : Config} {levels depth : Nat}
    (hcalls : ∀ id site arguments m, m.depth = depth → Affordable c.limits m →
      (Run.invoke levels id site arguments c m).1 ≠ .error .exhausted)
    {rounds : Nat} {α : Type} {x : Invocation → Run α} (d : Composition rounds x) (m : Machine)
    (hdepth : m.depth = depth) (hm : Affordable c.limits m)
    (h : (x (Run.invoke levels) c m).1 = .error .exhausted) :
    m.steps + rounds ≤ (x (Run.invoke levels) c m).2.steps := by
  have hkept := invoke_preserves kept_preserved c levels
  have hsteps := invoke_preserves steps_preserved c levels
  have hleads := callTrace_leads (respected_self c) levels
  induction d generalizing m with
  | atom hx => exact (hx.halts c m .exhausted h).elim
  | giveUp => exact Nat.le_refl m.steps
  | step token d ih =>
    dsimp only at h ⊢
    rcases step_cases token c m with ⟨hs, hb⟩ | ⟨_, _, _, hs⟩
    · rw [bind_ok hs] at h ⊢
      have hd := ih { m with steps := m.steps + 1 } hdepth hb h
      dsimp only at hd
      omega
    · rw [bind_error hs] at h
      cases h
  | release targets => cases h
  | @bind _ _ _ x f d e ihd ihe =>
    dsimp only at h ⊢
    have hd := ihd m hdepth hm
    have hgrow := composition_preserves steps_preserved hsteps d m
    have hk := composition_preserves kept_preserved hkept d m
    have hl := trace_leads (respected_self c) hkept hleads d m hm
    rcases hx : x (Run.invoke levels) c m with ⟨why | a, m'⟩
    · rw [bind_error hx] at h ⊢
      rw [hx] at hd
      cases h
      exact hd rfl
    · rw [bind_ok hx] at h ⊢
      rw [hx] at hgrow hk hl
      have he := ihe a m' (hk.depth.trans hdepth) (hl.affordable a rfl) h
      exact Nat.le_trans (Nat.add_le_add_right hgrow _) he
  | within id d ih => exact ih { m with scope := id, saved := m.scope :: m.saved } hdepth hm h
  | holding cells d ih => exact ih { m with held := cells ++ m.held } hdepth hm h
  | call id site arguments => exact (hcalls id site arguments m hdepth hm h).elim
  | weaken hle d ih => exact Nat.le_trans (Nat.add_le_add_left hle m.steps) (ih m hdepth hm h)

lemma callFunction_ends {c : Config} {invoke : Invocation} (id : FunctionId) (site : CallSite)
    (arguments : List ArgumentValue) (m : Machine)
    (henter : m.depth < c.limits.maxDepth → ∀ closure,
      (Run.enter invoke closure site arguments c
        { recorded closure arguments m with depth := m.depth + 1 }).1 ≠ .error .exhausted) :
    (Run.callFunction invoke id site arguments c m).1 ≠ .error .exhausted := by
  cases h : m.heap.functions[id]? with
  | none =>
    rw [callFunction_none h]
    simp
  | some closure =>
    by_cases hdepth : c.limits.maxDepth ≤ m.depth
    · rw [callFunction_refused h hdepth]
      simp
    · have hlt := Nat.lt_of_not_le hdepth
      rw [callFunction_entered h hlt]
      exact henter hlt closure

section Ending

variable {c : Config} {budget : Nat} (hbudget : c.limits.maxSteps = some budget)
  (hrounds : budget + 1 < Signal.maxRounds)

include hbudget hrounds

/-- A budget below the rounds of a loop ends an action before it gives up. -/
lemma composition_ends {levels depth : Nat}
    (hcalls : ∀ id site arguments m, m.depth = depth → Affordable c.limits m →
      (Run.invoke levels id site arguments c m).1 ≠ .error .exhausted)
    {α : Type} {x : Invocation → Run α} (d : Composition Signal.maxRounds x) (m : Machine)
    (hdepth : m.depth = depth) (hm : Affordable c.limits m) :
    (x (Run.invoke levels) c m).1 ≠ .error .exhausted := by
  intro h
  have hkept := invoke_preserves kept_preserved c levels
  have hleads := callTrace_leads (respected_self c) levels
  have hlong := composition_gives_up hcalls d m hdepth hm h
  have hshort := leads_steps_le hbudget (trace_leads (respected_self c) hkept hleads d m hm) hm
  omega

lemma invoke_ends (levels : Nat) (id : FunctionId) (site : CallSite)
    (arguments : List ArgumentValue) (m : Machine)
    (hlevels : c.limits.maxDepth ≤ m.depth + levels) (hm : Affordable c.limits m) :
    (Run.invoke levels id site arguments c m).1 ≠ .error .exhausted := by
  induction levels generalizing id site arguments m with
  | zero =>
    refine callFunction_ends id site arguments m fun hlt => ?_
    omega
  | succ levels ih =>
    refine callFunction_ends id site arguments m fun hlt closure => ?_
    refine composition_ends hbudget hrounds ?_ (enterComposition closure site arguments) _ rfl hm
    intro id site arguments m' hm' hafford
    refine ih id site arguments m' ?_ hafford
    rw [hm']
    change c.limits.maxDepth ≤ m.depth + 1 + levels
    omega

end Ending

/-- With a budget of steps, every unit ends with success or with a runtime error, the steps never
pass the budget by more than one, and no text of a value is cut short by the bound on its
nesting. -/
theorem unit_ends_within_budget (c : Config) (budget : Nat)
    (hbudget : c.limits.maxSteps = some budget) (hsmall : budget < Nat.pow 2 64 - 1)
    (program : List Stmt) (m : Machine) :
    ((Run.unit program c m).1 = .ok () ∨
      ∃ error, (Run.unit program c m).1 = .error (.failure error)) ∧
    finish m (unitTrace program c m) = (Run.unit program c m).2 ∧
    (∀ earlier, earlier <+: statementsTrace program c m →
      (finish (begun program m) earlier).steps ≤ budget + 1) ∧
    ∀ (heap : Heap) (value : Value) (extra : Nat),
      heap.render (heap.containers + 1 + extra) [] value = heap.text value := by
  have hrounds : budget + 1 < Signal.maxRounds := by
    unfold Signal.maxRounds
    omega
  have hbegun : Affordable c.limits (begun program m) := fun budget _ => Nat.zero_le budget
  have hleads := statementsTrace_leads program c m (respected_self c)
  refine ⟨?_, (unitTrace_leads program c m (respected_self c)).finish_eq, ?_, render_eq_text⟩
  · have hcalls : ∀ id site arguments m', m'.depth = (begun program m).depth →
        Affordable c.limits m' →
        (Run.invoke c.limits.maxDepth id site arguments c m').1 ≠ .error .exhausted :=
      fun id site arguments m' _ hm' =>
        invoke_ends hbudget hrounds _ id site arguments m' (Nat.le_add_left _ _) hm'
    have hends := composition_ends hbudget hrounds hcalls (statementsComposition program)
      (begun program m) rfl hbegun
    rw [← unit_eq] at hends
    rcases hunit : (Run.unit program c m).1 with why | value
    · cases why with
      | failure error => exact .inr ⟨error, rfl⟩
      | exhausted => exact absurd hunit hends
    · exact .inl rfl
  · intro earlier he
    exact path_invariant (fun _ _ _ => transition_steps_le hbudget) _ earlier
      (path_initial hleads.path he) (Nat.zero_le _)

/-- A function that calls itself without end comes to its end under a budget of a hundred steps. -/
theorem runaway_ends_within_budget :
    let c : Config := ⟨⟨some 100, 1000⟩, bareHost⟩
    let m := Machine.start bareHost
    100 < Nat.pow 2 64 - 1 ∧
      ((Run.unit runaway c m).1 = .ok () ∨
        ∃ error, (Run.unit runaway c m).1 = .error (.failure error)) := by
  intro c m
  have hsmall : 100 < Nat.pow 2 64 - 1 := by decide
  exact ⟨hsmall, (unit_ends_within_budget c 100 rfl hsmall runaway m).1⟩

end XBase.Proofs
