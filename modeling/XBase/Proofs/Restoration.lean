import XBase.Proofs.History

/-!
# Scope and depth are restored

Whatever a program executes, and however the execution ends, it goes back to the scope and to the
call depth that it started from. In between, the depth counts the calls that are under way, and it
never passes the limit.
-/

noncomputable section

namespace XBase.Proofs

/-- The level of nested calls after a transition. -/
def levelAfter (level : Int) : Event → Int
  | .called => level + 1
  | .returned => level - 1
  | .began => 0
  | _ => level

def nesting (level : Int) (moments : List Moment) : Int :=
  moments.foldl (fun level moment => levelAfter level moment.event) level

lemma transition_depth {limits : Limits} {m m' : Machine} {event : Event}
    (h : Transition limits m event m') : (m'.depth : Int) = levelAfter m.depth event := by
  cases h with
  | acted h =>
    cases h
    rfl
  | returned h =>
    change ((m.depth - 1 : Nat) : Int) = m.depth - 1
    omega
  | _ => rfl

/-- Along a path the depth is the level of nested calls. -/
lemma path_depth {limits : Limits} (m : Machine) (moments : List Moment)
    (hpath : Path limits m moments) :
    ((finish m moments).depth : Int) = nesting m.depth moments := by
  induction moments generalizing m with
  | nil => rfl
  | cons moment moments ih =>
    rw [finish_cons, ih moment.machine hpath.2, transition_depth hpath.1]
    rfl

lemma transition_depth_le {limits : Limits} {m m' : Machine} {event : Event}
    (h : Transition limits m event m') (hm : m.depth ≤ limits.maxDepth) :
    m'.depth ≤ limits.maxDepth := by
  cases h with
  | acted h =>
    cases h
    exact hm
  | called h => exact h
  | returned _ => exact Nat.le_trans (Nat.sub_le _ _) hm
  | began _ => exact Nat.zero_le _
  | _ => exact hm

/-- From the first moment to the last, the calls under way are counted and within the limit. -/
structure StaysShallow (limits : Limits) (m : Machine) (moments : List Moment) (after : Machine) :
    Prop where
  ends : finish m moments = after
  counted : ∀ earlier, earlier <+: moments →
    ((finish m earlier).depth : Int) = nesting m.depth earlier
  bounded : ∀ earlier, earlier <+: moments →
    0 ≤ nesting m.depth earlier ∧ nesting m.depth earlier ≤ limits.maxDepth

lemma staysShallow_of_leads {limits : Limits} {m : Machine} {moments : List Moment} {α : Type}
    {outcome : Except Halt α × Machine} (h : Leads limits m moments outcome)
    (hm : m.depth ≤ limits.maxDepth) : StaysShallow limits m moments outcome.2 := by
  refine ⟨h.finish_eq, fun earlier he => path_depth m earlier (path_initial h.path he), ?_⟩
  intro earlier he
  have hpath := path_initial h.path he
  have hle : (finish m earlier).depth ≤ limits.maxDepth :=
    path_invariant (fun _ _ _ => transition_depth_le) m earlier hpath hm
  rw [← path_depth m earlier hpath]
  omega

/-- The budget plays no part in how deep calls are nested. -/
lemma respected_depth (c : Config) : Respected ⟨none, c.limits.maxDepth⟩ c :=
  ⟨rfl, by simp⟩

/-- Every execution of an expression, a statement, a block or a call ends in the scope and at the
depth in which it started, and never nests calls deeper than allowed. A unit ends in the global
scope at depth zero. -/
theorem runs_restore_scope_and_depth (c : Config) :
    (∀ (task : Task) (levels : Nat) (m : Machine),
      (task.run levels c m).2.scope = m.scope ∧ (task.run levels c m).2.depth = m.depth ∧
        (m.depth ≤ c.limits.maxDepth →
          StaysShallow c.limits m (task.trace levels c m) (task.run levels c m).2)) ∧
    ∀ (program : List Stmt) (m : Machine),
      (Run.unit program c m).2.globals = m.globals ∧ (Run.unit program c m).2.scope = m.globals ∧
        (Run.unit program c m).2.depth = 0 ∧
        StaysShallow c.limits (begun program m) (statementsTrace program c m)
          (Run.unit program c m).2 := by
  constructor
  · intro task levels m
    have hkept := task_preserves kept_preserved task levels c m
    refine ⟨hkept.scope, hkept.depth, fun hm => ?_⟩
    have hleads := task_leads (respected_depth c) task levels m (fun _ h => by cases h)
    obtain ⟨ends, counted, bounded⟩ := staysShallow_of_leads hleads hm
    exact ⟨ends, counted, bounded⟩
  · intro program m
    have hkept := unit_preserves program c m kept_preserved
    have hleads := statementsTrace_leads program c m (respected_depth c)
    obtain ⟨ends, counted, bounded⟩ := staysShallow_of_leads hleads (Nat.zero_le _)
    exact ⟨hkept.globals, hkept.scope, hkept.depth, ends, counted, bounded⟩

/-- A function that calls itself without end stays within two levels of calls. -/
theorem runaway_stays_shallow :
    let c : Config := ⟨⟨none, 2⟩, bareHost⟩
    let m := Machine.start bareHost
    m.depth ≤ 2 ∧
      StaysShallow c.limits m ((Task.block runaway).trace 2 c m)
        ((Task.block runaway).run 2 c m).2 := by
  intro c m
  have hm : m.depth ≤ 2 := Nat.zero_le 2
  exact ⟨hm, ((runs_restore_scope_and_depth c).1 (.block runaway) 2 m).2.2 hm⟩

end XBase.Proofs

end
