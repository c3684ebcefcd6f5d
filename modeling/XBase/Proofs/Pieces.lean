import XBase.Proofs.History

/-!
# Programs in pieces

A program can be run as one unit or in two units, one after the other. Without a budget of steps
both are the same, as long as the first piece does not end with a `return`: what a unit resets when
it begins is where the unit before has left it, and what was counted, printed and recorded before
plays no part in how a run goes on.
-/

noncomputable section

namespace XBase.Proofs

section Runs

variable {c : Config} {α : Type}

lemma forgetful_within (id : ScopeId) {x : Run α} (hx : Forgetful c x) :
    Forgetful c (Run.within id x) := by
  intro m past
  let inside : Machine := { m with scope := id, saved := m.scope :: m.saved }
  change ((x c (withPast past inside)).1,
    { (x c (withPast past inside)).2 with scope := m.scope, saved := m.saved }) = _
  rw [hx inside past]
  rfl

lemma forgetful_deeper (token : Token) {x : Run α} (hx : Forgetful c x) :
    Forgetful c (Run.deeper token x) := by
  intro m past
  unfold Run.deeper
  by_cases hdepth : c.limits.maxDepth ≤ m.depth
  · have hdepth' : c.limits.maxDepth ≤ (withPast past m).depth := hdepth
    rw [if_pos hdepth, if_pos hdepth']
  · have hdepth' : ¬c.limits.maxDepth ≤ (withPast past m).depth := hdepth
    let inside : Machine := { m with depth := m.depth + 1 }
    rw [if_neg hdepth, if_neg hdepth']
    change ((x c (withPast past inside)).1,
      { (x c (withPast past inside)).2 with depth := (x c (withPast past inside)).2.depth - 1 }) = _
    rw [hx inside past]
    rfl

lemma forgetful_step (hbudget : c.limits.maxSteps = none) (token : Token) :
    Forgetful c (Run.step token) := by
  intro m past
  have hstep : ∀ m, Run.step token c m = (.ok (), { m with steps := m.steps + 1 }) := by
    intro m
    rcases step_cases token c m with ⟨hs, _⟩ | ⟨budget, hb, _, _⟩
    · exact hs
    · rw [hbudget] at hb
      cases hb
  rw [hstep, hstep]
  rfl

/-- An action without a budget does not see the past, if the calls in it do not. -/
lemma composition_forgetful (hbudget : c.limits.maxSteps = none) {invoke : Invocation}
    (hcalls : ∀ id site arguments, Forgetful c (invoke id site arguments)) {rounds : Nat}
    {x : Invocation → Run α} (d : Composition rounds x) : Forgetful c (x invoke) := by
  induction d with
  | atom h => exact h.past c
  | giveUp => exact fun _ _ => rfl
  | step token d ih => exact forgetful_bind (forgetful_step hbudget token) fun _ => ih
  | release targets => exact fun _ _ => rfl
  | bind d e ihd ihe => exact forgetful_bind ihd ihe
  | within id d ih => exact forgetful_within id ih
  | holding cells d ih => exact forgetful_holdingCells cells ih
  | call id site arguments => exact hcalls id site arguments
  | weaken h d ih => exact ih

lemma callFunction_forgetful (hbudget : c.limits.maxSteps = none) {invoke : Invocation}
    (hcalls : ∀ id site arguments, Forgetful c (invoke id site arguments)) (id : FunctionId)
    (site : CallSite) (arguments : List ArgumentValue) :
    Forgetful c (Run.callFunction invoke id site arguments) := by
  intro m past
  cases h : m.heap.functions[id]? with
  | none =>
    have h' : (withPast past m).heap.functions[id]? = none := h
    rw [callFunction_none h, callFunction_none h']
  | some closure =>
    have h' : (withPast past m).heap.functions[id]? = some closure := h
    have hrecorded : recorded closure arguments (withPast past m) =
        withPast past (recorded closure arguments m) := by
      simp only [recorded, withPast, Array.push_append]
    have hbody := composition_forgetful hbudget hcalls (enterComposition closure site arguments)
    rw [callFunction_some h, callFunction_some h', hrecorded]
    exact forgetful_deeper site.token hbody (recorded closure arguments m) past

lemma invoke_forgetful (hbudget : c.limits.maxSteps = none) (levels : Nat) (id : FunctionId)
    (site : CallSite) (arguments : List ArgumentValue) :
    Forgetful c (Run.invoke levels id site arguments) := by
  revert id site arguments
  refine invoke_induction (P := fun invoke _ =>
    ∀ id site arguments, Forgetful c (invoke id site arguments)) ?_ ?_ levels
  · exact fun _ _ _ _ _ => rfl
  · intro invoke _ hcalls
    exact callFunction_forgetful hbudget hcalls

end Runs

def Returned : Except Halt Signal → Prop
  | .ok (.returned _) => True
  | .ok .normal | .ok .looped | .ok .exited | .error _ => False

instance (result : Except Halt Signal) : Decidable (Returned result) :=
  match result with
  | .ok (.returned _) => inferInstanceAs (Decidable True)
  | .ok .normal | .ok .looped | .ok .exited | .error _ => inferInstanceAs (Decidable False)

/-- A unit that ends with a `return` of its own. -/
def ReturnsAtTop (program : List Stmt) (c : Config) (m : Machine) : Prop :=
  Returned (Stmt.execAll (Run.invoke c.limits.maxDepth) program c (begun program m)).1

instance (program : List Stmt) (c : Config) (m : Machine) :
    Decidable (ReturnsAtTop program c m) :=
  inferInstanceAs (Decidable (Returned _))

section Statements

variable {call : Invocation} {c : Config} {m m' : Machine} {first : List Stmt}

/-- Statements that all end normally are followed by the rest of the unit. -/
lemma statements_append (rest : List Stmt)
    (h : Stmt.execAll call first c m = (.ok .normal, m')) :
    Run.statements call (first ++ rest) c m = Run.statements call rest c m' := by
  induction first generalizing m with
  | nil =>
    cases h
    rfl
  | cons statement others ih =>
    rw [Stmt.execAll] at h
    rw [List.cons_append, Run.statements]
    rcases hs : statement.exec call c m with ⟨why | signal, after⟩
    · rw [bind_error hs] at h
      cases h
    · rw [bind_ok hs] at h ⊢
      cases signal with
      | normal => exact ih h
      | returned | looped | exited => cases h

/-- A unit that succeeds either has only statements that end normally or ends with a `return`. -/
lemma execAll_of_statements (hok : (Run.statements call first c m).1 = .ok ())
    (hreturn : ¬Returned (Stmt.execAll call first c m).1) :
    ∃ m', Stmt.execAll call first c m = (.ok .normal, m') := by
  induction first generalizing m with
  | nil => exact ⟨m, rfl⟩
  | cons statement others ih =>
    rw [Run.statements] at hok
    rw [Stmt.execAll] at hreturn ⊢
    rcases hs : statement.exec call c m with ⟨why | signal, after⟩
    · rw [bind_error hs] at hok
      cases hok
    · rw [bind_ok hs] at hok hreturn ⊢
      cases signal with
      | normal => exact ih hok hreturn
      | returned value => exact absurd trivial hreturn
      | looped | exited => cases hok

end Statements

section Units

/-- The machine in which a unit begins, without a past. -/
def fresh (m : Machine) : Machine :=
  { m with
    steps := 0
    output := ""
    log := #[]
    depth := 0
    scope := m.globals
    saved := []
    held := [] }

/-- What was printed and recorded when a unit begins. -/
def pastOf (program : List Stmt) (m : Machine) : Past where
  steps := 0
  output := m.output
  log := m.log.push ⟨.debug, "interpreting " ++ toString program.length ++ " statements"⟩

lemma begun_eq (program : List Stmt) (m : Machine) :
    begun program m = withPast (pastOf program m) (fresh m) := by
  simp [begun, withPast, pastOf, fresh]

/-- A machine between two statements of a unit. -/
structure AtTop (m : Machine) : Prop where
  depth : m.depth = 0
  scope : m.scope = m.globals
  saved : m.saved = []
  held : m.held = []

/-- Between two statements of a unit a machine is one in which a unit may begin. -/
lemma eq_withPast_fresh {m : Machine} (h : AtTop m) :
    m = withPast ⟨m.steps, m.output, m.log⟩ (fresh m) := by
  obtain ⟨hdepth, hscope, hsaved, hheld⟩ := h
  cases m
  simp_all [withPast, fresh]

variable {c : Config} (hbudget : c.limits.maxSteps = none)

include hbudget

/-- A unit goes the same way whatever the past is. -/
lemma unit_eq_fresh (program : List Stmt) (m : Machine) :
    let run := Run.statements (Run.invoke c.limits.maxDepth) program c (fresh m)
    Run.unit program c m = (run.1, withPast (pastOf program m) run.2) := by
  have hcalls := invoke_forgetful hbudget c.limits.maxDepth
  rw [unit_eq, begun_eq]
  exact composition_forgetful hbudget hcalls (statementsComposition program) (fresh m) _

/-- The machine at the end of a piece, without the past of the piece. -/
lemma exists_seam {program : List Stmt} {m : Machine} (hok : (Run.unit program c m).1 = .ok ())
    (hreturn : ¬ReturnsAtTop program c m) :
    ∃ seam, AtTop seam ∧
      Stmt.execAll (Run.invoke c.limits.maxDepth) program c (fresh m) = (.ok .normal, seam) := by
  have hcalls := invoke_forgetful hbudget c.limits.maxDepth
  have hkept := composition_preserves kept_preserved
    (invoke_preserves kept_preserved c c.limits.maxDepth) (execAllComposition program) (fresh m)
  have hforget := composition_forgetful hbudget hcalls (execAllComposition program) (fresh m)
    (pastOf program m)
  rw [unit_eq] at hok
  obtain ⟨m', hnormal⟩ := execAll_of_statements hok hreturn
  rw [begun_eq, hforget] at hnormal
  have hsignal := congrArg Prod.fst hnormal
  refine ⟨_, ⟨hkept.depth, ?_, hkept.saved, hkept.held⟩, Prod.ext hsignal rfl⟩
  rw [hkept.scope, hkept.globals]
  rfl

end Units

/-- Without a budget, a program that is run as one unit has the outcome, the output and the heap of
its two pieces run as two units, unless the first one fails or ends with a `return`. The machines
differ only in their records and in the steps, which the two units count for themselves. It does not
matter either whether the output of the first unit is taken away before the second one, as a session
does. -/
theorem unit_runs_in_pieces (c : Config) (hbudget : c.limits.maxSteps = none) (m : Machine)
    (p q : List Stmt) (hok : (Run.unit p c m).1 = .ok ())
    (hreturn : ¬ReturnsAtTop p c m) :
    let first := Run.unit p c m
    let second := Run.unit q c first.2
    let taken := Run.unit q c { first.2 with output := "", log := #[] }
    let whole := Run.unit (p ++ q) c m
    (whole.1 = second.1 ∧ whole.2.output = second.2.output ∧ whole.2.heap = second.2.heap ∧
      whole.2 = { second.2 with steps := first.2.steps + second.2.steps, log := whole.2.log }) ∧
    (whole.1 = taken.1 ∧ whole.2.output = first.2.output ++ taken.2.output ∧
      whole.2.heap = taken.2.heap) := by
  intro first second taken whole
  obtain ⟨seam, htop, hseam⟩ := exists_seam hbudget hok hreturn
  let invoke := Run.invoke c.limits.maxDepth
  let rest := Run.statements invoke q c (fresh seam)
  have hcalls := invoke_forgetful hbudget c.limits.maxDepth
  have hforget := composition_forgetful hbudget hcalls (statementsComposition q) (fresh seam)
  have hfirst : first = (.ok (), withPast (pastOf p m) seam) := by
    have happend := statements_append [] hseam
    rw [List.append_nil] at happend
    change Run.unit p c m = _
    rw [unit_eq_fresh hbudget, happend]
    rfl
  have hsecond : second = (rest.1, withPast (pastOf q first.2) rest.2) := by
    have hfresh : fresh first.2 = fresh seam := by
      rw [hfirst]
      rfl
    change Run.unit q c first.2 = _
    rw [unit_eq_fresh hbudget, hfresh]
  have htaken : taken = (rest.1, withPast (pastOf q { first.2 with output := "", log := #[] })
      rest.2) := by
    have hfresh : fresh { first.2 with output := "", log := #[] } = fresh seam := by
      rw [hfirst]
      rfl
    change Run.unit q c { first.2 with output := "", log := #[] } = _
    rw [unit_eq_fresh hbudget, hfresh]
  have hwhole : whole = (rest.1, withPast (pastOf (p ++ q) m)
      (withPast ⟨seam.steps, seam.output, seam.log⟩ rest.2)) := by
    have hbehind := hforget ⟨seam.steps, seam.output, seam.log⟩
    rw [← eq_withPast_fresh htop] at hbehind
    change Run.unit (p ++ q) c m = _
    rw [unit_eq_fresh hbudget, statements_append q hseam, hbehind]
  rw [hwhole, hsecond, htaken, hfirst]
  simp [withPast, pastOf, String.append_assoc]

/-- A function that calls itself without end, declared and called in two pieces. -/
theorem runaway_in_pieces :
    let c : Config := ⟨⟨none, 2⟩, bareHost⟩
    let m := Machine.start bareHost
    let declaration := runaway.take 1
    let call := runaway.drop 1
    c.limits.maxSteps = none ∧ (Run.unit declaration c m).1 = .ok () ∧
      ¬ReturnsAtTop declaration c m ∧
      (Run.unit runaway c m).1 = (Run.unit call c (Run.unit declaration c m).2).1 ∧
      (Run.unit runaway c m).2.output =
        (Run.unit call c (Run.unit declaration c m).2).2.output := by
  intro c m declaration call
  have hok : (Run.unit declaration c m).1 = .ok () := rfl
  have hreturn : ¬ReturnsAtTop declaration c m := by decide +kernel
  have hpieces := (unit_runs_in_pieces c rfl m declaration call hok hreturn).1
  exact ⟨rfl, hok, hreturn, hpieces.1, hpieces.2.1⟩

end XBase.Proofs

end
