import XBase.Proofs.Act

/-!
# Compositions

Every action of a program is composed of single acts, counted steps, releases and calls, one after
another and inside scopes. A composition shows how, so that what holds of each part can be carried
over to the whole action, and it tells the moments that the action passes through.
-/

noncomputable section

namespace XBase.Proofs

/-- How an action is composed, whatever calls functions for it. An action with a composition of
`rounds` rounds counts at least so many steps before it gives up. -/
inductive Composition : Nat → {α : Type} → (Invocation → Run α) → Type 1
  | atom {rounds : Nat} {α : Type} {x : Run α} (h : Atomic x) : Composition rounds fun _ => x
  | giveUp {α : Type} : Composition 0 fun _ => (Run.halt .exhausted : Run α)
  | step {rounds : Nat} {α : Type} {x : Invocation → Run α} (token : Token)
      (d : Composition rounds x) :
      Composition (rounds + 1) fun invoke => Run.step token >>= fun _ => x invoke
  | release {rounds : Nat} (targets : List Token) :
      Composition rounds fun _ => Run.release targets
  | bind {rounds : Nat} {α β : Type} {x : Invocation → Run α} {f : Invocation → α → Run β}
      (d : Composition rounds x) (e : ∀ a, Composition rounds fun invoke => f invoke a) :
      Composition rounds fun invoke => x invoke >>= f invoke
  | within {rounds : Nat} {α : Type} {x : Invocation → Run α} (id : ScopeId)
      (d : Composition rounds x) : Composition rounds fun invoke => Run.within id (x invoke)
  | holding {rounds : Nat} {α : Type} {x : Invocation → Run α} (cells : List Cell)
      (d : Composition rounds x) :
      Composition rounds fun invoke => Run.holdingCells cells (x invoke)
  | call {rounds : Nat} (id : FunctionId) (site : CallSite) (arguments : List ArgumentValue) :
      Composition rounds fun invoke => invoke id site arguments
  | weaken {rounds more : Nat} {α : Type} {x : Invocation → Run α} (h : rounds ≤ more)
      (d : Composition more x) : Composition rounds x

abbrev CallTrace := FunctionId → CallSite → List ArgumentValue → Config → Machine → List Moment

/-- The moments that an action passes through after it starts from a machine. -/
def Composition.trace (invoke : Invocation) (calls : CallTrace) (c : Config) :
    {rounds : Nat} → {α : Type} → {x : Invocation → Run α} → Composition rounds x → Machine →
      List Moment
  | _, _, _, .atom (x := x) _, m => [⟨.acted, (x c m).2⟩]
  | _, _, _, .giveUp, _ => []
  | _, _, _, .step token d, m =>
    ⟨.counted, { m with steps := m.steps + 1 }⟩ ::
      match Run.step token c m with
      | (.ok _, m') => d.trace invoke calls c m'
      | (.error _, _) => []
  | _, _, _, .release targets, m => [⟨.released targets, (Run.release targets c m).2⟩]
  | _, _, _, .bind (x := x) d e, m =>
    d.trace invoke calls c m ++
      match x invoke c m with
      | (.ok a, m') => (e a).trace invoke calls c m'
      | (.error _, _) => []
  | _, _, _, .within (x := x) id d, m =>
    let inside : Machine := { m with scope := id, saved := m.scope :: m.saved }
    ⟨.entered, inside⟩ :: d.trace invoke calls c inside ++
      [⟨.left, (Run.within id (x invoke) c m).2⟩]
  | _, _, _, .holding (x := x) cells d, m =>
    let inside : Machine := { m with held := cells ++ m.held }
    ⟨.took, inside⟩ :: d.trace invoke calls c inside ++
      [⟨.dropped, (Run.holdingCells cells (x invoke) c m).2⟩]
  | _, _, _, .call id site arguments, m => calls id site arguments c m
  | _, _, _, .weaken _ d, m => d.trace invoke calls c m

section Choice

variable {rounds : Nat} {α : Type}

/-- A composition of both branches is one of the choice between them. -/
def Composition.ite {x y : Invocation → Run α} {p : Prop} [inst : Decidable p]
    (d : Composition rounds x) (e : Composition rounds y) :
    Composition rounds fun invoke => if p then x invoke else y invoke :=
  match inst with
  | .isTrue _ => d
  | .isFalse _ => e

end Choice

lemma step_cases (token : Token) (c : Config) (m : Machine) :
    (Run.step token c m = (.ok (), { m with steps := m.steps + 1 }) ∧
        ∀ budget, c.limits.maxSteps = some budget → m.steps + 1 ≤ budget) ∨
      ∃ budget, c.limits.maxSteps = some budget ∧ budget < m.steps + 1 ∧
        Run.step token c m = (.error (.failure (.ofToken token (.stepBudgetExceeded budget))),
          { m with steps := m.steps + 1 }) := by
  have hcount : Run.modify (fun m => { m with steps := m.steps + 1 }) c m =
      (.ok (), { m with steps := m.steps + 1 }) := rfl
  have hconfig : Run.config c { m with steps := m.steps + 1 } =
      (.ok c, { m with steps := m.steps + 1 }) := rfl
  have hmachine : Run.machine c { m with steps := m.steps + 1 } =
      (.ok { m with steps := m.steps + 1 }, { m with steps := m.steps + 1 }) := rfl
  rw [Run.step, bind_ok hcount, bind_ok hconfig]
  cases hb : c.limits.maxSteps with
  | none => exact .inl ⟨rfl, by simp⟩
  | some budget =>
    dsimp only
    rw [bind_ok hmachine]
    by_cases h : budget < m.steps + 1
    · refine .inr ⟨budget, rfl, h, ?_⟩
      rw [if_pos h]
      rfl
    · refine .inl ⟨?_, ?_⟩
      · rw [if_neg h]
        rfl
      · intro budget' hb'
        cases hb'
        omega

lemma of_step_eq_ok {c : Config} {token : Token} {m m' : Machine}
    (h : Run.step token c m = (.ok (), m')) : m' = { m with steps := m.steps + 1 } := by
  rcases step_cases token c m with ⟨hstep, -⟩ | ⟨_, -, -, hstep⟩
  · rw [hstep] at h
    cases h
    rfl
  · rw [hstep] at h
    cases h

/-- A relation between the machines before and after an action that all parts of an action respect,
so that the whole action does. -/
structure Preserved (R : Machine → Machine → Prop) : Prop where
  refl : ∀ m, R m m
  trans : ∀ m m' m'', R m m' → R m' m'' → R m m''
  change : ∀ m m', Change m m' → R m m'
  count : ∀ m, R m { m with steps := m.steps + 1 }
  release : ∀ m targets, R m { m with heap := releaseAll m.heap m.scope targets }
  within : ∀ m m' id, R { m with scope := id, saved := m.scope :: m.saved } m' →
    R m { m' with scope := m.scope, saved := m.saved }
  holding : ∀ m m' cells, R { m with held := cells ++ m.held } m' → R m { m' with held := m.held }
  deeper : ∀ m m', R { m with depth := m.depth + 1 } m' → R m { m' with depth := m'.depth - 1 }

lemma composition_preserves {R : Machine → Machine → Prop} (hR : Preserved R) {invoke : Invocation}
    {c : Config} (hcalls : ∀ id site arguments m, R m (invoke id site arguments c m).2)
    {rounds : Nat} {α : Type} {x : Invocation → Run α} (d : Composition rounds x) (m : Machine) :
    R m (x invoke c m).2 := by
  induction d generalizing m with
  | atom h => exact hR.change m _ (h.change c m)
  | giveUp => exact hR.refl m
  | step token d ih =>
    dsimp only
    rcases step_cases token c m with ⟨hs, _⟩ | ⟨_, _, _, hs⟩
    · rw [bind_ok hs]
      exact hR.trans m _ _ (hR.count m) (ih _)
    · rw [bind_error hs]
      exact hR.count m
  | release targets => exact hR.release m targets
  | @bind _ _ _ x f d e ihd ihe =>
    have hd := ihd m
    dsimp only
    rcases h : x invoke c m with ⟨why | a, m'⟩
    · rw [bind_error h]
      rwa [h] at hd
    · rw [bind_ok h]
      rw [h] at hd
      exact hR.trans m m' _ hd (ihe a m')
  | within id d ih => exact hR.within m _ id (ih _)
  | holding cells d ih => exact hR.holding m _ cells (ih _)
  | call id site arguments => exact hcalls id site arguments m
  | weaken h d ih => exact ih m

/-- The scopes, the cells in hand and the depth are the ones of before. -/
structure Kept (m m' : Machine) : Prop where
  globals : m'.globals = m.globals
  connection : m'.connection = m.connection
  scope : m'.scope = m.scope
  saved : m'.saved = m.saved
  held : m'.held = m.held
  depth : m'.depth = m.depth

lemma kept_preserved : Preserved Kept where
  refl _ := ⟨rfl, rfl, rfl, rfl, rfl, rfl⟩
  trans _ _ _ h h' :=
    ⟨h'.globals.trans h.globals, h'.connection.trans h.connection, h'.scope.trans h.scope,
      h'.saved.trans h.saved, h'.held.trans h.held, h'.depth.trans h.depth⟩
  change m m' h := by
    cases h
    exact ⟨rfl, rfl, rfl, rfl, rfl, rfl⟩
  count _ := ⟨rfl, rfl, rfl, rfl, rfl, rfl⟩
  release _ _ := ⟨rfl, rfl, rfl, rfl, rfl, rfl⟩
  within _ _ _ h := ⟨h.globals, h.connection, rfl, rfl, h.held, h.depth⟩
  holding _ _ _ h := ⟨h.globals, h.connection, h.scope, h.saved, rfl, h.depth⟩
  deeper m m' h := by
    have hd : m'.depth - 1 = m.depth := by
      rw [h.depth]
      rfl
    exact ⟨h.globals, h.connection, h.scope, h.saved, h.held, hd⟩

/-- A budget that is not exceeded. -/
def Affordable (limits : Limits) (m : Machine) : Prop :=
  ∀ budget, limits.maxSteps = some budget → m.steps ≤ budget

/-- Limits that the limits of a run respect: the same deepest level, and the same budget or none. -/
structure Respected (limits : Limits) (c : Config) : Prop where
  depth : limits.maxDepth = c.limits.maxDepth
  steps : ∀ budget, limits.maxSteps = some budget → c.limits.maxSteps = some budget

lemma respected_self (c : Config) : Respected c.limits c :=
  ⟨rfl, fun _ h => h⟩

/-- Moments that lead to an outcome. Unless the outcome is a halt, the budget is not exceeded. -/
structure Leads (limits : Limits) (m : Machine) {α : Type} (moments : List Moment)
    (outcome : Except Halt α × Machine) : Prop where
  path : Path limits m moments
  finish_eq : finish m moments = outcome.2
  affordable : ∀ a, outcome.1 = .ok a → Affordable limits outcome.2

/-- The trace of an action is a path of transitions to its outcome. -/
lemma trace_leads {invoke : Invocation} {calls : CallTrace} {limits : Limits} {c : Config}
    (hlimits : Respected limits c)
    (hkept : ∀ id site arguments m, Kept m (invoke id site arguments c m).2)
    (hcalls : ∀ id site arguments m, Affordable limits m →
      Leads limits m (calls id site arguments c m) (invoke id site arguments c m))
    {rounds : Nat} {α : Type} {x : Invocation → Run α} (d : Composition rounds x) (m : Machine)
    (hm : Affordable limits m) : Leads limits m (d.trace invoke calls c m) (x invoke c m) := by
  induction d generalizing m with
  | atom h =>
    refine ⟨(path_singleton m _).mpr (.acted (h.change c m)), rfl, fun _ _ budget hb => ?_⟩
    rw [change_steps (h.change c m)]
    exact hm budget hb
  | giveUp => exact ⟨trivial, rfl, fun _ h => by cases h⟩
  | step token d ih =>
    dsimp only
    rcases step_cases token c m with ⟨hs, hb⟩ | ⟨_, _, _, hs⟩
    · have hd := ih { m with steps := m.steps + 1 } fun budget h =>
        hb budget (hlimits.steps budget h)
      rw [bind_ok hs]
      refine ⟨?_, ?_, hd.affordable⟩
      · simp only [Composition.trace, hs]
        exact ⟨.counted hm, hd.path⟩
      · simp only [Composition.trace, hs]
        exact hd.finish_eq
    · rw [bind_error hs]
      refine ⟨?_, ?_, fun _ h => by cases h⟩
      · simp only [Composition.trace, hs]
        exact ⟨.counted hm, trivial⟩
      · simp only [Composition.trace, hs]
        rfl
  | release targets => exact ⟨(path_singleton m _).mpr (.released targets), rfl, fun _ _ => hm⟩
  | @bind _ _ _ x f d e ihd ihe =>
    have hd := ihd m hm
    dsimp only
    rcases h : x invoke c m with ⟨why | a, m'⟩
    · rw [bind_error h]
      rw [h] at hd
      simp only [Composition.trace, h, List.append_nil]
      exact ⟨hd.path, hd.finish_eq, fun _ h => by cases h⟩
    · rw [bind_ok h]
      rw [h] at hd
      have he := ihe a m' (hd.affordable a rfl)
      simp only [Composition.trace, h]
      refine ⟨(path_append m _ _).mpr ⟨hd.path, ?_⟩, ?_, he.affordable⟩
      · rw [hd.finish_eq]
        exact he.path
      · rw [finish_append, hd.finish_eq]
        exact he.finish_eq
  | @within _ _ x id d ih =>
    have hd := ih { m with scope := id, saved := m.scope :: m.saved } hm
    have hk := composition_preserves kept_preserved hkept d
      { m with scope := id, saved := m.scope :: m.saved }
    refine ⟨⟨.entered id, (path_append _ _ _).mpr ⟨hd.path, ?_⟩⟩, ?_, hd.affordable⟩
    · rw [hd.finish_eq, path_singleton]
      exact .left hk.saved
    · simp [Composition.trace]
  | @holding _ _ x cells d ih =>
    have hd := ih { m with held := cells ++ m.held } hm
    have hk := composition_preserves kept_preserved hkept d { m with held := cells ++ m.held }
    refine ⟨⟨.took cells, (path_append _ _ _).mpr ⟨hd.path, ?_⟩⟩, ?_, hd.affordable⟩
    · rw [hd.finish_eq, path_singleton]
      exact .dropped hk.held
    · simp [Composition.trace]
  | call id site arguments => exact hcalls id site arguments m hm
  | weaken h d ih => exact ih m hm

end XBase.Proofs

end
