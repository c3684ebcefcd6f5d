import XBase.Proofs.History

/-!
# Limits are transparent

A program does not see the limits it runs under. With more steps and deeper calls a run goes the
same way, except that it may go on where the smaller limits stop it.
-/

namespace XBase.Proofs

/-- Limits that allow no more than others do. No budget at all allows the most. -/
structure AtMost (limits limits' : Limits) : Prop where
  depth : limits.maxDepth ≤ limits'.maxDepth
  steps : ∀ budget', limits'.maxSteps = some budget' →
    ∃ budget, limits.maxSteps = some budget ∧ budget ≤ budget'

def Forced : Halt → Prop
  | .failure error => isLimit error.fault = true
  | .exhausted => False

instance (why : Halt) : Decidable (Forced why) :=
  match why with
  | .failure error => inferInstanceAs (Decidable (isLimit error.fault = true))
  | .exhausted => inferInstanceAs (Decidable False)

def Limited {α : Type} : Except Halt α → Prop
  | .error why => Forced why
  | .ok _ => False

instance {α : Type} (result : Except Halt α) : Decidable (Limited result) :=
  match result with
  | .error why => inferInstanceAs (Decidable (Forced why))
  | .ok _ => inferInstanceAs (Decidable False)

/-- What has been printed stays printed. -/
def Grown (m m' : Machine) : Prop :=
  ∃ rest, m'.output = m.output ++ rest

lemma grown_refl (m : Machine) : Grown m m :=
  ⟨"", String.append_empty.symm⟩

lemma grown_trans {m m' m'' : Machine} (h : Grown m m') (h' : Grown m' m'') : Grown m m'' := by
  obtain ⟨rest, h⟩ := h
  obtain ⟨rest', h'⟩ := h'
  exact ⟨rest ++ rest', by rw [h', h, String.append_assoc]⟩

lemma grown_preserved : Preserved Grown where
  refl := grown_refl
  trans _ _ _ := grown_trans
  change m m' h := by
    cases h with
    | mk _ line => exact ⟨line, rfl⟩
  count := grown_refl
  release m _ := grown_refl m
  within _ _ _ h := h
  holding _ _ _ h := h
  deeper _ _ h := h

/-- An outcome under larger limits follows the one under smaller limits: it is the same unless the
smaller limits force a halt, and then it has printed at least as much. -/
structure Follows {α : Type} (second first : Except Halt α × Machine) : Prop where
  same : ¬Limited first.1 → second = first
  longer : Limited first.1 → Grown first.2 second.2

section Outcomes

variable {α : Type} {first second : Except Halt α × Machine}

lemma follows_of_eq (h : second = first) : Follows second first where
  same _ := h
  longer _ := by
    rw [h]
    exact grown_refl first.2

lemma follows_of_limited (hlimited : Limited first.1) (hgrown : Grown first.2 second.2) :
    Follows second first where
  same h := absurd hlimited h
  longer _ := hgrown

/-- What is done to the machine afterwards, the same in both runs, does not matter. -/
lemma follows_map (f : Machine → Machine) (hf : ∀ m, (f m).output = m.output)
    (h : Follows second first) : Follows (second.1, f second.2) (first.1, f first.2) where
  same hfirst := by rw [h.same hfirst]
  longer hfirst := by
    obtain ⟨rest, hrest⟩ := h.longer hfirst
    exact ⟨rest, by rw [hf, hf, hrest]⟩

end Outcomes

section Runs

variable {c c' : Config} (hhost : c'.host = c.host) (hlimits : AtMost c.limits c'.limits)

include hhost hlimits

/-- If the calls at some depth follow, an action at this depth follows. -/
lemma composition_follows {invoke invoke' : Invocation} {depth : Nat}
    (hkept : ∀ id site arguments m, Kept m (invoke id site arguments c m).2)
    (hgrown : ∀ id site arguments m, Grown m (invoke' id site arguments c' m).2)
    (hcalls : ∀ id site arguments m, m.depth = depth →
      Follows (invoke' id site arguments c' m) (invoke id site arguments c m))
    {rounds : Nat} {α : Type} {x : Invocation → Run α} (d : Composition rounds x) (m : Machine)
    (hdepth : m.depth = depth) : Follows (x invoke' c' m) (x invoke c m) := by
  induction d generalizing m with
  | atom h => exact follows_of_eq (h.blind c' c m hhost)
  | giveUp => exact follows_of_eq rfl
  | step token d ih =>
    dsimp only
    rcases step_cases token c m with ⟨hs, hb⟩ | ⟨budget, _, _, hs⟩
    · rcases step_cases token c' m with ⟨hs', _⟩ | ⟨budget', hb', hover, _⟩
      · rw [bind_ok hs, bind_ok hs']
        exact ih _ hdepth
      · -- the larger budget is not spent first
        obtain ⟨budget, hbudget, hle⟩ := hlimits.steps budget' hb'
        have hunder := hb budget hbudget
        omega
    · rw [bind_error hs]
      exact follows_of_limited rfl (composition_preserves grown_preserved hgrown (.step token d) m)
  | release targets => exact follows_of_eq rfl
  | @bind _ _ _ x f d e ihd ihe =>
    have hd := ihd m hdepth
    have hk := composition_preserves kept_preserved hkept d m
    dsimp only
    rcases hx : x invoke c m with ⟨why | a, m'⟩
    · rw [hx] at hd
      rw [bind_error hx]
      by_cases hforced : Forced why
      · -- the first run stops here, and the second one may go on
        refine follows_of_limited hforced (grown_trans (hd.longer hforced) ?_)
        rcases hx' : x invoke' c' m with ⟨why' | a, after⟩
        · rw [bind_error hx']
          exact grown_refl after
        · rw [bind_ok hx']
          exact composition_preserves grown_preserved hgrown (e a) after
      · rw [bind_error (hd.same hforced)]
        exact follows_of_eq rfl
    · rw [hx] at hd hk
      rw [bind_ok hx, bind_ok (hd.same id)]
      exact ihe a m' (hk.depth.trans hdepth)
  | within id d ih =>
    exact follows_map (fun m' => { m' with scope := m.scope, saved := m.saved }) (fun _ => rfl)
      (ih { m with scope := id, saved := m.scope :: m.saved } hdepth)
  | holding cells d ih =>
    exact follows_map (fun m' => { m' with held := m.held }) (fun _ => rfl)
      (ih { m with held := cells ++ m.held } hdepth)
  | call id site arguments => exact hcalls id site arguments m hdepth
  | weaken h d ih => exact ih m hdepth

lemma callFunction_follows {invoke invoke' : Invocation}
    (hkept : ∀ id site arguments m, Kept m (invoke id site arguments c m).2)
    (hgrown : ∀ id site arguments m, Grown m (invoke' id site arguments c' m).2)
    (id : FunctionId) (site : CallSite) (arguments : List ArgumentValue) (m : Machine)
    (hcalls : m.depth < c.limits.maxDepth → ∀ id site arguments m', m'.depth = m.depth + 1 →
      Follows (invoke' id site arguments c' m') (invoke id site arguments c m')) :
    Follows (Run.callFunction invoke' id site arguments c' m)
      (Run.callFunction invoke id site arguments c m) := by
  cases h : m.heap.functions[id]? with
  | none =>
    rw [callFunction_none h, callFunction_none h]
    exact follows_of_eq rfl
  | some closure =>
    by_cases hdepth : c.limits.maxDepth ≤ m.depth
    · rw [callFunction_refused h hdepth]
      exact follows_of_limited rfl
        (callFunction_preserves grown_preserved hgrown id site arguments m)
    · have hlt := Nat.lt_of_not_le hdepth
      rw [callFunction_entered h hlt, callFunction_entered h (Nat.lt_of_lt_of_le hlt hlimits.depth)]
      exact follows_map (fun after => { after with depth := after.depth - 1 }) (fun _ => rfl)
        (composition_follows hhost hlimits hkept hgrown (hcalls hlt)
          (enterComposition closure site arguments) _ rfl)

/-- With as many levels as the limits of the depth leave, every call follows. -/
lemma invoke_follows (levels levels' : Nat) (id : FunctionId) (site : CallSite)
    (arguments : List ArgumentValue) (m : Machine)
    (hlevels : c.limits.maxDepth ≤ m.depth + levels)
    (hlevels' : c'.limits.maxDepth ≤ m.depth + levels') :
    Follows (Run.invoke levels' id site arguments c' m)
      (Run.invoke levels id site arguments c m) := by
  have hdeeper := hlimits.depth
  induction levels generalizing levels' id site arguments m with
  | zero =>
    rw [invoke_eq, invoke_eq]
    refine callFunction_follows hhost hlimits (below_preserves kept_preserved c 0)
      (below_preserves grown_preserved c' levels') id site arguments m fun hlt => ?_
    omega
  | succ levels ih =>
    rw [invoke_eq, invoke_eq]
    refine callFunction_follows hhost hlimits (below_preserves kept_preserved c (levels + 1))
      (below_preserves grown_preserved c' levels') id site arguments m fun hlt => ?_
    intro id site arguments m' hm'
    cases levels' with
    | zero => omega
    | succ levels' => exact ih levels' id site arguments m' (by omega) (by omega)

end Runs

/-- A run under larger limits has the outcome, the output and the heap of a run under smaller ones,
unless the smaller limits are exceeded. If they are, what was printed until then is the beginning of
what the other run prints. -/
theorem unit_limits_transparent (c c' : Config) (hhost : c'.host = c.host)
    (hlimits : AtMost c.limits c'.limits) (program : List Stmt) (m : Machine) :
    (¬Limited (Run.unit program c m).1 → Run.unit program c' m = Run.unit program c m) ∧
    (Limited (Run.unit program c m).1 →
      ∃ rest, (Run.unit program c' m).2.output = (Run.unit program c m).2.output ++ rest) := by
  have hfollows : Follows (Run.unit program c' m) (Run.unit program c m) := by
    rw [unit_eq, unit_eq]
    refine composition_follows hhost hlimits (invoke_preserves kept_preserved c c.limits.maxDepth)
      (invoke_preserves grown_preserved c' c'.limits.maxDepth) ?_ (statementsComposition program)
      (begun program m) rfl
    intro id site arguments m' _
    exact invoke_follows hhost hlimits _ _ id site arguments m' (Nat.le_add_left _ _)
      (Nat.le_add_left _ _)
  exact ⟨hfollows.same, hfollows.longer⟩

/-- What an endless recursion prints in two levels of calls it also prints, before anything else, in
four. -/
theorem runaway_limits_transparent :
    let c : Config := ⟨⟨some 100, 2⟩, bareHost⟩
    let c' : Config := ⟨⟨none, 4⟩, bareHost⟩
    let m := Machine.start bareHost
    AtMost c.limits c'.limits ∧ Limited (Run.unit runaway c m).1 ∧
      ∃ rest, (Run.unit runaway c' m).2.output = (Run.unit runaway c m).2.output ++ rest := by
  intro c c' m
  have hlimits : AtMost c.limits c'.limits := ⟨by decide, fun _ h => by cases h⟩
  have hlimited : Limited (Run.unit runaway c m).1 := by decide +kernel
  exact ⟨hlimits, hlimited, (unit_limits_transparent c c' rfl hlimits runaway m).2 hlimited⟩

end XBase.Proofs
