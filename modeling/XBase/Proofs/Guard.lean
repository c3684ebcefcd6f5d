import XBase.Proofs.Counting

/-!
# The guard of counting loops

A counting loop makes a round unless its counter is past the end, and neither side of a comparison
with something that is no number is past the other. So the loop stops where the counter has passed
the end in the direction of the increment, as it should, but it goes on where the comparison does
not say anything: if an end or an increment is no number, no counter is ever past it.
-/

namespace XBase

namespace Run.Range

/-- The counter has not passed the end, in the direction of the increment. -/
def Admits (range : Run.Range) (counter : Float) : Prop :=
  0 < range.increment ∧ counter ≤ range.finish ∨ range.increment < 0 ∧ range.finish ≤ counter

/-- One of the numbers that are compared is no number. -/
def Unordered (range : Run.Range) (counter : Float) : Prop :=
  Decimal.isNaN range.increment = true ∨ Decimal.isNaN range.finish = true ∨
    Decimal.isNaN counter = true

instance (range : Run.Range) (counter : Float) : Decidable (range.Admits counter) :=
  inferInstanceAs (Decidable (_ ∨ _))

instance (range : Run.Range) (counter : Float) : Decidable (range.Unordered counter) :=
  inferInstanceAs (Decidable (_ ∨ _))

end Run.Range

namespace Proofs

section Comparisons

open Float.Model

variable {x y : Float}

lemma isNaN_iff (x : Float) : Decimal.isNaN x = true ↔ x.toModel.unpack = .notANumber := by
  rw [Decimal.isNaN, Bool.and_eq_true, beq_iff_eq, bne_iff_ne]
  rcases unpack_cases x with ⟨he, hf, hu⟩ | ⟨-, hf, hu⟩ | ⟨he, -, hu⟩ | ⟨he, _, hu⟩ | ⟨-, he, _, hu⟩
  · simp [he, hf, hu]
  · simp [hf, hu]
  · simp [he, hu]
  · simp [he, hu]
  · simp [hu, Nat.ne_of_lt he]

lemma units_of_ordered (h : ¬ Decimal.isNaN x = true) :
    ∃ u, units? x.toModel.unpack = some u :=
  ⟨_, units?_unpack fun hnan => h ((isNaN_iff x).mpr hnan)⟩

lemma not_lt_of_nan (h : Decimal.isNaN x = true ∨ Decimal.isNaN y = true) : ¬ x < y := by
  rw [lt_iff_compare]
  rw [isNaN_iff, isNaN_iff] at h
  rcases h with h | h
  · rw [h]
    simp [UnpackedFloat.compare]
  · rw [h]
    cases x.toModel.unpack <;> simp [UnpackedFloat.compare]

lemma le_iff_units {u v : Int} (hx : units? x.toModel.unpack = some u)
    (hy : units? y.toModel.unpack = some v) : x ≤ y ↔ u ≤ v := by
  have hcompare := compare_units (storable_unpack x) (storable_unpack y) hx hy
  change decide (x.toModel ≤ y.toModel) = true ↔ _
  rw [decide_eq_true_iff]
  change (x.toModel.unpack.compare y.toModel.unpack).any (·.isLE) = true ↔ _
  rw [hcompare, Option.any_some]
  exact Std.isLE_compare

lemma not_lt_iff : ¬ x < y ↔ y ≤ x ∨ Decimal.isNaN x = true ∨ Decimal.isNaN y = true := by
  by_cases hnan : Decimal.isNaN x = true ∨ Decimal.isNaN y = true
  · exact ⟨fun _ => .inr hnan, fun _ => not_lt_of_nan hnan⟩
  · rw [not_or] at hnan
    obtain ⟨u, hu⟩ := units_of_ordered hnan.1
    obtain ⟨v, hv⟩ := units_of_ordered hnan.2
    rw [lt_iff_units hu hv, le_iff_units hv hu]
    simp [hnan]

lemma lt_or_lt_of_moves (h : (x == 0) = false) (hx : ¬ Decimal.isNaN x = true) :
    0 < x ∧ ¬ x < 0 ∨ x < 0 ∧ ¬ 0 < x := by
  obtain ⟨u, hu⟩ := units_of_ordered hx
  have hzero := isInteger_zero.units.1
  rw [Int.zero_mul] at hzero
  have hne : u ≠ 0 := by
    rintro rfl
    have hcompare := compare_units (storable_unpack x) (storable_unpack 0) hu hzero
    change (x.toModel.unpack.compare (0 : Float).toModel.unpack == some .eq) = false at h
    rw [hcompare] at h
    exact absurd h (by decide)
  rw [lt_iff_units hu hzero, lt_iff_units hzero hu]
  omega

lemma isNaN_add (h : Decimal.isNaN x = true) (y : Float) : Decimal.isNaN (x + y) = true := by
  rw [isNaN_iff] at h ⊢
  change (Float.Model.pack (UnpackedFloat.add Format.binary64 x.toModel.unpack
    y.toModel.unpack)).unpack = _
  have hadd : UnpackedFloat.add Format.binary64 .notANumber y.toModel.unpack = .notANumber := by
    cases y.toModel.unpack <;> rfl
  rw [h, hadd]
  rfl

end Comparisons

section Guards

variable {range : Run.Range}

/-- A counter is past the end exactly if the guard refuses it and all can be compared. -/
lemma isPast_eq_false_iff (hmoves : (range.increment == 0) = false) (counter : Float) :
    range.isPast counter = false ↔ range.Admits counter ∨ range.Unordered counter := by
  rw [Bool.eq_false_iff, Ne, isPast_iff]
  unfold Run.Range.Admits Run.Range.Unordered
  by_cases hnan : Decimal.isNaN range.increment = true
  · have hup : ¬ 0 < range.increment := not_lt_of_nan (.inr hnan)
    have hdown : ¬ range.increment < 0 := not_lt_of_nan (.inl hnan)
    simp [hnan, hup, hdown]
  · rcases lt_or_lt_of_moves hmoves hnan with ⟨hup, hdown⟩ | ⟨hdown, hup⟩
    · simp [hnan, hup, hdown, not_lt_iff]
    · simp [hnan, hup, hdown, not_lt_iff, or_comm]

end Guards

section Rounds

/-- One round of a counting loop: a step is counted, the body runs, and the rest of the loop follows
unless the body leaves it. -/
def oneRound (token : Token) (id : ScopeId) (round rest : Run Signal) : Run Signal := do
  Run.step token
  let signal ← Run.within id round
  if goesOn signal then rest else pure (leftWith signal)

variable {c : Config} {token counter : Token} {id : ScopeId} {range : Run.Range}
  {round : Run Signal}

lemma forLoop_enters {current : Float} (h : range.isPast current = false) (rounds : Nat)
    (m : Machine) :
    Run.forLoop token counter id range round (rounds + 1) current c m =
      oneRound token id round (Run.advance token counter id range >>= fun next =>
        Run.forLoop token counter id range round rounds next) c m := by
  rw [Run.forLoop, if_neg (by simp [h]), oneRound]
  refine bind_congr_right (fun _ m₁ => bind_congr_right (fun signal m₂ => ?_) m₁) m
  cases signal <;> rfl

/-- If no counter is past the end, the loop ends normally only by an `exit`. -/
lemma forLoop_endless (hpast : ∀ current, range.isPast current = false)
    (hround : ∀ s, (Run.within id round c s).1 ≠ .ok .exited) (rounds : Nat) (current : Float)
    (m : Machine) :
    (Run.forLoop token counter id range round rounds current c m).1 ≠ .ok .normal := by
  induction rounds generalizing current m with
  | zero => simp [Run.forLoop, Run.halt]
  | succ rounds ih =>
    rw [forLoop_enters (hpast current), oneRound]
    rcases hs : Run.step token c m with ⟨why | _, m₁⟩
    · rw [bind_error hs]
      simp
    have hexit := hround m₁
    rw [bind_ok hs]
    rcases hr : Run.within id round c m₁ with ⟨why | signal, m₂⟩
    · rw [bind_error hr]
      simp
    rw [hr] at hexit
    have hrest : ((Run.advance token counter id range >>= fun next =>
        Run.forLoop token counter id range round rounds next) c m₂).1 ≠ .ok .normal := by
      rcases ha : Run.advance token counter id range c m₂ with ⟨why | next, m₃⟩
      · rw [bind_error ha]
        simp
      · rw [bind_ok ha]
        exact ih next m₃
    rw [bind_ok hr]
    cases signal with
    | normal => exact hrest
    | looped => exact hrest
    | exited => exact absurd rfl hexit
    | returned value => simp [goesOn, leftWith, pure, Run.pure]

lemma isNaN_counter (range : Run.Range) {first : Float} (h : Decimal.isNaN first = true)
    (k : Nat) : Decimal.isNaN (range.counter first k) = true := by
  induction k with
  | zero => exact h
  | succ k ih => exact isNaN_add ih _

end Rounds

/-- The body of a counting loop is entered for a value of the counter exactly if the value is within
the end in the direction of the increment or cannot be compared; else the loop ends there. So a loop
whose end or increment is no number ends normally only by an `exit`, and a loop that starts with a
counter which is no number makes another round after every number of rounds that leave the counter
alone. -/
theorem body_entered_unless_past {invoke : Invocation} {c : Config} {token counter : Token}
    {start finish : Expr} {step : Option Expr} {m counted ready : Machine} {first : Float}
    {range : Run.Range} (hstep : Run.step token c m = (.ok (), counted))
    (hready : Prepares invoke c counter start finish step counted first range ready)
    (hmoves : (range.increment == 0) = false) (body : List Stmt) :
    let id := counted.heap.scopes.size
    let round := Stmt.execAll invoke body
    let loop := Run.forLoop token counter id range round
    let outcome := (Stmt.forLoop token counter start finish step body).exec invoke c m
    outcome = loop Signal.maxRounds first c ready ∧
    (∀ rounds current s, loop (rounds + 1) current c s =
      if range.Admits current ∨ range.Unordered current then
        oneRound token id round (Run.advance token counter id range >>= loop rounds) c s
      else (.ok .normal, s)) ∧
    (Decimal.isNaN range.increment = true ∨ Decimal.isNaN range.finish = true →
      (∀ s, (Run.within id round c s).1 ≠ .ok .exited) → outcome.1 ≠ .ok .normal) ∧
    (Decimal.isNaN first = true → Counts counter id ready.heap first → ∀ iterations s,
      Iterates c token counter id range.increment round ready iterations s →
      iterations.length < Signal.maxRounds → ∃ rounds,
        outcome = oneRound token id round (Run.advance token counter id range >>= loop rounds) c
          s) := by
  intro id round loop outcome
  have houtcome : outcome = loop Signal.maxRounds first c ready :=
    (bind_ok hstep).trans (countingLoop_prepares hready (by simp [hmoves]) token round)
  refine ⟨houtcome, ?_, ?_, ?_⟩
  · intro rounds current s
    by_cases h : range.Admits current ∨ range.Unordered current
    · rw [if_pos h]
      exact forLoop_enters ((isPast_eq_false_iff hmoves current).mpr h) rounds s
    · rw [if_neg h]
      refine forLoop_past (Bool.not_eq_false _ |>.mp fun hin => h ?_) rounds
      exact (isPast_eq_false_iff hmoves current).mp hin
  · intro hnan hround
    rw [houtcome]
    refine forLoop_endless (fun current => ?_) hround _ _ _
    exact (isPast_eq_false_iff hmoves current).mpr (.inr (hnan.imp_right .inl))
  · intro hnan hcounts iterations s hiterates hlt
    have hvisits : ∀ k, range.isPast (range.counter first k) = false := fun k =>
      (isPast_eq_false_iff hmoves _).mpr (.inr (.inr (.inr (isNaN_counter range hnan k))))
    obtain ⟨rounds, hrounds⟩ := Nat.exists_eq_add_of_le' hlt
    have hrest : Signal.maxRounds = rounds + 1 + iterations.length := by omega
    refine ⟨rounds, ?_⟩
    rw [houtcome, hrest]
    refine (forLoop_iterates hiterates hcounts (fun k _ => hvisits k) (rounds + 1)).trans ?_
    exact forLoop_enters (hvisits _) rounds s

def noNumber : Float := 0.0 / 0.0

/-- A loop to an end that is no number. Its rounds only go on, so it does not end normally. -/
theorem loop_to_no_number_goes_on :
    let c : Config := ⟨⟨none, 2⟩, bareHost⟩
    let m := Machine.start bareHost
    let loop := Stmt.forLoop (nameToken "for") (nameToken "i") (numberLiteral 1)
      (numberLiteral noNumber) (some (numberLiteral 1)) [.loop (nameToken "loop")]
    Decimal.isNaN noNumber = true ∧ ((1 : Float) == 0) = false ∧
      (loop.exec (below 2) c m).1 ≠ .ok .normal := by
  intro c m loop
  have hnan : Decimal.isNaN noNumber = true := by decide +kernel
  have hmoves : ((1 : Float) == 0) = false := by decide +kernel
  refine ⟨hnan, hmoves, ?_⟩
  let counted : Machine := { m with steps := m.steps + 1 }
  have hready : Prepares (below 2) c (nameToken "i") (numberLiteral 1) (numberLiteral noNumber)
      (some (numberLiteral 1)) counted 1 ⟨noNumber, 1⟩ _ := prepares_literals 1 noNumber 1
  have hrounds := body_entered_unless_past (step_unlimited rfl (nameToken "for") m) hready hmoves
    [.loop (nameToken "loop")]
  refine hrounds.2.2.1 (.inr hnan) fun s => ?_
  rw [within_eq (execAll_loop rfl)]
  simp

/-- A loop `for i = first to 3` that prints and leaves. -/
def printingLoop (first : Float) : Stmt :=
  .forLoop (nameToken "for") (nameToken "i") (numberLiteral first) (numberLiteral 3) none
    [.print (nameToken "?") [.literal (nameToken "in")], .exit (nameToken "exit")]

/-- The body is entered for a counter that is not within the end, because it is no number. -/
theorem body_entered_for_no_number :
    let c : Config := ⟨⟨none, 2⟩, bareHost⟩
    let m := Machine.start bareHost
    ¬ (Run.Range.mk 3 1).Admits noNumber ∧
      ((printingLoop noNumber).exec (below 2) c m).2.output = "null\n" := by
  decide +kernel

end Proofs

end XBase
