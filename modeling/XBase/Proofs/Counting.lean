import XBase.Proofs.Fence
import XBase.Proofs.Integers
import XBase.Proofs.Ownership

/-!
# Counting loops over integers

The counter of a loop is a number that is moved on by adding the increment, so what a loop visits
depends on how sums are rounded. If its bounds are integers and what it visits stays below `2 ^ 53`,
the sums up to the last round are exact, and the sum that ends the loop is rounded to a number on
the same side of the bound. The number of rounds is then known in advance, whatever the rounds do to
anything but the counter.
-/

noncomputable section

namespace XBase

/-- The counter of a loop after so many rounds, if the rounds leave it alone. -/
def Run.Range.counter (range : Run.Range) (first : Float) : Nat → Float
  | 0 => first
  | k + 1 => range.counter first k + range.increment

/-- A loop whose rounds leave the counter alone comes to a round after so many others. -/
def Run.Range.Visits (range : Run.Range) (first : Float) (k : Nat) : Prop :=
  ∀ j ≤ k, range.isPast (range.counter first j) = false

namespace Proofs

section Distances

variable {a b d : Int} {k : Nat}

/-- The number of steps of size `d` from `a` that do not go past `b`. -/
def roundCount (a b d : Int) : Nat :=
  ((b - a).fdiv d + 1).toNat

lemma lt_roundCount_up (hd : 0 < d) : k < roundCount a b d ↔ a + k * d ≤ b := by
  have hle : (k : Int) ≤ (b - a).fdiv d ↔ k * d ≤ b - a := by
    rw [Int.fdiv_eq_ediv_of_nonneg _ (Int.le_of_lt hd)]
    exact Int.le_ediv_iff_mul_le hd
  have hlt : k < roundCount a b d ↔ (k : Int) ≤ (b - a).fdiv d := by
    unfold roundCount
    omega
  rw [hlt, hle]
  omega

lemma lt_roundCount_down (hd : d < 0) : k < roundCount a b d ↔ b ≤ a + k * d := by
  have hneg : roundCount a b d = roundCount (-a) (-b) (-d) := by
    rw [roundCount, roundCount, ← Int.neg_fdiv_neg (b - a) d]
    congr 3
    omega
  rw [hneg, lt_roundCount_up (by omega), Int.mul_neg]
  omega

end Distances

section Integers

variable {range : Run.Range} {first x : Float} {a b d n : Int} {k : Nat}

/-- A loop over integers which visits only such below `2 ^ 53`. -/
structure OverIntegers (range : Run.Range) (first : Float) (a b d : Int) : Prop where
  start : IsInteger first a
  finish : IsInteger range.finish b
  increment : IsInteger range.increment d
  moves : d ≠ 0
  visited : ∀ k, range.Visits first k →
    (Decimal.integerPart (range.counter first k)).natAbs < 2 ^ 53

lemma isPast_iff (range : Run.Range) (x : Float) : range.isPast x = true ↔
    0 < range.increment ∧ range.finish < x ∨ range.increment < 0 ∧ x < range.finish := by
  simp [Run.Range.isPast]

lemma OverIntegers.up_iff (h : OverIntegers range first a b d) : 0 < range.increment ↔ 0 < d :=
  isInteger_zero.lt_iff h.increment

lemma OverIntegers.down_iff (h : OverIntegers range first a b d) : range.increment < 0 ↔ d < 0 :=
  h.increment.lt_iff isInteger_zero

lemma OverIntegers.isPast_exact (h : OverIntegers range first a b d)
    (hx : IsInteger x (a + k * d)) :
    range.isPast x = true ↔ ¬ k < roundCount a b d := by
  rw [isPast_iff, h.up_iff, h.down_iff, h.finish.lt_iff hx, hx.lt_iff h.finish]
  rcases Int.lt_or_gt_of_ne h.moves with hd | hd
  · rw [lt_roundCount_down hd]
    omega
  · rw [lt_roundCount_up hd]
    omega

lemma OverIntegers.not_past_next (h : OverIntegers range first a b d)
    (hx : IsInteger x (a + k * d)) (hk : k + 1 < roundCount a b d) :
    range.isPast (x + range.increment) = false := by
  have hsum : a + k * d + d = a + (k + 1 : Nat) * d := by
    rw [Nat.cast_succ, Int.add_mul, Int.one_mul, Int.add_assoc]
  rw [Bool.eq_false_iff, Ne, isPast_iff, h.up_iff, h.down_iff]
  rintro (⟨hd, hpast⟩ | ⟨hd, hpast⟩)
  · have := hx.lt_of_lt_add h.increment h.finish hpast
    rw [lt_roundCount_up hd] at hk
    omega
  · have := hx.lt_of_add_lt h.increment h.finish hpast
    rw [lt_roundCount_down hd] at hk
    omega

lemma visits_succ (h : range.Visits first k)
    (hnext : range.isPast (range.counter first (k + 1)) = false) : range.Visits first (k + 1) := by
  intro j hj
  by_cases hlast : j = k + 1
  · rwa [hlast]
  · exact h j (by omega)

variable (h : OverIntegers range first a b d)

include h

lemma OverIntegers.counter_zero : IsInteger (range.counter first 0) (a + (0 : Nat) * d) := by
  rw [Nat.cast_zero, Int.zero_mul, Int.add_zero]
  exact h.start

lemma OverIntegers.counter_succ (hx : IsInteger (range.counter first k) (a + k * d)) :
    (a + (k + 1 : Nat) * d).natAbs < 2 ^ 53 ∧
      IsInteger (range.counter first (k + 1)) (a + (k + 1 : Nat) * d) ∨
    2 ^ 53 ≤ (Decimal.integerPart (range.counter first (k + 1))).natAbs := by
  have hsum : a + k * d + d = a + (k + 1 : Nat) * d := by
    rw [Nat.cast_succ, Int.add_mul, Int.one_mul, Int.add_assoc]
  rw [← hsum]
  by_cases hsmall : (a + k * d + d).natAbs < 2 ^ 53
  · exact .inl ⟨hsmall, hx.add h.increment hsmall⟩
  · exact .inr (hx.add_large h.increment (Nat.le_of_not_lt hsmall))

/-- Up to the number of rounds the loop visits exactly the integers on its way. -/
lemma OverIntegers.visits (hk : k < roundCount a b d) :
    range.Visits first k ∧ IsInteger (range.counter first k) (a + k * d) := by
  induction k with
  | zero =>
    refine ⟨fun j hj => ?_, h.counter_zero⟩
    rw [Nat.le_zero.mp hj, Bool.eq_false_iff, Ne, h.isPast_exact h.counter_zero]
    exact not_not.mpr hk
  | succ k ih =>
    obtain ⟨hvisits, hx⟩ := ih (Nat.lt_of_succ_lt hk)
    have hnext := visits_succ hvisits (h.not_past_next hx hk)
    refine ⟨hnext, ?_⟩
    rcases h.counter_succ hx with ⟨-, hexact⟩ | hlarge
    · exact hexact
    · exact absurd (h.visited (k + 1) hnext) (Nat.not_lt_of_le hlarge)

/-- After that number of rounds the counter is past the end. -/
lemma OverIntegers.ends : range.isPast (range.counter first (roundCount a b d)) = true := by
  cases hcount : roundCount a b d with
  | zero =>
    rw [h.isPast_exact h.counter_zero, hcount]
    exact Nat.lt_irrefl 0
  | succ k =>
    obtain ⟨hvisits, hx⟩ := h.visits (k := k) (by omega)
    rcases h.counter_succ hx with ⟨-, hexact⟩ | hlarge
    · rw [h.isPast_exact hexact, hcount]
      exact Nat.lt_irrefl _
    · -- If the loop went on, it would visit a number that is too large.
      by_contra hpast
      have hnext := visits_succ hvisits (Bool.eq_false_iff.mpr hpast)
      exact absurd (h.visited (k + 1) hnext) (Nat.not_lt_of_le hlarge)

lemma OverIntegers.count_lt : roundCount a b d < Signal.maxRounds := by
  cases hcount : roundCount a b d with
  | zero => decide
  | succ k =>
    have hbelow : ∀ j ≤ k, (a + j * d).natAbs < 2 ^ 53 := by
      intro j hj
      obtain ⟨hvisits, hx⟩ := h.visits (k := j) (by omega)
      have hvisited := h.visited j hvisits
      rwa [hx.part] at hvisited
    have hfirst := hbelow 0 (Nat.zero_le k)
    have hlast := hbelow k (Nat.le_refl k)
    have hmaxRounds : Signal.maxRounds = 2 ^ 64 + 1 := rfl
    have hfar : k ≤ (k * d).natAbs := by
      rw [Int.natAbs_mul, Int.natAbs_natCast]
      exact Nat.le_mul_of_pos_right k (Int.natAbs_pos.mpr h.moves)
    omega

end Integers

section Rounds

/-- The counter is a variable of the scope of the rounds. -/
def Counts (counter : Token) (id : ScopeId) (heap : Heap) (value : Float) : Prop :=
  heap.own? id (Text.lower counter.lexeme) = some ⟨.variable, .number value⟩

/-- A round of a counting loop: the counter in it, the machine in which its body starts, the signal
that ends the body, and the machine in which it has ended. -/
structure Iteration where
  value : Float
  before : Machine
  signal : Signal
  after : Machine

def Iteration.next (iteration : Iteration) (counter : Token) (id : ScopeId) (increment : Float) :
    Machine :=
  { iteration.after with
    heap := iteration.after.heap.bind id (Text.lower counter.lexeme)
      ⟨.variable, .number (iteration.value + increment)⟩ }

/-- A round that starts in a machine, is counted as one step, runs its body to the end and finds the
counter as it was. -/
structure Completes (c : Config) (token counter : Token) (id : ScopeId) (round : Run Signal)
    (m : Machine) (iteration : Iteration) : Prop where
  starts : Counts counter id m.heap iteration.value
  step : Run.step token c m = (.ok (), iteration.before)
  body : Run.within id round c iteration.before = (.ok iteration.signal, iteration.after)
  goesOn : goesOn iteration.signal = true
  leaves : Counts counter id iteration.after.heap iteration.value

inductive Iterates (c : Config) (token counter : Token) (id : ScopeId) (increment : Float)
    (round : Run Signal) (m : Machine) : List Iteration → Machine → Prop
  | none : Iterates c token counter id increment round m [] m
  | next {iterations : List Iteration} {s : Machine} {iteration : Iteration}
      (h : Iterates c token counter id increment round m iterations s)
      (hround : Completes c token counter id round s iteration) :
      Iterates c token counter id increment round m (iterations ++ [iteration])
        (iteration.next counter id increment)

variable {c : Config} {token counter : Token} {id : ScopeId} {range : Run.Range} {first : Float}
  {round : Run Signal} {m s : Machine} {iterations : List Iteration}

lemma Counts.unique {heap : Heap} {x y : Float} (h : Counts counter id heap x)
    (h' : Counts counter id heap y) : x = y := by
  cases h.symm.trans h'
  rfl

lemma Counts.next {iteration : Iteration}
    (h : Counts counter id iteration.after.heap iteration.value) (increment : Float) :
    Counts counter id (iteration.next counter id increment).heap (iteration.value + increment) :=
  own?_bind_self _ _ _ _ (lt_size_of_own? h)

/-- The counter is seen from the scope of the rounds under every spelling of its name. -/
lemma Counts.lookup {heap : Heap} {x : Float} (h : Counts counter id heap x) {name : String}
    (hname : Text.lower name = Text.lower counter.lexeme) :
    heap.lookup id name = .ok (.number x) := by
  have hown : heap.own? id (Text.lower name) = some ⟨.variable, .number x⟩ := by rwa [hname]
  simp [Heap.lookup, get_eq, owner?_own hown, hown]

lemma iterates_counts (h : Iterates c token counter id range.increment round m iterations s)
    (hm : Counts counter id m.heap first) :
    Counts counter id s.heap (range.counter first iterations.length) := by
  induction h with
  | none => exact hm
  | @next _ _ iteration _ hround ih =>
    rw [List.length_append, List.length_singleton, Run.Range.counter, ← hround.starts.unique ih]
    exact hround.leaves.next range.increment

lemma iterates_values (h : Iterates c token counter id range.increment round m iterations s)
    (hm : Counts counter id m.heap first) {k : Nat} {iteration : Iteration}
    (hk : iterations[k]? = some iteration) :
    iteration.value = range.counter first k ∧
      Counts counter id iteration.before.heap iteration.value := by
  induction h with
  | none => simp at hk
  | @next iterations _ last h hround ih =>
    by_cases hlast : k < iterations.length
    · rw [List.getElem?_append_left hlast] at hk
      exact ih hk
    · have hlt := (List.getElem?_eq_some_iff.mp hk).1
      rw [List.length_append, List.length_singleton] at hlt
      have hlength : k = iterations.length := by omega
      rw [hlength, List.getElem?_concat_length] at hk
      cases hk
      rw [hlength, of_step_eq_ok hround.step]
      exact ⟨hround.starts.unique (iterates_counts h hm), hround.starts⟩

lemma iterates_steps {increment : Float}
    (h : Iterates c token counter id increment round m iterations s) :
    (s.steps : Int) - m.steps = iterations.length +
      (iterations.map fun iteration =>
        (iteration.after.steps : Int) - iteration.before.steps).sum := by
  induction h with
  | none => simp
  | @next iterations s iteration _ hround ih =>
    have hstep := congrArg Machine.steps (of_step_eq_ok hround.step)
    have hafter : (iteration.next counter id increment).steps = iteration.after.steps := rfl
    rw [List.map_append, List.sum_append, List.length_append, hafter]
    simp only [List.map_singleton, List.sum_singleton, List.length_singleton]
    dsimp only at hstep
    omega

/-- Outside the scope of the rounds, and for other names in it, the loop itself binds nothing. -/
lemma iterates_elsewhere {increment : Float} {other : ScopeId} {key : String}
    (hne : id = other → Text.lower counter.lexeme ≠ key)
    (h : Iterates c token counter id increment round m iterations s)
    (hbodies : ∀ iteration ∈ iterations,
      iteration.after.heap.own? other key = iteration.before.heap.own? other key) :
    s.heap.own? other key = m.heap.own? other key := by
  induction h with
  | none => rfl
  | @next iterations s iteration _ hround ih =>
    have hbefore := ih fun iteration hmem => hbodies iteration (List.mem_append_left _ hmem)
    have hbody := hbodies iteration (by simp)
    rw [of_step_eq_ok hround.step] at hbody
    rw [Iteration.next, own?_bind_of_ne _ _ _ _ _ hne, hbody, ← hbefore]

/-- A loop runs through its rounds as long as the counter is not past the end. -/
lemma forLoop_iterates (h : Iterates c token counter id range.increment round m iterations s)
    (hm : Counts counter id m.heap first)
    (hvisits : ∀ k < iterations.length, range.isPast (range.counter first k) = false)
    (rounds : Nat) :
    Run.forLoop token counter id range round (rounds + iterations.length) first c m =
      Run.forLoop token counter id range round rounds (range.counter first iterations.length) c
        s := by
  induction h generalizing rounds with
  | none => rfl
  | @next iterations s iteration h hround ih =>
    rw [List.length_append, List.length_singleton] at hvisits ⊢
    have hvalue := hround.starts.unique (iterates_counts h hm)
    have hearlier := ih (fun k hk => hvisits k (by omega)) (rounds + 1)
    rw [Nat.add_right_comm] at hearlier
    rw [← Nat.add_assoc, hearlier, Run.Range.counter, ← hvalue]
    exact forLoop_goesOn (hvalue ▸ hvisits _ (Nat.lt_succ_self _)) hround.step hround.body
      hround.goesOn (advance_own token range hround.leaves) rounds

lemma forLoop_past {current : Float} (h : range.isPast current = true) (rounds : Nat) :
    Run.forLoop token counter id range round (rounds + 1) current c m = (.ok .normal, m) := by
  rw [Run.forLoop, if_pos h]
  rfl

/-- A loop over integers goes through any number of rounds that it has. -/
lemma OverIntegers.forLoop_iterates {a b d : Int} (hover : OverIntegers range first a b d)
    (hm : Counts counter id m.heap first)
    (h : Iterates c token counter id range.increment round m iterations s)
    (hle : iterations.length ≤ roundCount a b d) :
    ∃ rounds, Run.forLoop token counter id range round Signal.maxRounds first c m =
      Run.forLoop token counter id range round (rounds + 1) (range.counter first iterations.length)
        c s := by
  have hrounds : iterations.length + 1 ≤ Signal.maxRounds := by
    have := hover.count_lt
    omega
  obtain ⟨rounds, hrounds⟩ := Nat.exists_eq_add_of_le' hrounds
  refine ⟨rounds, ?_⟩
  rw [hrounds, Nat.add_left_comm rounds, Nat.add_comm]
  apply XBase.Proofs.forLoop_iterates h hm
  intro k hk
  exact (hover.visits (by omega)).1 k (Nat.le_refl k)

def leftWith : Signal → Signal
  | .returned value => .returned value
  | _ => .normal

/-- `exit` and `return` end the loop with the round that they are in. -/
lemma forLoop_leaves {current : Float} {counted after : Machine} {signal : Signal}
    (hpast : range.isPast current = false) (hstep : Run.step token c m = (.ok (), counted))
    (hround : Run.within id round c counted = (.ok signal, after)) (hsignal : goesOn signal = false)
    (rounds : Nat) :
    Run.forLoop token counter id range round (rounds + 1) current c m =
      (.ok (leftWith signal), after) := by
  rw [Run.forLoop, if_neg (by simp [hpast]), bind_ok hstep, bind_ok hround]
  cases signal with
  | exited => rfl
  | returned value => rfl
  | _ => cases hsignal

/-- If every round completes, there are as many as are wanted. -/
lemma iterates_all {increment : Float} {count : Nat}
    (h : ∀ iterations s, Iterates c token counter id increment round m iterations s →
      iterations.length < count → ∃ iteration, Completes c token counter id round s iteration) :
    ∃ iterations s, Iterates c token counter id increment round m iterations s ∧
      iterations.length = count := by
  induction count with
  | zero => exact ⟨[], m, .none, rfl⟩
  | succ count ih =>
    obtain ⟨iterations, s, hiterates, hlength⟩ :=
      ih fun iterations s hiterates hlt => h iterations s hiterates (Nat.lt_succ_of_lt hlt)
    obtain ⟨iteration, hround⟩ := h iterations s hiterates (by omega)
    exact ⟨_, _, hiterates.next hround, by simp [hlength]⟩

end Rounds

section Preparation

variable {c : Config} {token counter : Token} {start finish : Expr} {step : Option Expr}
  {range : Run.Range} {first : Float} {m ready : Machine}

/-- The increment of a loop: one if there is no step, and what the step is found to be otherwise. -/
def IncrementIs (invoke : Invocation) (c : Config) (id : ScopeId) (m : Machine) (increment : Float)
    (ready : Machine) : Option Expr → Prop
  | none => increment = 1 ∧ ready = m
  | some step => Run.holdingCells [.scope id] (step.eval invoke) c m =
      (.ok (.number increment), ready)

/-- A counting loop makes its scope, declares its counter there and finds its bounds. -/
inductive Prepares (invoke : Invocation) (c : Config) (counter : Token) (start finish : Expr)
    (step : Option Expr) (m : Machine) (first : Float) (range : Run.Range) (ready : Machine) : Prop
  | intro {m₁ m₂ m₃ : Machine}
      (hstart : start.eval invoke c { m with heap := (m.heap.newScope (some m.scope)).2 } =
        (.ok (.number first), m₁))
      (hcounter : Run.define m.heap.scopes.size counter (.number first) .variable c m₁ =
        (.ok (), m₂))
      (hfinish : Run.holdingCells [.scope m.heap.scopes.size] (finish.eval invoke) c m₂ =
        (.ok (.number range.finish), m₃))
      (hstep : IncrementIs invoke c m.heap.scopes.size m₃ range.increment ready step)

lemma countingLoop_prepares {invoke : Invocation}
    (h : Prepares invoke c counter start finish step m first range ready)
    (hmoves : ¬ (range.increment == 0) = true) (token : Token) (round : Run Signal) :
    Run.countingLoop invoke token counter start finish step round c m =
      Run.forLoop token counter m.heap.scopes.size range round Signal.maxRounds first c ready := by
  obtain ⟨hstart, hcounter, hfinish, hstep⟩ := h
  have hscope : Run.scope c m = (.ok m.scope, m) := rfl
  have hmade : Run.allocate (fun heap => heap.newScope (some m.scope)) c m =
      (.ok m.heap.scopes.size, { m with heap := (m.heap.newScope (some m.scope)).2 }) := rfl
  rw [Run.countingLoop, bind_ok hscope, bind_ok hmade, bind_ok hstart, bind_ok hcounter,
    bind_ok hfinish]
  obtain ⟨last, increment⟩ := range
  have hloop : (if increment == 0 then Run.fail token .zeroStep else
      Run.forLoop token counter m.heap.scopes.size ⟨last, increment⟩ round Signal.maxRounds first) c
        ready = _ := congrFun (congrFun (if_neg hmoves) c) ready
  cases step with
  | none =>
    obtain ⟨hone, rfl⟩ := hstep
    change increment = 1 at hone
    subst hone
    exact hloop
  | some step =>
    dsimp only
    rw [bind_ok hstep]
    exact hloop

lemma Counts.same {id : ScopeId} {heap heap' : Heap} {x : Float} (h : Counts counter id heap x)
    (hsame : heap'.scopes[id]? = heap.scopes[id]?) : Counts counter id heap' x := by
  rw [Counts, Heap.own?, hsame]
  exact h

/-- Whatever the bounds are, the counter is found as it was declared. -/
lemma prepares_counts {hhost : DataOnly c.host} {library : Library} {directory : String}
    {sources : List String} {w : List ScopeId} {levels : Nat}
    (hm : (sessionLaw hhost library directory sources).Governs w m)
    (hstack : (sessionLaw hhost library directory sources).Stack w m)
    (h : Prepares (below levels) c counter start finish step m first range ready) :
    Counts counter m.heap.scopes.size ready.heap first := by
  obtain @⟨m₁, _, m₃, hstart, hcounter, hfinish, hstep⟩ := h
  have hid : 0 ≠ m.heap.scopes.size := Nat.ne_of_lt (Nat.lt_of_lt_of_le (by decide) hm.keep.1.size)
  have haround : m.scope < m.heap.scopes.size := (hstack m.scope List.mem_cons_self).1.1
  have houtside : ∀ s : Machine, s.scope = m.scope → s.scope ≠ m.heap.scopes.size :=
    fun s hs => hs ▸ Nat.ne_of_lt haround
  have hbeside := beside_new hm hid haround
  obtain ⟨hbeside₁, hscope₁, hsame₁⟩ := hbeside.eval_outside (houtside _ rfl) hstart
  have hnone : m₁.heap.own? m.heap.scopes.size (Text.lower counter.lexeme) = none := by
    rw [Heap.own?, hsame₁]
    simp [Heap.newScope]
  rw [define_new _ _ hnone] at hcounter
  cases hcounter
  let binding : Binding := ⟨.variable, .number first⟩
  have hother : binding.value ≠ .scope m.heap.scopes.size := by simp [binding]
  have hbeside₂ := hbeside₁.bind (Text.lower counter.lexeme) hother
  have hcounts₂ : Counts counter m.heap.scopes.size _ first :=
    own?_bind_self m₁.heap _ _ binding hbeside₁.made
  obtain ⟨hbeside₃, hscope₃, hsame₃⟩ := hbeside₂.eval_holding (houtside _ hscope₁) hfinish
  have hcounts₃ := hcounts₂.same hsame₃
  cases step with
  | none =>
    obtain ⟨-, rfl⟩ := hstep
    exact hcounts₃
  | some step =>
    obtain ⟨-, -, hsame⟩ := hbeside₃.eval_holding (houtside _ (hscope₃.trans hscope₁)) hstep
    exact hcounts₃.same hsame

end Preparation

/-- At any moment of a session, a counting loop over integers which visits only such below `2 ^ 53`
makes `⌊(b - a) / d⌋ + 1` rounds, or none if that is negative, as long as each of them goes through
to its end and leaves the counter as it was: the `k`-th round sees the counter as `a + k * d`, the
loop itself counts one step for each round and binds nothing but the counter in its own scope, and
after the last round it has ended normally. A round that is left ends the loop at once. -/
theorem counting_loop_rounds (config : Config) (hhost : DataOnly config.host) (library : Library)
    (directory : String) (sources : List String) {earlier : List Moment}
    (hearlier : earlier <+: history (Session.new config library directory) sources) :
    let m := finish (Machine.start config.host) earlier
    ∀ (levels : Nat) (token counter : Token) (start finish : Expr) (step : Option Expr)
      (body : List Stmt) (counted ready : Machine) (first : Float) (range : Run.Range)
      (a b d : Int),
      Run.step token config m = (.ok (), counted) →
      Prepares (below levels) config counter start finish step counted first range ready →
      OverIntegers range first a b d →
      let id := m.heap.scopes.size
      let count := max 0 ((b - a).fdiv d + 1)
      let round := Stmt.execAll (below levels) body
      let iterates := Iterates config token counter id range.increment round ready
      let outcome :=
        (Stmt.forLoop token counter start finish step body).exec (below levels) config m
      (∀ iterations s, iterates iterations s → iterations.length ≤ count →
        (∀ (k : Nat) iteration, iterations[k]? = some iteration →
          IsInteger iteration.value (a + k * d) ∧
          ∀ name, Text.lower name = Text.lower counter.lexeme →
            iteration.before.heap.lookup id name = .ok (.number iteration.value)) ∧
        (s.steps : Int) - ready.steps = iterations.length +
          (iterations.map fun iteration =>
            (iteration.after.steps : Int) - iteration.before.steps).sum ∧
        (∀ other key, (id = other → Text.lower counter.lexeme ≠ key) →
          (∀ iteration ∈ iterations,
            iteration.after.heap.own? other key = iteration.before.heap.own? other key) →
          s.heap.own? other key = ready.heap.own? other key) ∧
        (iterations.length = count → outcome = (.ok .normal, s)) ∧
        (iterations.length < count → ∀ before signal after,
          Run.step token config s = (.ok (), before) →
          Run.within id round config before = (.ok signal, after) → goesOn signal = false →
          outcome = (.ok (leftWith signal), after))) ∧
      ((∀ iterations s, iterates iterations s → iterations.length < count →
          ∃ iteration, Completes config token counter id round s iteration) →
        ∃ iterations s, iterates iterations s ∧ iterations.length = count ∧
          outcome = (.ok .normal, s)) := by
  intro m levels token counter start finish step body counted ready first range a b d hstep hready
    hover id count round iterates outcome
  have hcount : count = roundCount a b d := (Int.ofNat_toNat _).trans (max_comm _ _) |>.symm
  obtain ⟨w, hm, hstack⟩ := session_governed hhost hearlier
  have hcounted := of_step_eq_ok hstep
  have hgoverned : (sessionLaw hhost library directory sources).Governs w
      { m with steps := m.steps + 1 } := ⟨hm.heap, hm.keep, hm.home, hm.session⟩
  have hcounts : Counts counter id ready.heap first := by
    rw [hcounted] at hready
    exact prepares_counts (m := { m with steps := m.steps + 1 }) hgoverned hstack hready
  have houtcome : outcome =
      Run.forLoop token counter id range round Signal.maxRounds first config ready := by
    have hmoves : ¬ (range.increment == 0) = true :=
      fun h => hover.moves (hover.increment.beq_zero.mp h)
    have hid : counted.heap.scopes.size = id := by rw [hcounted]
    rw [← hid, ← countingLoop_prepares hready hmoves token round]
    exact bind_ok hstep
  have hrounds : ∀ iterations s, iterates iterations s → iterations.length = count →
      outcome = (.ok .normal, s) := by
    intro iterations s hiterates hlength
    obtain ⟨rounds, hloop⟩ := hover.forLoop_iterates hcounts hiterates (by omega)
    have hlast : iterations.length = roundCount a b d := by omega
    rw [houtcome, hloop, hlast]
    exact forLoop_past hover.ends rounds
  refine ⟨fun iterations s hiterates hle => ⟨?_, ?_, ?_, hrounds iterations s hiterates, ?_⟩, ?_⟩
  · intro k iteration hk
    have hlt := (List.getElem?_eq_some_iff.mp hk).1
    obtain ⟨hvalue, hbefore⟩ := iterates_values hiterates hcounts hk
    constructor
    · rw [hvalue]
      exact (hover.visits (by omega)).2
    · intro name hname
      exact hbefore.lookup hname
  · exact iterates_steps hiterates
  · intro other key hne hbodies
    exact iterates_elsewhere hne hiterates hbodies
  · intro hlt before signal after hbefore hbody hsignal
    obtain ⟨rounds, hloop⟩ := hover.forLoop_iterates hcounts hiterates (by omega)
    have hvisits := (hover.visits (k := iterations.length) (by omega)).1
    rw [houtcome, hloop]
    exact forLoop_leaves (hvisits _ (Nat.le_refl _)) hbefore hbody hsignal rounds
  · intro hcomplete
    have hall : ∀ iterations s, iterates iterations s → iterations.length < roundCount a b d →
        ∃ iteration, Completes config token counter id round s iteration :=
      fun iterations s hiterates hlt => hcomplete iterations s hiterates (by omega)
    obtain ⟨iterations, s, hiterates, hlength⟩ := iterates_all hall
    have hlast : iterations.length = count := by omega
    exact ⟨iterations, s, hiterates, hlast, hrounds iterations s hiterates hlast⟩

section Literals

def numberLiteral (value : Float) : Expr :=
  .literal { nameToken "number" with literal := some (.number value) }

def counting (counter : Token) (first : Float) (m : Machine) : Machine :=
  { m with
    heap := (m.heap.newScope (some m.scope)).2.bind m.heap.scopes.size (Text.lower counter.lexeme)
      ⟨.variable, .number first⟩ }

variable {c : Config} {levels : Nat} {token counter : Token} {m : Machine}

lemma step_unlimited (hsteps : c.limits.maxSteps = none) (token : Token) (s : Machine) :
    Run.step token c s = (.ok (), { s with steps := s.steps + 1 }) := by
  rcases step_cases token c s with ⟨h, -⟩ | ⟨_, h, -, -⟩
  · exact h
  · rw [hsteps] at h
    cases h

lemma prepares_literals {invoke : Invocation} (first last increment : Float) :
    Prepares invoke c counter (numberLiteral first) (numberLiteral last)
      (some (numberLiteral increment)) m first ⟨last, increment⟩ (counting counter first m) := by
  let made : Machine := { m with heap := (m.heap.newScope (some m.scope)).2 }
  have hfresh : made.heap.own? m.heap.scopes.size (Text.lower counter.lexeme) = none := by
    simp [made, Heap.own?, Heap.newScope]
  have hcounter : Run.define m.heap.scopes.size counter (.number first) .variable c made =
      (.ok (), counting counter first m) := define_new _ _ hfresh
  exact .intro rfl hcounter rfl rfl

lemma execAll_loop (hsteps : c.limits.maxSteps = none) :
    Stmt.execAll (below levels) [.loop token] c m =
      (.ok .looped, { m with steps := m.steps + 1 }) := by
  have hexec : (Stmt.loop token).exec (below levels) c m =
      (.ok .looped, { m with steps := m.steps + 1 }) := by
    rw [Stmt.exec, bind_ok (step_unlimited hsteps _ m)]
    rfl
  rw [Stmt.execAll, bind_ok hexec]
  rfl

lemma completes_loop (hsteps : c.limits.maxSteps = none) {id : ScopeId} {value : Float}
    (hm : Counts counter id m.heap value) : ∃ iteration,
      Completes c token counter id (Stmt.execAll (below levels) [.loop token]) m iteration := by
  let before : Machine := { m with steps := m.steps + 1 }
  have hbody : Run.within id (Stmt.execAll (below levels) [.loop token]) c before =
      (.ok .looped, { before with steps := before.steps + 1 }) := within_eq (execAll_loop hsteps)
  exact ⟨⟨value, before, .looped, _⟩, hm, step_unlimited hsteps token m, hbody, rfl, hm⟩

end Literals

def downByTwo : Run.Range := ⟨1, -2⟩

lemma downByTwo_overIntegers : OverIntegers downByTwo 6 6 1 (-2) where
  start := ⟨by decide +kernel, by decide +kernel⟩
  finish := ⟨by decide +kernel, by decide +kernel⟩
  increment := ⟨by decide +kernel, by decide +kernel⟩
  moves := by decide
  visited := by
    intro k hvisits
    have hpast : downByTwo.isPast (downByTwo.counter 6 3) = true := by decide +kernel
    have hk : k < 3 := by
      by_contra hlarge
      rw [hvisits 3 (Nat.le_of_not_lt hlarge)] at hpast
      cases hpast
    have hsmall : ∀ k < 3, (Decimal.integerPart (downByTwo.counter 6 k)).natAbs < 2 ^ 53 := by
      decide +kernel
    exact hsmall k hk

/-- The loop goes through three rounds, in which the counter is six, four and two. -/
theorem counting_down_makes_three_rounds :
    let c : Config := ⟨⟨none, 2⟩, bareHost⟩
    let m := finish (Machine.start bareHost) (history (Session.new c .closed "") ["i = 9"])
    let loop := Stmt.forLoop (nameToken "for") (nameToken "i") (numberLiteral 6) (numberLiteral 1)
      (some (numberLiteral (-2))) [.loop (nameToken "for")]
    DataOnly bareHost ∧ OverIntegers downByTwo 6 6 1 (-2) ∧
      ∃ (iterations : List Iteration) (s : Machine), iterations.length = 3 ∧
        loop.exec (below 2) c m = (.ok .normal, s) ∧
        ∀ (k : Nat) iteration, iterations[k]? = some iteration →
          IsInteger iteration.value (6 + k * -2) := by
  intro c m loop
  have hrounds := counting_loop_rounds c dataOnly_bareHost .closed "" ["i = 9"]
    (List.prefix_refl (history (Session.new c .closed "") _)) 2 (nameToken "for") (nameToken "i")
    (numberLiteral 6) (numberLiteral 1) (some (numberLiteral (-2))) [.loop (nameToken "for")] _ _ 6
    downByTwo 6 1 (-2) (step_unlimited rfl _ _) (prepares_literals 6 1 (-2)) downByTwo_overIntegers
  refine ⟨dataOnly_bareHost, downByTwo_overIntegers, ?_⟩
  have hcounts : Counts (nameToken "i") m.heap.scopes.size (counting (nameToken "i") 6 m).heap 6 :=
    own?_bind_self _ _ _ _ (by simp [Heap.newScope])
  obtain ⟨iterations, s, hiterates, hlength, hexec⟩ := hrounds.2 fun iterations s hiterates _ =>
    completes_loop rfl (iterates_counts hiterates hcounts)
  have hthree : iterations.length = 3 := by
    have : max 0 (((1 : Int) - 6).fdiv (-2) + 1) = 3 := by decide
    omega
  refine ⟨iterations, s, hthree, hexec, fun k iteration hk => ?_⟩
  exact ((hrounds.1 iterations s hiterates (Int.le_of_eq hlength)).1 k iteration hk).1

end Proofs

end XBase

end
