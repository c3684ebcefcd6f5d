import XBase.Proofs.Sealing

/-!
# The scopes of rounds

A loop with a test makes a scope for each of its rounds, so that no round finds the names of an
earlier one. A counting loop makes a single scope, for its counter, and runs all its rounds there: a
round starts with the names that the round before it has left.

That an action is only ever run from machines of some kind is said by exchanging it for any other
action that does the same from those machines.
-/

namespace XBase.Proofs

def goesOn : Signal → Bool
  | .normal | .looped => true
  | .exited | .returned _ => false

variable {m m' : Machine} {id : ScopeId} {heap : Heap} {current : Float} {counter : Token}
  {v : Value}

lemma within_eq {α : Type} {x : Run α} {c : Config} {after : Machine} {result : Except Halt α}
    (h : x c { m with scope := id, saved := m.scope :: m.saved } = (result, after)) :
    Run.within id x c m = (result, { after with scope := m.scope, saved := m.saved }) := by
  unfold Run.within
  rw [h]

section Tests

variable {c : Config}

lemma bind_congr_right {α β : Type} {x : Run α} {f g : α → Run β} (h : ∀ a m, f a c m = g a c m)
    (m : Machine) : (x >>= f) c m = (x >>= g) c m := by
  rcases hx : x c m with ⟨why | a, m'⟩
  · rw [bind_error hx, bind_error hx]
  · rw [bind_ok hx, bind_ok hx, h a m']

lemma boundNames_new (heap : Heap) (parent : Option ScopeId) :
    boundNames (heap.newScope parent).2 heap.scopes.size = ∅ := by
  refine Set.eq_empty_iff_forall_notMem.mpr fun key hkey => ?_
  simp [mem_boundNames, Heap.own?, Heap.newScope] at hkey

/-- A block starts in a scope without names. -/
lemma nested_congr {x y : Run Signal}
    (h : ∀ s, boundNames s.heap s.scope = ∅ → x c s = y c s) (body : List Stmt) (m : Machine) :
    Run.nested body x c m = Run.nested body y c m := by
  unfold Run.nested
  split
  · rfl
  · refine bind_congr_right (fun around m' => ?_) m
    have hnew : Run.allocate (fun heap => heap.newScope (some around)) c m' =
        (.ok m'.heap.scopes.size, { m' with heap := (m'.heap.newScope (some around)).2 }) := rfl
    rw [bind_ok hnew, bind_ok hnew]
    unfold Run.within
    rw [h]
    exact boundNames_new m'.heap (some around)

variable {round round' : Run Signal} (h : ∀ m, round c m = round' c m)
include h

lemma whileLoop_congr (token : Token) (test : Run Value) (rounds : Nat) (m : Machine) :
    Run.whileLoop token test round rounds c m = Run.whileLoop token test round' rounds c m := by
  induction rounds generalizing m with
  | zero => rfl
  | succ rounds ih =>
    refine bind_congr_right (fun v m₁ => ?_) m
    split
    · refine bind_congr_right (fun _ m₂ => ?_) m₁
      have hround := h m₂
      rcases hr : round c m₂ with ⟨why | signal, m₃⟩
      · rw [bind_error hr, bind_error (hround ▸ hr)]
      · rw [bind_ok hr, bind_ok (hround ▸ hr)]
        cases signal with
        | normal => exact ih m₃
        | looped => exact ih m₃
        | _ => rfl
    · rfl

lemma doLoop_congr (token : Token) (test : Run Value) (rounds : Nat) (m : Machine) :
    Run.doLoop token test round rounds c m = Run.doLoop token test round' rounds c m := by
  induction rounds generalizing m with
  | zero => rfl
  | succ rounds ih =>
    refine bind_congr_right (fun _ m₁ => ?_) m
    have hround := h m₁
    have hagain : ∀ m, (test >>= fun v =>
          if v.isTruthy then Run.doLoop token test round rounds else pure .normal) c m =
        (test >>= fun v =>
          if v.isTruthy then Run.doLoop token test round' rounds else pure .normal) c m := by
      refine bind_congr_right fun v m₂ => ?_
      split
      · exact ih m₂
      · rfl
    rcases hr : round c m₁ with ⟨why | signal, m₂⟩
    · rw [bind_error hr, bind_error (hround ▸ hr)]
    · rw [bind_ok hr, bind_ok (hround ▸ hr)]
      cases signal with
      | normal => exact hagain m₂
      | looped => exact hagain m₂
      | _ => rfl

end Tests

section Counters

variable {c : Config} {token counter : Token} {id : ScopeId} {range : Run.Range}

lemma boundNames_bind {owner : ScopeId} {key : String} {old : Binding}
    (hown : heap.own? owner key = some old) (new : Binding) (other : ScopeId) :
    boundNames (heap.bind owner key new) other = boundNames heap other := by
  ext name
  rw [mem_boundNames, mem_boundNames]
  by_cases hsame : owner = other ∧ key = name
  · obtain ⟨rfl, rfl⟩ := hsame
    obtain ⟨scope, hscope, -⟩ := Option.bind_eq_some_iff.mp hown
    have hbound : (heap.bind owner key new).own? owner key = some new := by
      unfold Heap.bind
      rw [own?_modifyBindings, if_pos rfl, hscope]
      simp
    simp [hbound, hown]
  · have hother : owner = other → key ≠ name := fun h h' => hsame ⟨h, h'⟩
    rw [own?_bind_of_ne heap other owner name new hother]

lemma boundNames_assign {name : String} {old : Value} (hseen : heap.lookup id name = .ok old)
    (new : Value) (other : ScopeId) :
    boundNames (heap.assign id name new).2 other = boundNames heap other := by
  unfold Heap.lookup at hseen
  rw [get_eq] at hseen
  cases howner : heap.owner? id (Text.lower name) with
  | none => simp [howner] at hseen
  | some owner =>
    obtain ⟨binding, hown⟩ := own?_of_owner? howner
    rw [assign_eq, howner, Option.getD_some]
    unfold Heap.assignOwn
    dsimp only
    split
    · rfl
    · exact boundNames_bind hown _ other

/-- Moving the counter on takes no names away and adds none. -/
lemma boundNames_advance {s : Machine} {next : Float}
    (h : Run.advance token counter id range c m = (.ok next, s)) (other : ScopeId) :
    boundNames s.heap other = boundNames m.heap other := by
  have hlookup := lookup_eq id counter.lexeme counter c m
  unfold Run.advance at h
  cases hseen : m.heap.lookup id counter.lexeme with
  | error why =>
    rw [hseen] at hlookup
    rw [bind_error hlookup] at h
    cases h
  | ok v =>
    rw [hseen] at hlookup
    rw [bind_ok hlookup] at h
    cases v with
    | number n =>
      have hrebind := rebind_eq counter
        (fun heap => heap.assign id counter.lexeme (.number (n + range.increment))) c m
      dsimp only at h
      cases hdone : (m.heap.assign id counter.lexeme (.number (n + range.increment))).1 with
      | error why =>
        rw [hdone] at hrebind
        rw [bind_error hrebind] at h
        cases h
      | ok done =>
        rw [hdone] at hrebind
        rw [bind_ok hrebind] at h
        cases h
        exact boundNames_assign hseen _ other
    | _ => cases h

/-- One round and the move of the counter, after which the rest of the loop runs. -/
lemma forLoop_goesOn {round : Run Signal} {next : Float} {m₁ e s : Machine} {signal : Signal}
    (hpast : range.isPast current = false) (hstep : Run.step token c m = (.ok (), m₁))
    (hround : Run.within id round c m₁ = (.ok signal, e)) (hsignal : goesOn signal = true)
    (hadvance : Run.advance token counter id range c e = (.ok next, s)) (rounds : Nat) :
    Run.forLoop token counter id range round (rounds + 1) current c m =
      Run.forLoop token counter id range round rounds next c s := by
  rw [Run.forLoop, if_neg (by simp [hpast]), bind_ok hstep, bind_ok hround]
  cases signal with
  | normal => exact bind_ok hadvance
  | looped => exact bind_ok hadvance
  | _ => cases hsignal

/-- If no round leaves names behind, then every round starts without names of an earlier one. -/
lemma forLoop_congr {x y : Run Signal} {names : Set String}
    (hleaves : ∀ s signal e, s.scope = id → boundNames s.heap id ⊆ names →
      x c s = (.ok signal, e) → goesOn signal = true → boundNames e.heap id ⊆ names)
    (h : ∀ s, s.scope = id → boundNames s.heap id ⊆ names → x c s = y c s) (rounds : Nat)
    (current : Float) (m : Machine) (hm : boundNames m.heap id ⊆ names) :
    Run.forLoop token counter id range x rounds current c m =
      Run.forLoop token counter id range y rounds current c m := by
  induction rounds generalizing current m with
  | zero => rfl
  | succ rounds ih =>
    rw [Run.forLoop, Run.forLoop]
    split
    · rfl
    rcases hs : Run.step token c m with ⟨why | _, m₁⟩
    · rw [bind_error hs, bind_error hs]
    have hinside : boundNames m₁.heap id ⊆ names := by
      rw [of_step_eq_ok hs]
      exact hm
    have hsame : Run.within id x c m₁ = Run.within id y c m₁ := by
      unfold Run.within
      rw [h { m₁ with scope := id, saved := m₁.scope :: m₁.saved } rfl hinside]
    rw [bind_ok hs, bind_ok hs]
    rcases hr : Run.within id x c m₁ with ⟨why | signal, e⟩
    · rw [bind_error hr, bind_error (hsame ▸ hr)]
    rw [bind_ok hr, bind_ok (hsame ▸ hr)]
    have hend : goesOn signal = true → boundNames e.heap id ⊆ names := by
      intro hsignal
      rcases hx : x c { m₁ with scope := id, saved := m₁.scope :: m₁.saved } with ⟨result, after⟩
      rw [within_eq hx] at hr
      cases hr
      exact hleaves { m₁ with scope := id, saved := m₁.scope :: m₁.saved } signal after rfl hinside
        hx hsignal
    -- Moving the counter on binds no other name, so the next round starts as this one did.
    have hagain : goesOn signal = true → (Run.advance token counter id range >>= fun next =>
          Run.forLoop token counter id range x rounds next) c e =
        (Run.advance token counter id range >>= fun next =>
          Run.forLoop token counter id range y rounds next) c e := by
      intro hsignal
      rcases ha : Run.advance token counter id range c e with ⟨why | next, s⟩
      · rw [bind_error ha, bind_error ha]
      · rw [bind_ok ha, bind_ok ha]
        exact ih next s (boundNames_advance ha id ▸ hend hsignal)
    cases signal with
    | normal => exact hagain rfl
    | looped => exact hagain rfl
    | _ => rfl

end Counters

section Declarations

variable {c : Config} {m : Machine} {id : ScopeId} {name : Token}

lemma define_new (v : Value) (kind : BindingKind)
    (h : m.heap.own? id (Text.lower name.lexeme) = none) :
    Run.define id name v kind c m =
      (.ok (), { m with heap := m.heap.bind id (Text.lower name.lexeme) ⟨kind, v⟩ }) := by
  rw [Run.define, rebind_eq]
  simp [Heap.define, h, Except.mapError]

lemma advance_own (token : Token) (range : Run.Range) {n : Float}
    (h : m.heap.own? id (Text.lower counter.lexeme) = some ⟨.variable, .number n⟩) :
    Run.advance token counter id range c m =
      (.ok (n + range.increment),
        { m with
          heap := m.heap.bind id (Text.lower counter.lexeme)
            ⟨.variable, .number (n + range.increment)⟩ }) := by
  have hlookup : Run.lookup id counter.lexeme counter c m = (.ok (.number n), m) := by
    simp [lookup_eq, Heap.lookup, get_eq, owner?_own h, h, Except.mapError]
  have hassign : m.heap.assign id counter.lexeme (.number (n + range.increment)) =
      (.ok (), m.heap.bind id (Text.lower counter.lexeme)
        ⟨.variable, .number (n + range.increment)⟩) := by
    simp [assign_eq, owner?_own h, Heap.assignOwn, h]
  have hrebind := rebind_eq counter
    (fun heap => heap.assign id counter.lexeme (.number (n + range.increment))) c m
  rw [hassign] at hrebind
  rw [Run.advance, bind_ok hlookup]
  exact bind_ok hrebind

end Declarations

/-- A loop that ends before its first round, whatever its rounds are, or that comes to its first
round with no name but that of the counter in the scope of its rounds. -/
def Prepared (c : Config) (token counter : Token)
    (loop : Run Signal → Except Halt Signal × Machine) : Prop :=
  (∃ outcome, ∀ round, loop round = outcome) ∨
    ∃ id range current s, boundNames s.heap id ⊆ {Text.lower counter.lexeme} ∧
      ∀ round, loop round = Run.forLoop token counter id range round Signal.maxRounds current c s

section Preparation

variable {c : Config} {hhost : DataOnly c.host} {id : ScopeId} {base : Nat} {hid : id < base}
  {w : List ScopeId} {levels : Nat}

/-- A machine from which nothing gets at a scope that is under way. -/
structure Aside (hhost : DataOnly c.host) (hid : id < base) (w : List ScopeId) (m : Machine) :
    Prop where
  governs : (besideLaw hhost id base hid).Governs w m
  stack : (besideLaw hhost id base hid).Stack w m

lemma Aside.here (h : Aside hhost hid w m) :
    (besideLaw hhost id base hid).place m.heap.scopes.size m.scope :=
  (h.stack m.scope List.mem_cons_self).1

/-- An action that is lawful wherever all code is adds no names to the scope under way. -/
lemma aside_run {x : Invocation → Run Value} (d : Composition Signal.maxRounds x)
    (hd : ∀ (law : Law (List ScopeId) c) {s w n}, law.place n s → (∀ node, law.node node) →
      law.Conducts levels s w w n d (law.value w)) (hthree : 3 ≤ id) (hm : Aside hhost hid w m)
    (hrun : x (below levels) c m = (.ok v, m')) :
    Aside hhost hid w m' ∧ (besideLaw hhost id base hid).value w m'.heap.scopes.size v ∧
      boundNames m'.heap id ⊆ boundNames m.heap id := by
  have hout := hd (besideLaw hhost id base hid) hm.here (fun _ => trivial) m rfl (Nat.le_refl _)
    hm.governs hm.stack trivial
  have hnames : boundNames (x (below levels) c m).2.heap id ⊆ boundNames m.heap id :=
    (sealed_names d hthree hm.governs fun key hsealed =>
      ⟨_, hd (sealedLaw hhost hid hthree key) hm.here (fun _ => trivial) m rfl (Nat.le_refl _)
        hsealed hm.stack trivial⟩).1
  have hkept := run_keeps levels c d m
  have hsize := run_grows levels c d m
  have hgoverns := hout.governs
  have hresult := hout.result v (by rw [hrun])
  rw [hrun] at hnames hkept hsize hgoverns hresult
  exact ⟨⟨hgoverns, Law.stack_kept _ hm.stack hkept hsize⟩, hresult, hnames⟩

lemma aside_eval (hthree : 3 ≤ id) {e : Expr} (hm : Aside hhost hid w m)
    (hrun : e.eval (below levels) c m = (.ok v, m')) :
    Aside hhost hid w m' ∧ (besideLaw hhost id base hid).value w m'.heap.scopes.size v ∧
      boundNames m'.heap id ⊆ boundNames m.heap id :=
  aside_run (evalComposition e)
    (fun law _ _ _ hs hnode => law.conducts_eval (law.calls levels) hs e fun node _ => hnode node)
    hthree hm hrun

lemma aside_holding (hthree : 3 ≤ id) {cells : List Cell} {e : Expr} (hm : Aside hhost hid w m)
    (hrun : Run.holdingCells cells (e.eval (below levels)) c m = (.ok v, m')) :
    Aside hhost hid w m' ∧ boundNames m'.heap id ⊆ boundNames m.heap id := by
  have h := aside_run (.holding cells (evalComposition e))
    (fun law _ _ _ hs hnode => law.conducts_holding
      (law.conducts_eval (law.calls levels) hs e fun node _ => hnode node)) hthree hm hrun
  exact ⟨h.1, h.2.2⟩

/-- The counter becomes a name of the scope, which has none before. -/
lemma aside_define (hm : Aside hhost hid w m)
    (hv : (besideLaw hhost id base hid).value w m.heap.scopes.size v)
    (hnames : boundNames m.heap id = ∅)
    (hrun : Run.define id counter v .variable c m = (.ok (), m')) :
    Aside hhost hid w m' ∧ boundNames m'.heap id ⊆ {Text.lower counter.lexeme} := by
  have hpermits : (besideLaw hhost id base hid).Permits m.scope w m.heap.scopes.size
      (Run.define id counter v .variable) Law.Any :=
    Law.permits_define _ trivial hv counter .variable
  have hout := hpermits m rfl (Nat.le_refl _) hm.governs
  have hnone : ∀ key, m.heap.own? id key = none := fun key =>
    not_not.mp (Set.eq_empty_iff_forall_notMem.mp hnames key)
  rw [define_new _ _ (hnone _)] at hrun hout
  cases hrun
  refine ⟨⟨hout.governs, Law.stack_kept _ hm.stack ⟨rfl, rfl, rfl, rfl, rfl, rfl⟩ hout.size⟩, ?_⟩
  intro key hkey
  by_contra hother
  have hne : id = id → Text.lower counter.lexeme ≠ key := fun _ h => hother h.symm
  rw [mem_boundNames, own?_bind_of_ne m.heap id id key _ hne] at hkey
  exact hkey (hnone key)

/-- The preparation of a counting loop leaves nothing but the counter in its scope. -/
lemma countingLoop_prepared {library : Library} {directory : String} {sources : List String}
    (hm : (sessionLaw hhost library directory sources).Governs w m)
    (hstack : (sessionLaw hhost library directory sources).Stack w m) (token counter : Token)
    (start finish : Expr) (step : Option Expr) :
    Prepared c token counter fun round =>
      Run.countingLoop (below levels) token counter start finish step round c m := by
  -- The bounds and the step are evaluated with the scope of the rounds under way, so whatever they
  -- call cannot get at it, and only the declaration of the counter binds a name there.
  let id := m.heap.scopes.size
  let m₁ : Machine := { m with heap := (m.heap.newScope (some m.scope)).2 }
  have hplace := (hstack m.scope List.mem_cons_self).1
  have hm₁ : (sessionLaw hhost library directory sources).Governs (id :: w) m₁ :=
    Law.governs_newScope _ hm hplace
  have hthree : 3 ≤ id := hm.keep.1.size
  have hsize : m.heap.scopes.size ≤ m₁.heap.scopes.size := by simp [m₁, Heap.newScope]
  have haside : Aside hhost (hm₁.keep.2.2 id List.mem_cons_self) (id :: w) m₁ :=
    ⟨governs_beside hm₁ List.mem_cons_self, Law.stack_kept _ (Law.stack_grow _ hstack)
      ⟨rfl, rfl, rfl, rfl, rfl, rfl⟩ hsize⟩
  have hscope : Run.scope c m = (.ok m.scope, m) := rfl
  have hallocate : Run.allocate (fun heap => heap.newScope (some m.scope)) c m = (.ok id, m₁) := rfl
  unfold Run.countingLoop
  simp only [bind_ok hscope, bind_ok hallocate]
  rcases hstart : start.eval (below levels) c m₁ with ⟨why | first, m₂⟩
  · exact .inl ⟨_, fun _ => bind_error hstart⟩
  obtain ⟨haside₂, hfirst, hnames₂⟩ := aside_eval hthree haside hstart
  have hempty : boundNames m₂.heap id = ∅ :=
    Set.subset_empty_iff.mp (boundNames_new m.heap (some m.scope) ▸ hnames₂)
  simp only [bind_ok hstart]
  rcases hdefine : Run.define id counter first .variable c m₂ with ⟨why | _, m₃⟩
  · exact .inl ⟨_, fun _ => bind_error hdefine⟩
  obtain ⟨haside₃, hnames₃⟩ := aside_define haside₂ hfirst hempty hdefine
  simp only [bind_ok hdefine]
  rcases hfinish : Run.holdingCells [.scope id] (finish.eval (below levels)) c m₃ with
    ⟨why | last, m₄⟩
  · exact .inl ⟨_, fun _ => bind_error hfinish⟩
  obtain ⟨haside₄, hnames₄⟩ := aside_holding hthree haside₃ hfinish
  simp only [bind_ok hfinish]
  have hloop : ∀ current finish increment s, boundNames s.heap id ⊆ {Text.lower counter.lexeme} →
      Prepared c token counter fun round =>
        (if increment == 0 then Run.fail token .zeroStep else
          Run.forLoop token counter id ⟨finish, increment⟩ round Signal.maxRounds current) c s := by
    intro current finish increment s hs
    by_cases hzero : (increment == 0) = true
    · simp only [if_pos hzero]
      exact .inl ⟨_, fun _ => rfl⟩
    · simp only [if_neg hzero]
      exact .inr ⟨id, ⟨finish, increment⟩, current, s, hs, fun _ => rfl⟩
  have hnames := hnames₄.trans hnames₃
  have hfail : Prepared c token counter fun _ => Run.fail token .forBounds c m₄ :=
    .inl ⟨_, fun _ => rfl⟩
  cases first with
  | number current =>
    cases last with
    | number finish =>
      cases step with
      | none => exact hloop current finish 1 m₄ hnames
      | some step =>
        dsimp only
        rcases hstep : Run.holdingCells [.scope id] (step.eval (below levels)) c m₄ with
          ⟨why | value, m₅⟩
        · exact .inl ⟨_, fun _ => bind_error hstep⟩
        have hnames₅ := (aside_holding hthree haside₄ hstep).2
        simp only [bind_ok hstep]
        cases value with
        | number increment => exact hloop current finish increment m₅ (hnames₅.trans hnames)
        | _ => exact .inl ⟨_, fun _ => rfl⟩
    | _ => exact hfail
  | _ => exact hfail

end Preparation

/-- The rounds of a loop with a test, at its front or at its end, run in scopes that bind nothing
when they start. The rounds of a counting loop share a scope: the first one finds nothing there but
the counter, and each one after it finds what the one before has left. So they start in a scope
without other names if no round leaves any, and only then. -/
theorem rounds_start_in_scopes (config : Config) (hhost : DataOnly config.host) (library : Library)
    (directory : String) (sources : List String) {earlier : List Moment}
    (hearlier : earlier <+: history (Session.new config library directory) sources) :
    let now := finish (Machine.start config.host) earlier
    (∀ token test body x y, (∀ s, boundNames s.heap s.scope = ∅ → x config s = y config s) →
      ∀ rounds m,
        Run.whileLoop token test (Run.nested body x) rounds config m =
          Run.whileLoop token test (Run.nested body y) rounds config m ∧
        Run.doLoop token test (Run.nested body x) rounds config m =
          Run.doLoop token test (Run.nested body y) rounds config m) ∧
    (∀ levels token counter first last step, Prepared config token counter fun round =>
      Run.countingLoop (below levels) token counter first last step round config now) ∧
    (∀ token counter id range round current m counted signal ended next s,
      range.isPast current = false → Run.step token config m = (.ok (), counted) →
      Run.within id round config counted = (.ok signal, ended) → goesOn signal = true →
      Run.advance token counter id range config ended = (.ok next, s) →
      boundNames s.heap id = boundNames ended.heap id ∧ ∀ rounds,
        Run.forLoop token counter id range round (rounds + 1) current config m =
          Run.forLoop token counter id range round rounds next config s) ∧
    ∀ token counter id range x y names,
      (∀ s signal ended, s.scope = id → boundNames s.heap id ⊆ names →
        x config s = (.ok signal, ended) → goesOn signal = true →
        boundNames ended.heap id ⊆ names) →
      (∀ s, s.scope = id → boundNames s.heap id ⊆ names → x config s = y config s) →
      ∀ rounds current m, boundNames m.heap id ⊆ names →
        Run.forLoop token counter id range x rounds current config m =
          Run.forLoop token counter id range y rounds current config m := by
  intro now
  obtain ⟨w, hm, hstack⟩ := session_governed hhost hearlier
  refine ⟨?_, ?_, ?_, ?_⟩
  · intro token test body x y h rounds m
    have hround := nested_congr h body
    exact ⟨whileLoop_congr hround token test rounds m, doLoop_congr hround token test rounds m⟩
  · intro levels token counter first last step
    exact countingLoop_prepared hm hstack token counter first last step
  · intro token counter id range round current m counted signal ended next s hpast hstep hround
      hsignal hadvance
    exact ⟨boundNames_advance hadvance id, forLoop_goesOn hpast hstep hround hsignal hadvance⟩
  · intro token counter id range x y names hleaves h
    exact forLoop_congr hleaves h

def declareK : Stmt :=
  .function ⟨nameToken "function", nameToken "k", [], [], []⟩

/-- A loop that declares a function in each of its rounds never finds it declared before: it is the
same loop if its rounds give up where it is. -/
theorem declaring_rounds_start_clean :
    let c : Config := ⟨⟨none, 2⟩, bareHost⟩
    let test : Run Value := (Expr.name (nameToken "empty")).eval (below 2)
    let declaring : Run Signal := Stmt.execAll (below 2) [declareK]
    let careful : Run Signal := fun c s =>
      if (s.heap.own? s.scope "k").isSome then (.error .exhausted, s) else declaring c s
    DataOnly bareHost ∧
      Run.whileLoop (nameToken "do") test (Run.nested [declareK] declaring) 3 c
          (Machine.start bareHost) =
        Run.whileLoop (nameToken "do") test (Run.nested [declareK] careful) 3 c
          (Machine.start bareHost) := by
  intro c test declaring careful
  refine ⟨dataOnly_bareHost, ((rounds_start_in_scopes c dataOnly_bareHost (Library.ofModules []) ""
    [] List.nil_prefix).1 _ test [declareK] declaring careful (fun s hs => ?_) 3 _).1⟩
  have hfree : ¬ (s.heap.own? s.scope "k").isSome = true := fun h =>
    Set.eq_empty_iff_forall_notMem.mp hs "k" (Option.isSome_iff_ne_none.mp h)
  exact (if_neg hfree).symm

/-- A block that declares a constant fails in the second round of a counting loop, since it finds the
constant that the first round has declared. In a loop with a test it does not. -/
theorem declaration_fails_in_second_round :
    let session := Session.new ⟨⟨none, 2⟩, bareHost⟩ (Library.ofModules []) ""
    (session.run "n = 0\ndo while n < 2\nconst k = 1\nn += 1\nenddo").1.error.isNone ∧
      (session.run "for i = 1 to 2\nconst k = 1\nendfor").1.error.map UnitError.message =
        some "[2:7] Runtime error near of `k`: Constants cannot be redefined `k`" := by
  decide +kernel

end XBase.Proofs
