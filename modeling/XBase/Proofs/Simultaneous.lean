import XBase.Proofs.Compound

/-!
# Multiple assignment

A statement that writes several names evaluates all its values first, from left to right, and
replaces an array by the elements that it has at that moment. Names that differ are written at
places that differ, and no name is written at a place where another one is looked up. So all names
have their values afterwards, as if they were written at once.
-/

namespace XBase

/-- A value as it is spread: an array is replaced by its elements. -/
def Heap.splice (heap : Heap) : Value → List Value
  | .array id => (heap.elements id).toList
  | value => [value]

/-- `after` is `heap` except that the lowercase names of some writes are bound at their places. -/
structure Heap.Rewritten (heap after : Heap) (place : String → ScopeId)
    (writes : List (String × Value)) : Prop where
  here : ∀ write ∈ writes, after.own? (place write.1) write.1 = some ⟨.variable, write.2⟩
  elsewhere : ∀ other key, (∀ write ∈ writes, ¬(other = place write.1 ∧ key = write.1)) →
    after.own? other key = heap.own? other key
  parents : ∀ other, after.parent? other = heap.parent? other
  size : after.scopes.size = heap.scopes.size
  cells : { after with scopes := heap.scopes } = heap

/-- The two forms of a multiple assignment. -/
inductive Multiple where
  | assign
  | declare (extent : Extent)

namespace Multiple

def statement (token : Token) (names : List Token) (values : List Expr) : Multiple → Stmt
  | assign => .assignAll token (names.map .name) values
  | declare extent => .destructure token extent names values

/-- The scope where the names are looked for. -/
def start (m : Machine) : Multiple → ScopeId
  | declare .global => m.globals
  | _ => m.scope

/-- The scope where a lowercase name is written. -/
def place (start : ScopeId) (heap : Heap) (key : String) : Multiple → ScopeId
  | assign => (heap.owner? start key).getD start
  | declare _ => start

/-- The part of the statement that writes. -/
def loop (invoke : Invocation) (start : ScopeId) (pairs : List (Token × Value)) :
    Multiple → Run Unit
  | assign => Expr.assignAll invoke (pairs.map fun pair => (.name pair.1, pair.2))
  | declare _ => Run.defineAll start pairs

/-- What is written: the placeholder is passed over. -/
def writes (pairs : List (Token × Value)) : List (String × Value) :=
  (pairs.filter fun pair => pair.1.lexeme != "_").map fun pair =>
    (Text.lower pair.1.lexeme, pair.2)

end Multiple

namespace Proofs

/-- How expressions are spread with some values in hand: from left to right, each with the heap that
it leaves behind, up to the first that fails. -/
inductive Spreads (invoke : Invocation) (c : Config) :
    List Value → List Expr → Machine → Except Halt (List Value) × Machine → Prop
  | nil (hand : List Value) (m : Machine) : Spreads invoke c hand [] m (.ok [], m)
  | stop {hand : List Value} {value : Expr} {others : List Expr} {m m' : Machine} {why : Halt}
      (h : Run.holding hand (value.eval invoke) c m = (.error why, m')) :
      Spreads invoke c hand (value :: others) m (.error why, m')
  | next {hand : List Value} {value : Expr} {others : List Expr} {m m' : Machine} {v : Value}
      {rest : Except Halt (List Value) × Machine}
      (h : Run.holding hand (value.eval invoke) c m = (.ok v, m'))
      (hrest : Spreads invoke c (m'.heap.splice v ++ hand) others m' rest) :
      Spreads invoke c hand (value :: others) m (rest.1.map (m'.heap.splice v ++ ·), rest.2)

section Spreading

variable {levels : Nat} {c : Config}

lemma holding_evalSpread (hand : List Value) (value : Expr) (others : List Expr) (m : Machine) :
    Run.holding hand (Expr.evalSpread (below levels) (value :: others)) c m =
      (Run.holding hand (value.eval (below levels)) >>= fun v => Run.heap >>= fun heap =>
        Run.holding (heap.splice v ++ hand) (Expr.evalSpread (below levels) others) >>= fun rest =>
          pure (heap.splice v ++ rest)) c m := by
  rw [Expr.evalSpread, holding_bind (held_eval levels value)]
  rcases h : Run.holding hand (value.eval (below levels)) c m with ⟨why | v, m'⟩
  · rw [bind_error h, bind_error h]
  · rw [bind_ok h, bind_ok h, bind_ok (rfl : Run.heap c m' = (.ok m'.heap, m'))]
    have hjoin : Run.holding hand (Run.holding (m'.heap.splice v)
        (Expr.evalSpread (below levels) others) >>= fun rest =>
          pure (m'.heap.splice v ++ rest)) c m' = _ := holding_bind (fun _ => rfl) m'
    rw [← holding_holding]
    refine Eq.trans ?_ hjoin
    cases v <;> rfl

lemma spreads_evalSpread (hand : List Value) (values : List Expr) (m : Machine) :
    Spreads (below levels) c hand values m
      (Run.holding hand (Expr.evalSpread (below levels) values) c m) := by
  induction values generalizing hand m with
  | nil => exact .nil hand m
  | cons value others ih =>
    rw [holding_evalSpread]
    rcases h : Run.holding hand (value.eval (below levels)) c m with ⟨why | v, m'⟩
    · rw [bind_error h]
      exact .stop h
    · rw [bind_ok h, bind_ok (rfl : Run.heap c m' = (.ok m'.heap, m'))]
      have hrest := Spreads.next h (ih (m'.heap.splice v ++ hand) m')
      rcases hothers : Run.holding (m'.heap.splice v ++ hand)
        (Expr.evalSpread (below levels) others) c m' with ⟨why | rest, m''⟩
      all_goals rw [hothers] at hrest
      · rw [bind_error hothers]
        exact hrest
      · rw [bind_ok hothers]
        exact hrest

/-- Names that are values give what they are bound to and change nothing. -/
lemma holding_names (hand : List Value) {sources : List (Token × Value)} {m : Machine}
    (h : ∀ source ∈ sources, m.heap.lookup m.scope source.1.lexeme = .ok source.2) :
    Run.holding hand (Expr.evalSpread (below levels) (sources.map fun source => .name source.1)) c m =
      (.ok (sources.flatMap fun source => m.heap.splice source.2), m) := by
  induction sources generalizing hand with
  | nil => rfl
  | cons source sources ih =>
    obtain ⟨hfirst, hothers⟩ := List.forall_mem_cons.mp h
    have hname : Run.holding hand ((Expr.name source.1).eval (below levels)) c m =
        (.ok source.2, m) := by
      have hread := lookup_eq m.scope source.1.lexeme source.1 c
        { m with held := hand.filterMap Value.cell? ++ m.held }
      rw [hfirst] at hread
      exact congrArg (fun result : Except Halt Value × Machine =>
        (result.1, { result.2 with held := m.held })) hread
    rw [List.map_cons, holding_evalSpread, bind_ok hname,
      bind_ok (rfl : Run.heap c m = (.ok m.heap, m)), bind_ok (ih _ hothers)]
    rfl

lemma kept_evalSpread (values : List Expr) (m : Machine) :
    Kept m (Expr.evalSpread (below levels) values c m).2 :=
  run_keeps levels c (evalSpreadComposition values : Composition Signal.maxRounds _) m

lemma holding_nothing (values : List Expr) (m : Machine) :
    Run.holding [] (Expr.evalSpread (below levels) values) c m =
      Expr.evalSpread (below levels) values c m :=
  Prod.ext rfl (congrArg (fun held => { (Expr.evalSpread (below levels) values c m).2 with held })
    (kept_evalSpread values m).held.symm)

end Spreading

section Writing

variable {heap after final : Heap} {key : String}

/-- One write, and then others of other names at places that the first leaves alone. -/
lemma rewritten_cons {place place' : String → ScopeId} {value : Value}
    {writes : List (String × Value)}
    (h : heap.DiffersAt after (place key) key (some ⟨.variable, value⟩))
    (h' : after.Rewritten final place' writes) (hnew : ∀ write ∈ writes, write.1 ≠ key)
    (hplace : ∀ write ∈ writes, place' write.1 = place write.1) :
    heap.Rewritten final place ((key, value) :: writes) where
  here := by
    refine List.forall_mem_cons.mpr ⟨?_, fun write hwrite => ?_⟩
    · rw [h'.elsewhere _ _ fun write hwrite hsame => hnew write hwrite hsame.2.symm]
      exact h.here
    · rw [← hplace write hwrite]
      exact h'.here write hwrite
  elsewhere other name hother := by
    obtain ⟨hfirst, hothers⟩ := List.forall_mem_cons.mp hother
    rw [h'.elsewhere other name fun write hwrite => hplace write hwrite ▸ hothers write hwrite,
      h.elsewhere other name hfirst]
  parents other := (h'.parents other).trans (h.parents other)
  size := h'.size.trans h.size
  cells := by
    rw [← h.cells, ← h'.cells]

lemma place_differs (form : Multiple) {start id : ScopeId} {binding : Option Binding} {other : String}
    (h : heap.DiffersAt after id key binding) (hother : other ≠ key) :
    form.place start after other = form.place start heap other := by
  cases form with
  | declare extent => rfl
  | assign =>
    have howner := owner?_congr h.parents (fun scope => by
      rw [h.elsewhere scope other fun hsame => hother hsame.2]) start
    simp only [Multiple.place, howner]

end Writing

section Loops

variable {invoke : Invocation} {c : Config} {form : Multiple} {start : ScopeId} {name : Token}
  {value : Value} {others : List (Token × Value)} {m : Machine}

lemma loop_passed (h : name.lexeme = "_") :
    form.loop invoke start ((name, value) :: others) c m = form.loop invoke start others c m := by
  cases form with
  | assign =>
    simp only [Multiple.loop, List.map_cons, Expr.assignAll, Expr.isPlaceholder, h]
    rfl
  | declare extent =>
    simp only [Multiple.loop, Run.defineAll, h]
    rfl

lemma loop_write (hname : name.lexeme ≠ "_") (hscope : form = .assign → m.scope = start)
    (hstart : start < m.heap.scopes.size)
    (hfree : (m.heap.own? (form.place start m.heap (Text.lower name.lexeme))
      (Text.lower name.lexeme)).map Binding.kind ≠ some .constant) :
    ∃ after, form.loop invoke start ((name, value) :: others) c m =
        form.loop invoke start others c { m with heap := after } ∧
      m.heap.DiffersAt after (form.place start m.heap (Text.lower name.lexeme))
        (Text.lower name.lexeme) (some ⟨.variable, value⟩) := by
  have hplaceholder : (Expr.name name).isPlaceholder = false := by
    simpa [Expr.isPlaceholder] using hname
  cases form with
  | assign =>
    obtain rfl := hscope rfl
    have hok : (m.heap.assign m.scope name.lexeme value).1 = .ok () := by
      rw [assign_eq]
      exact congrArg Prod.fst (assignOwn_free name.lexeme value hfree)
    have hwrite : Run.holding (others.map Prod.snd) ((Expr.name name).assign invoke value) c m =
        (.ok (), { m with heap := (m.heap.assign m.scope name.lexeme value).2 }) := by
      have hrebind := rebind_eq name (fun heap => heap.assign m.scope name.lexeme value) c
        { m with held := (others.map Prod.snd).filterMap Value.cell? ++ m.held }
      rw [hok] at hrebind
      exact congrArg (fun result : Except Halt Unit × Machine =>
        (result.1, { result.2 with held := m.held })) hrebind
    refine ⟨_, ?_, assign_differs name.lexeme value hstart hok⟩
    simp only [Multiple.loop, List.map_cons, Expr.assignAll, hplaceholder, List.map_map,
      Function.comp_def, Bool.false_eq_true, if_false]
    exact bind_ok hwrite
  | declare extent =>
    have hdefine : Run.define start name value .variable c m = (.ok (), { m with
        heap := m.heap.bind start (Text.lower name.lexeme) ⟨.variable, value⟩ }) := by
      rw [Run.define, rebind_eq, define_free m.heap start value .variable hfree]
      rfl
    refine ⟨_, ?_, differs_bind hstart _⟩
    simp only [Multiple.loop, Run.defineAll]
    rw [if_neg (by simpa using hname)]
    exact bind_ok hdefine

/-- Names that differ are all written, each at the place that it had before. -/
lemma loop_rewrites {pairs : List (Token × Value)} (hscope : form = .assign → m.scope = start)
    (hstart : start < m.heap.scopes.size)
    (hdistinct : ((Multiple.writes pairs).map Prod.fst).Nodup)
    (hfree : ∀ write ∈ Multiple.writes pairs,
      (m.heap.own? (form.place start m.heap write.1) write.1).map Binding.kind ≠ some .constant) :
    ∃ after, form.loop invoke start pairs c m = (.ok (), { m with heap := after }) ∧
      m.heap.Rewritten after (fun key => form.place start m.heap key) (Multiple.writes pairs) := by
  induction pairs generalizing m with
  | nil =>
    refine ⟨m.heap, ?_, by simp [Multiple.writes], fun _ _ _ => rfl, fun _ => rfl, rfl, rfl⟩
    cases form <;> rfl
  | cons pair others ih =>
    obtain ⟨name, value⟩ := pair
    by_cases hname : name.lexeme = "_"
    · have hwrites : Multiple.writes ((name, value) :: others) = Multiple.writes others := by
        simp [Multiple.writes, hname]
      rw [loop_passed hname, hwrites]
      rw [hwrites] at hdistinct hfree
      exact ih hscope hstart hdistinct hfree
    · have hwrites : Multiple.writes ((name, value) :: others) =
          (Text.lower name.lexeme, value) :: Multiple.writes others := by
        simp [Multiple.writes, hname]
      rw [hwrites] at hdistinct hfree ⊢
      rw [List.map_cons, List.nodup_cons] at hdistinct
      obtain ⟨hfirst, hothers⟩ := List.forall_mem_cons.mp hfree
      obtain ⟨after, hrun, hdiffers⟩ : ∃ after,
          form.loop invoke start ((name, value) :: others) c m = _ ∧ _ :=
        loop_write hname hscope hstart hfirst
      have hnew : ∀ write ∈ Multiple.writes others, write.1 ≠ Text.lower name.lexeme :=
        fun write hwrite hsame => hdistinct.1 (List.mem_map.mpr ⟨write, hwrite, hsame⟩)
      have hplace : ∀ write ∈ Multiple.writes others,
          form.place start after write.1 = form.place start m.heap write.1 :=
        fun write hwrite => place_differs form hdiffers (hnew write hwrite)
      obtain ⟨final, hfinal, hrewritten⟩ := ih (m := { m with heap := after }) hscope
        (hdiffers.size ▸ hstart) hdistinct.2 fun write hwrite => by
          rw [hplace write hwrite,
            hdiffers.elsewhere _ _ fun hsame => hnew write hwrite hsame.2]
          exact hothers write hwrite
      exact ⟨final, hrun.trans hfinal, rewritten_cons hdiffers hrewritten hnew hplace⟩

end Loops

section Lookups

variable {heap after : Heap} {form : Multiple} {start : ScopeId} {writes : List (String × Value)}

lemma owner?_rewritten
    (h : heap.Rewritten after (fun key => form.place start heap key) writes)
    {key : String} {value : Value} (hwrite : (key, value) ∈ writes) :
    after.owner? start key = some (form.place start heap key) := by
  cases form with
  | declare extent => exact owner?_own (h.here _ hwrite)
  | assign =>
    cases howner : heap.owner? start key with
    | none =>
      have hhere := h.here _ hwrite
      simp only [Multiple.place, howner, Option.getD_none] at hhere ⊢
      exact owner?_own hhere
    | some owner =>
      have hplace : Multiple.place start heap key .assign = owner := by
        simp [Multiple.place, howner]
      rw [hplace, ← howner]
      refine owner?_congr h.parents (fun scope => ?_) start
      by_cases hscope : scope = owner
      · obtain ⟨binding, hbound⟩ := own?_of_owner? howner
        rw [hscope, hbound, ← hplace, h.here _ hwrite]
        rfl
      · rw [h.elsewhere scope key fun write _ hsame =>
          hscope (hsame.1.trans ((congrArg (Multiple.place start heap · .assign)
            hsame.2.symm).trans hplace))]

lemma lookup_rewritten
    (h : heap.Rewritten after (fun key => form.place start heap key) writes)
    {name : String} {value : Value} (hwrite : (Text.lower name, value) ∈ writes) :
    after.lookup start name = .ok value := by
  unfold Heap.lookup
  rw [get_eq, owner?_rewritten h hwrite, Option.bind_some, h.here _ hwrite]
  rfl

end Lookups

section Statements

variable {levels : Nat} {c : Config} {form : Multiple} {token : Token} {names : List Token}
  {values : List Expr} {m counted : Machine}

lemma exec_statement (hstep : Run.step token c m = (.ok (), counted)) :
    (form.statement token names values).exec (below levels) c m =
      (Expr.evalSpread (below levels) values >>= fun vs =>
        Run.checkCounts token names.length vs.length >>= fun _ =>
          form.loop (below levels) (form.start m) (names.zip vs) >>= fun _ =>
            pure Signal.normal) c counted := by
  obtain rfl := of_step_eq_ok hstep
  cases form with
  | assign =>
    have hzip : ∀ vs : List Value, (names.map Expr.name).zip vs =
        (names.zip vs).map fun pair => (.name pair.1, pair.2) := fun vs => by
      rw [List.zip_map_left]
      rfl
    rw [Multiple.statement, Stmt.exec]
    refine (bind_ok hstep).trans ?_
    simp only [List.length_map, hzip]
    rfl
  | declare extent =>
    rw [Multiple.statement, Stmt.exec]
    refine (bind_ok hstep).trans ?_
    cases extent <;> rfl

lemma names_of_writes {vs : List Value} (h : names.length = vs.length) :
    (Multiple.writes (names.zip vs)).map Prod.fst =
      (names.filter fun name => name.lexeme != "_").map fun name => Text.lower name.lexeme := by
  have hnames : (names.zip vs).map Prod.fst = names := List.map_fst_zip (Nat.le_of_eq h)
  conv => rhs; rw [← hnames, List.filter_map, List.map_map]
  rw [Multiple.writes, List.map_map]
  rfl

lemma mem_writes {pairs : List (Token × Value)} {write : String × Value} :
    write ∈ Multiple.writes pairs ↔
      ∃ pair ∈ pairs, pair.1.lexeme ≠ "_" ∧ (Text.lower pair.1.lexeme, pair.2) = write := by
  simp [Multiple.writes, and_assoc]

/-- With as many values as names, all names get their values. -/
lemma writing_rewrites {start : ScopeId} {vs : List Value}
    (hscope : form = .assign → m.scope = start) (hstart : start < m.heap.scopes.size)
    (hlength : names.length = vs.length)
    (hdistinct : ((names.filter fun name => name.lexeme != "_").map fun name =>
      Text.lower name.lexeme).Nodup)
    (hfree : ∀ name ∈ names, name.lexeme ≠ "_" →
      (m.heap.own? (form.place start m.heap (Text.lower name.lexeme))
        (Text.lower name.lexeme)).map Binding.kind ≠ some .constant) :
    ∃ after, (Run.checkCounts token names.length vs.length >>= fun _ =>
        form.loop (below levels) start (names.zip vs) >>= fun _ => pure Signal.normal) c m =
        (.ok .normal, { m with heap := after }) ∧
      m.heap.Rewritten after (fun key => form.place start m.heap key)
        (Multiple.writes (names.zip vs)) ∧
      (∀ pair ∈ names.zip vs, pair.1.lexeme ≠ "_" →
        after.lookup start pair.1.lexeme = .ok pair.2) ∧
      ∀ scope, after.own? scope "_" = m.heap.own? scope "_" := by
  obtain ⟨after, hloop, hrewritten⟩ : ∃ after, form.loop (below levels) start
      (names.zip vs) c m = (.ok (), { m with heap := after }) ∧ _ := by
    refine loop_rewrites hscope hstart
      (names_of_writes hlength ▸ hdistinct) fun write hwrite => ?_
    obtain ⟨pair, hpair, hname, rfl⟩ := mem_writes.mp hwrite
    exact hfree pair.1 (List.of_mem_zip hpair).1 hname
  refine ⟨after, ?_, hrewritten, fun pair hpair hname =>
    lookup_rewritten hrewritten (mem_writes.mpr ⟨pair, hpair, hname, rfl⟩), fun scope =>
    hrewritten.elsewhere scope "_" fun write hwrite hsame => ?_⟩
  · have hcounts : Run.checkCounts token names.length vs.length c m = (.ok (), m) := by
      simp [Run.checkCounts, hlength]
      rfl
    rw [bind_ok hcounts, bind_ok hloop]
    rfl
  · obtain ⟨pair, _, hname, rfl⟩ := mem_writes.mp hwrite
    exact hname (eq_underscore_of_lower hsame.2.symm)

/-- All values of a multiple assignment are known before the first of its names is written. If there
are as many values as names, then each name has its value afterwards, and nothing else is changed. -/
theorem names_written_at_once (levels : Nat) (form : Multiple) (names : List Token)
    (values : List Expr) {result : Except Halt Signal × Machine}
    (hstep : Run.step token c m = (.ok (), counted))
    (hstart : form.start m < m.heap.scopes.size)
    (hrun : (form.statement token names values).exec (below levels) c m = result) :
    ∃ outcome, Spreads (below levels) c [] values counted outcome ∧
      (∀ sources : List (Token × Value), values = sources.map (fun source => .name source.1) →
        (∀ source ∈ sources, m.heap.lookup m.scope source.1.lexeme = .ok source.2) →
        outcome = (.ok (sources.flatMap fun source => m.heap.splice source.2), counted)) ∧
      (∀ why, outcome.1 = .error why → result = (.error why, outcome.2)) ∧
      ∀ vs, outcome.1 = .ok vs →
        (names.length < vs.length → result = (.error (.failure (.ofToken token
          (.wrongNumberOfVariables names.length vs.length))), outcome.2)) ∧
        (vs.length < names.length → result = (.error (.failure (.ofToken token
          (.wrongNumberOfValues names.length vs.length))), outcome.2)) ∧
        (names.length = vs.length →
          ((names.filter fun name => name.lexeme != "_").map fun name =>
            Text.lower name.lexeme).Nodup →
          (∀ name ∈ names, name.lexeme ≠ "_" →
            (outcome.2.heap.own? (form.place (form.start m) outcome.2.heap
              (Text.lower name.lexeme)) (Text.lower name.lexeme)).map Binding.kind ≠
                some .constant) →
          ∃ after, result = (.ok .normal, { outcome.2 with heap := after }) ∧
            outcome.2.heap.Rewritten after
              (fun key => form.place (form.start m) outcome.2.heap key)
              (Multiple.writes (names.zip vs)) ∧
            (∀ pair ∈ names.zip vs, pair.1.lexeme ≠ "_" →
              after.lookup (form.start m) pair.1.lexeme = .ok pair.2) ∧
            ∀ scope, after.own? scope "_" = outcome.2.heap.own? scope "_") := by
  obtain rfl := of_step_eq_ok hstep
  rw [exec_statement hstep] at hrun
  refine ⟨_, holding_nothing values _ ▸ spreads_evalSpread [] values _, ?_, ?_, ?_⟩
  · rintro sources rfl hsources
    rw [← holding_nothing]
    exact holding_names [] hsources
  · intro why hwhy
    rw [← hrun]
    exact bind_error (Prod.ext hwhy rfl)
  · intro vs hvs
    rw [bind_ok (Prod.ext hvs rfl)] at hrun
    refine ⟨fun hmore => ?_, fun hfewer => ?_, fun hlength hdistinct hfree => ?_⟩
    · rw [Run.checkCounts, if_pos hmore] at hrun
      exact hrun.symm
    · rw [Run.checkCounts, if_neg (Nat.lt_asymm hfewer), if_pos hfewer] at hrun
      exact hrun.symm
    · have hscope : form = .assign → (Expr.evalSpread (below levels) values c
          { m with steps := m.steps + 1 }).2.scope = form.start m := by
        rintro rfl
        exact (kept_evalSpread values _).scope
      have hgrows := run_grows levels c
        (evalSpreadComposition values : Composition Signal.maxRounds _)
        { m with steps := m.steps + 1 }
      obtain ⟨after, hafter, hwritten⟩ := writing_rewrites hscope (Nat.lt_of_lt_of_le hstart hgrows)
        hlength hdistinct hfree
      exact ⟨after, hrun.symm.trans hafter, hwritten⟩

end Statements

def threeNames : Machine :=
  current (runAlone "a = \"1\"\nb = \"2\"\nc = \"3\"\n").2

lemma plain_of_cell {found : Except ScopeError Value}
    (h : found.toOption.map Value.cell? = some none) :
    ∃ v, found = .ok v ∧ ∀ heap : Heap, heap.splice v = [v] := by
  obtain _ | v := found
  · cases h
  · refine ⟨v, rfl, fun heap => ?_⟩
    cases v with
    | array id => cases h
    | _ => rfl

/-- Three names are moved around, and a fourth value is passed over. -/
theorem names_move_around :
    let c : Config := ⟨⟨none, 2⟩, bareHost⟩
    let m := threeNames
    let names := [nameToken "A", nameToken "_", nameToken "b", nameToken "c"]
    let values := [Expr.name (nameToken "b"), .name (nameToken "a"), .name (nameToken "c"),
      .name (nameToken "a")]
    ∃ after, (Stmt.assignAll (nameToken "(") (names.map .name) values).exec (below 2) c m =
        (.ok .normal, after) ∧
      after.heap.lookup m.scope "A" = m.heap.lookup m.scope "b" ∧
      after.heap.lookup m.scope "b" = m.heap.lookup m.scope "c" ∧
      after.heap.lookup m.scope "c" = m.heap.lookup m.scope "a" := by
  intro c m names values
  obtain ⟨x, hx, hplain⟩ := plain_of_cell
    (by decide +kernel : (m.heap.lookup m.scope "a").toOption.map Value.cell? = some none)
  obtain ⟨y, hy, hplain'⟩ := plain_of_cell
    (by decide +kernel : (m.heap.lookup m.scope "b").toOption.map Value.cell? = some none)
  obtain ⟨z, hz, hplain''⟩ := plain_of_cell
    (by decide +kernel : (m.heap.lookup m.scope "c").toOption.map Value.cell? = some none)
  obtain ⟨_, -, hsources, -, hwritten⟩ := names_written_at_once 2 .assign names values
    (rfl : Run.step (nameToken "(") c m = (.ok (), { m with steps := m.steps + 1 }))
    (by decide +kernel) rfl
  obtain rfl := hsources [(nameToken "b", y), (nameToken "a", x), (nameToken "c", z),
    (nameToken "a", x)] rfl (by simp [nameToken, hx, hy, hz])
  obtain ⟨-, -, hall⟩ := hwritten [y, x, z, x] (by simp [hplain, hplain', hplain''])
  have hfree : ∀ name ∈ names, name.lexeme ≠ "_" →
      (m.heap.own? (Multiple.assign.place m.scope m.heap (Text.lower name.lexeme))
        (Text.lower name.lexeme)).map Binding.kind ≠ some .constant := by decide +kernel
  obtain ⟨after, hrun, -, hlookup, -⟩ := hall rfl (by decide +kernel) hfree
  refine ⟨_, hrun, ?_, ?_, ?_⟩
  · exact (hlookup (nameToken "A", y) (by simp [names]) (by simp [nameToken])).trans hy.symm
  · exact (hlookup (nameToken "b", z) (by simp [names]) (by simp [nameToken])).trans hz.symm
  · exact (hlookup (nameToken "c", x) (by simp [names]) (by simp [nameToken])).trans hx.symm

end Proofs

end XBase
