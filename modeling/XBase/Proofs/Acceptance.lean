import XBase.Proofs.Blocks

/-!
# What reading accepts

Where tokens end with a separator, reading that reports no failure accepts only what the grammar
derives. The induction is on the number of tokens: what stands inside a statement is read from fewer
tokens. A failure is never taken back, so there is none in the end only if no part reported one.
-/

namespace XBase.Proofs

variable {tokens rest : List Token} {token keyword : Token} {message : String}

section Tokens

/-- Tokens that end with a separator, if there are any. -/
def Closed (tokens : List Token) : Prop :=
  tokens = [] ∨ Open tokens

lemma Closed.suffix (h : Closed tokens) (hrest : rest <:+ tokens) : Closed rest := by
  obtain ⟨t, rfl⟩ := hrest
  rcases h with h | ⟨last, hlast, hkind⟩
  · exact .inl (List.append_eq_nil_iff.mp h).2
  · rw [List.getLast?_append] at hlast
    cases hrest : rest.getLast? with
    | none => exact .inl (List.getLast?_eq_none_iff.mp hrest)
    | some token =>
      rw [hrest, Option.some_or] at hlast
      exact .inr ⟨last, hrest ▸ hlast, hkind⟩

lemma Closed.open_cons (h : Closed (token :: rest)) : Open (token :: rest) := by
  rcases h with h | h
  · cases h
  · exact h

lemma Open.closed_behind {t u : List Token} (h : Open (t ++ u)) : Closed u :=
  Closed.suffix (.inr h) (List.suffix_append t u)

/-- The word that closes a statement is no separator, so a separator follows it. -/
lemma Closed.open_behind (h : Closed (token :: rest)) (hkind : token.kind ≠ .separator) :
    Open rest :=
  h.open_cons.of_cons hkind

end Tokens

section Rules

/-! One rule for each way to read, in the direction of the proofs: what a reader takes in front is
put in front of what the rest of it takes. -/

variable {α β : Type} {start : List Token → Prop} {bound : Nat} {D : List Token → α → Prop}
  {E : List Token → β → Prop}

/-- On fewer tokens than `bound`, which satisfy `start`, a reader that succeeds goes onward, and if
it reports no failure it takes only what `D` derives. -/
def Accepts (start : List Token → Prop) (bound : Nat) (p : Read α) (D : List Token → α → Prop) :
    Prop :=
  ∀ reading a after, start reading.tokens → reading.tokens.length < bound →
    p reading = (.ok a, after) → Onward reading after ∧
      (after.failures = reading.failures → ∃ t, reading.tokens = t ++ after.tokens ∧ D t a)

variable {p : Read α} {a : α} {f : α → Read β}

lemma Accepts.mono {less : Nat} (h : Accepts start bound p D) (hle : less ≤ bound) :
    Accepts start less p D :=
  fun reading a after hstart hlt => h reading a after hstart (hlt.trans_le hle)

lemma Accepts.opened (h : Accepts Closed bound p D) : Accepts Open bound p D :=
  fun reading a after hopen => h reading a after (.inr hopen)

lemma Accepts.imp {D' : List Token → α → Prop} (h : Accepts start bound p D)
    (hD : ∀ t a, D t a → D' t a) : Accepts start bound p D' := by
  intro reading a after hstart hlt hp
  obtain ⟨hon, htakes⟩ := h reading a after hstart hlt hp
  refine ⟨hon, fun hquiet => ?_⟩
  obtain ⟨t, ht, hDt⟩ := htakes hquiet
  exact ⟨t, ht, hD t a hDt⟩

lemma accepts_pure (h : D [] a) : Accepts start bound (pure a : Read α) D := by
  intro reading b after _ _ hp
  obtain ⟨rfl, rfl⟩ := read_pure_eq_ok.mp hp
  exact ⟨onward_refl reading, fun _ => ⟨[], rfl, h⟩⟩

/-- Where the first reader leaves fewer tokens than `below`, the second one is asked about these
only. -/
lemma accepts_bind_below {below : Nat} (h : Accepts start bound p D)
    (hstart : ∀ tokens, start tokens → Closed tokens)
    (hbelow : ∀ reading a after, reading.tokens.length < bound → p reading = (.ok a, after) →
      Onward reading after → after.tokens.length < below)
    (hf : ∀ a t, Accepts Closed below (f a) fun u b => D t a → E (t ++ u) b) :
    Accepts start bound (p >>= f) E := by
  intro reading b after hreading hlt hp
  obtain ⟨a, mid, hfirst, hp⟩ := read_bind_eq_ok.mp hp
  obtain ⟨hon, htakes⟩ := h reading a mid hreading hlt hfirst
  have hclosed := (hstart _ hreading).suffix hon.tokens
  have hshort := hbelow reading a mid hlt hfirst hon
  have hon' := (hf a [] mid b after hclosed hshort hp).1
  refine ⟨hon.trans hon', fun hquiet => ?_⟩
  -- no failure in the end, so none in the middle
  have hmid : mid.failures = reading.failures :=
    (hquiet ▸ hon'.failures).eq_of_length_le hon.failures.length_le
  obtain ⟨t, ht, hD⟩ := htakes hmid
  obtain ⟨u, hu, hE⟩ := (hf a t mid b after hclosed hshort hp).2 (hquiet.trans hmid.symm)
  exact ⟨t ++ u, by rw [ht, hu, List.append_assoc], hE hD⟩

lemma accepts_bind (h : Accepts start bound p D) (hstart : ∀ tokens, start tokens → Closed tokens)
    (hf : ∀ a t, Accepts Closed bound (f a) fun u b => D t a → E (t ++ u) b) :
    Accepts start bound (p >>= f) E :=
  accepts_bind_below h hstart (fun _ _ _ hlt _ hon => hon.length_le.trans_lt hlt) hf

lemma accepts_lift_bind {p : Parse α}
    (hp : ∀ tokens a after, start tokens → p tokens = (.ok a, after) →
      ∃ t rest, tokens = t ++ after ∧ rest after ∧
      Accepts rest bound (f a) fun u b => E (t ++ u) b) :
    Accepts start bound (Read.lift p >>= f) E := by
  intro reading b after hreading hlt hread
  obtain ⟨a, mid, hfirst, hread⟩ := read_bind_eq_ok.mp hread
  obtain ⟨left, hparse, rfl⟩ := lift_eq_ok.mp hfirst
  obtain ⟨t, rest, ht, hleft, hf⟩ := hp _ a left hreading hparse
  have hsuffix : left <:+ reading.tokens := ⟨t, ht.symm⟩
  obtain ⟨hon, htakes⟩ := hf _ b after hleft (hsuffix.length_le.trans_lt hlt) hread
  refine ⟨⟨hon.tokens.trans hsuffix, hon.failures⟩, fun hquiet => ?_⟩
  obtain ⟨u, hu, hE⟩ := htakes hquiet
  have hu : left = u ++ after.tokens := hu
  exact ⟨t ++ u, by rw [ht, hu, List.append_assoc], hE⟩

lemma accepts_before {p : Parse α} {more : Kind → Bool} (hp : Sound p D more)
    (hphrased : ∀ t a, D t a → Phrased t)
    (hf : ∀ a t, D t a → Accepts Open bound (f a) fun u b => E (t ++ u) b) :
    Accepts Open bound (Read.lift p >>= f) E := by
  refine accepts_lift_bind fun tokens a after hopen hparse => ?_
  obtain ⟨t, rfl, ht, -⟩ := hp _ _ _ hparse
  exact ⟨t, Open, rfl, hopen.of_append (hphrased t a ht), hf a t ht⟩

lemma accepts_expect {kind : Kind} {f : Token → Read β} (hkind : kind ≠ .separator)
    (hf : ∀ token, token.kind = kind → Accepts Open bound (f token) fun u b => E (token :: u) b) :
    Accepts Closed bound (Read.lift (Parse.expect kind message) >>= f) E := by
  refine accepts_lift_bind fun tokens token after hclosed hparse => ?_
  obtain ⟨rfl, htoken⟩ := expect_eq_ok.mp hparse
  exact ⟨[token], Open, rfl, hclosed.open_behind (htoken ▸ hkind), hf token htoken⟩

lemma accepts_word {word : Keyword} {f : Option Token → Read β}
    (hstart : ∀ tokens, start tokens → Closed tokens) (hnone : Accepts start bound (f none) E)
    (hsome : ∀ token, token.kind = .keyword word →
      Accepts Open bound (f (some token)) fun u b => E (token :: u) b) :
    Accepts start bound (Read.lift (Parse.word word) >>= f) E := by
  refine accepts_lift_bind fun tokens token? after htokens hparse => ?_
  cases token? with
  | none =>
    obtain ⟨rfl, -⟩ := accept_eq_none.mp hparse
    exact ⟨[], start, rfl, htokens, hnone⟩
  | some token =>
    obtain ⟨rfl, hkind⟩ := accept_eq_some.mp hparse
    have hword : token.kind = .keyword word := by simpa using hkind
    exact ⟨[token], Open, rfl, (hstart _ htokens).open_behind (by simp [hword]), hsome token hword⟩

lemma accepts_end {f : Unit → Read β}
    (hf : ∀ sep, sep.kind = .separator → Accepts Closed bound (f ()) fun u b => E (sep :: u) b) :
    Accepts Open bound (Read.lift (Parse.endOfStatement message) >>= f) E := by
  refine accepts_lift_bind fun tokens _ after hopen hparse => ?_
  obtain ⟨sep, rfl, hsep⟩ := (endOfStatement_eq_ok hopen).mp hparse
  exact ⟨[sep], Closed, rfl, @Open.closed_behind [sep] after hopen, hf sep hsep⟩

lemma accepts_ended (h : ∀ sep, sep.kind = .separator → D [sep] a) :
    Accepts Open bound (Read.lift (Parse.endOfStatement message) >>= fun _ => pure a) D :=
  accepts_end fun sep hsep => accepts_pure (h sep hsep)

lemma accepts_closed {kind : Kind} {message' : String} (hkind : kind ≠ .separator)
    (h : ∀ last sep, last.kind = kind → sep.kind = .separator → D [last, sep] a) :
    Accepts Closed bound (Read.lift (Parse.expect kind message) >>= fun _ =>
      Read.lift (Parse.endOfStatement message') >>= fun _ => pure a) D :=
  accepts_expect hkind fun last hlast => accepts_ended fun sep hsep => h last sep hlast hsep

lemma accepts_lined {p : Parse α} {C : List Token → α → Prop} (hp : Lined p C)
    (h : ∀ t a, C t a → D t a) : Accepts Open bound (Read.lift p) D := by
  intro reading a after hopen _ hread
  obtain ⟨rest, hparse, rfl⟩ := lift_eq_ok.mp hread
  obtain ⟨t, ht, hC⟩ := hp.sound hopen hparse
  exact ⟨⟨⟨t, ht.symm⟩, List.prefix_refl _⟩, fun _ => ⟨t, ht, h t a hC⟩⟩

lemma Accepts.behind {p : Read α} {reading after : Reading} {token : Token} {rest : List Token}
    {a : α} (h : Accepts start bound p fun t a => D (token :: t) a)
    (htokens : reading.tokens = token :: rest) (hstart : start rest)
    (hlt : reading.tokens.length < bound + 1)
    (hp : p { reading with tokens := rest } = (.ok a, after)) :
    Onward reading after ∧
      (after.failures = reading.failures → ∃ t, reading.tokens = t ++ after.tokens ∧ D t a) := by
  rw [htokens] at hlt
  obtain ⟨hon, htakes⟩ := h _ a after hstart (Nat.lt_of_succ_lt_succ hlt) hp
  refine ⟨(onward_behind htokens).trans hon, fun hquiet => ?_⟩
  obtain ⟨t, ht, hD⟩ := htakes hquiet
  exact ⟨token :: t, htokens.trans (congrArg (token :: ·) ht), hD⟩

lemma accepts_stop {reading : Reading} {b : α} {after : Reading} (h : D [] a)
    (hp : (Except.ok a, reading) = ((.ok b, after) : Except Failure α × Reading)) :
    Onward reading after ∧
      (after.failures = reading.failures → ∃ t, reading.tokens = t ++ after.tokens ∧ D t b) := by
  cases hp
  exact ⟨onward_refl reading, fun _ => ⟨[], rfl, h⟩⟩

end Rules

section Statements

variable {declaration : Reading → Option Stmt × Reading} {statement : Read Stmt}
  {load : Token → String → Read Stmt} {found : String → Option Stmt} {bound : Nat}

/-- What is read of a block at once: a separator, or what the grammar derives. -/
def AcceptsEach (bound : Nat) (declaration : Reading → Option Stmt × Reading)
    (found : String → Option Stmt) : Prop :=
  ∀ reading s after, Open reading.tokens → reading.tokens.length < bound →
    declaration reading = (s, after) → after.failures = reading.failures →
    (s = none ∧ ∃ sep, reading.tokens = sep :: after.tokens ∧ sep.kind = .separator) ∨
      ∃ s' t, s = some s' ∧ reading.tokens = t ++ after.tokens ∧ Builds found .declaration t s'

lemma AcceptsEach.mono {less : Nat} (h : AcceptsEach bound declaration found) (hle : less ≤ bound) :
    AcceptsEach less declaration found :=
  fun reading s after hopen hlt => h reading s after hopen (hlt.trans_le hle)

variable (h : Knot declaration statement load) (hd : AcceptsEach bound declaration found)
  (hs : Accepts Open bound statement (Builds found .statement))

include h hd

lemma block_accepts {ends : Kind → Bool} {reading after : Reading} {statements : List Stmt}
    (hclosed : Closed reading.tokens) (hlt : reading.tokens.length < bound)
    (hp : Read.block declaration ends reading = (statements, after))
    (hquiet : after.failures = reading.failures) :
    ∃ t, reading.tokens = t ++ after.tokens ∧ Builds found .block t statements := by
  induction hn : reading.tokens.length using Nat.strong_induction_on
    generalizing reading statements with
  | _ n ih =>
    subst hn
    cases htokens : reading.tokens with
    | nil =>
      rw [Read.block.eq_def, htokens] at hp
      cases hp
      exact ⟨[], htokens.symm, .blockEnd⟩
    | cons token rest =>
      rw [h.unguarded.block ends htokens] at hp
      split at hp
      · cases hp
        exact ⟨[], htokens.symm, .blockEnd⟩
      · rcases hfirst : declaration reading with ⟨s, mid⟩
        rcases hrest : Read.block declaration ends mid with ⟨others, final⟩
        have hon := h.declaration_onward reading
        have hon' := h.block_onward ends mid
        have hshort := h.declaration_takes (by simp [htokens] : reading.tokens ≠ [])
        rw [hfirst] at hp hon hshort
        rw [hrest] at hon'
        simp only [hrest, Prod.mk.injEq] at hp
        obtain ⟨rfl, rfl⟩ := hp
        have hmid : mid.failures = reading.failures :=
          (hquiet ▸ hon'.failures).eq_of_length_le hon.failures.length_le
        obtain ⟨u, hu, hothers⟩ := ih _ hshort (hclosed.suffix hon.tokens) (hshort.trans hlt) hrest
          (hquiet.trans hmid.symm) rfl
        have hopen : Open reading.tokens := by
          rw [htokens] at hclosed ⊢
          exact hclosed.open_cons
        rw [← htokens]
        rcases hd reading s mid hopen hlt hfirst hmid with
          ⟨rfl, sep, htaken, hsep⟩ | ⟨s', t, rfl, htaken, ht⟩
        · exact ⟨sep :: u, by rw [htaken, hu, List.cons_append], .blockSkip hsep hothers⟩
        · exact ⟨t ++ u, by rw [htaken, hu, List.append_assoc], .blockNext ht hothers⟩

lemma accepts_blockUntil (words : List Keyword) :
    Accepts Closed bound (Read.blockUntil declaration words) (Builds found .block) := by
  intro reading statements after hclosed hlt hp
  have hon := h.block_onward (fun kind => words.any (kind == .keyword ·)) reading
  unfold Read.blockUntil at hp
  rcases hblock : Read.block declaration (fun kind => words.any (kind == .keyword ·)) reading with
    ⟨body, final⟩
  rw [hblock] at hon hp
  cases hp
  exact ⟨hon, block_accepts h hd hclosed hlt hblock⟩

lemma accepts_body {words : List Keyword} {β : Type} {f : List Stmt → Read β}
    {E : List Token → β → Prop}
    (hf : ∀ body t, Accepts Closed bound (f body) fun u b =>
      Builds found .block t body → E (t ++ u) b) :
    Accepts Closed bound (Read.blockUntil declaration words >>= f) E :=
  accepts_bind (accepts_blockUntil h hd words) (fun _ => id) hf

omit h hd in
lemma accepts_then {β : Type} {q : Read β} {E : List Token → β → Prop}
    (hq : ∀ t, Then t → Accepts Open bound q fun u b => E (t ++ u) b) :
    Accepts Open bound (Read.lift (Parse.word .thenWord) >>= fun _ => q) E :=
  accepts_word (fun _ => .inr) (hq [] .absent) fun token htoken => hq [token] (.present htoken)

lemma branch_accepts (hkeyword : keyword.kind = .keyword .ifWord) :
    Accepts Open bound (Read.branch declaration keyword)
      fun t s => Builds found .statement (keyword :: t) s := by
  refine accepts_before expression_sound (fun _ _ => derives_phrased) fun condition t ht => ?_
  refine accepts_then fun u hu => accepts_end fun sep hsep => ?_
  refine accepts_body h hd fun consequence v => accepts_word (fun _ => id) ?_ fun other hother => ?_
  · exact accepts_closed (by simp) fun last sep' hlast hsep' hv =>
      .branch hkeyword ht hu hsep hv hlast hsep'
  · refine accepts_end fun sep' hsep' => accepts_body h hd fun alternative w => ?_
    exact accepts_closed (by simp) fun last sep'' hlast hsep'' hw hv =>
      .branchElse hkeyword ht hu hsep hv hother hsep' hw hlast hsep''

lemma caseBranch_accepts : Accepts Open bound (Read.caseBranch declaration) fun t branch =>
    ∃ u sep v, t = u ++ sep :: v ∧ Listed (Derives .expression) u branch.conditions ∧
      sep.kind = .separator ∧ Builds found .block v branch.body := by
  refine accepts_before (commaList_sound expression_sound)
    (fun _ _ => listed_phrased fun _ _ => derives_phrased) fun conditions u hu => ?_
  refine accepts_end fun sep hsep => accepts_body h hd fun body v => ?_
  exact accepts_pure fun hv => ⟨u, sep, v, by simp, hu, hsep, hv⟩

lemma caseBranches_accepts :
    Accepts Closed bound (Read.caseBranches declaration) (Builds found .branches) := by
  induction bound with
  | zero => exact fun _ _ _ _ hlt => absurd hlt (Nat.not_lt_zero _)
  | succ bound ih =>
    intro reading branches after hclosed hlt hp
    have hless := hd.mono (Nat.le_succ bound)
    cases htokens : reading.tokens with
    | nil =>
      rw [Read.caseBranches.eq_def, htokens] at hp
      exact htokens ▸ accepts_stop .branchesEnd hp
    | cons token rest =>
      rw [h.unguarded.caseBranches htokens] at hp
      rw [← htokens]
      split at hp
      · next hcase =>
        have hopen : Open rest := (htokens ▸ hclosed).open_behind (by simp [hcase])
        refine Accepts.behind (accepts_bind (caseBranch_accepts h hless) (fun _ => .inr)
          fun first t => accepts_bind (ih hless) (fun _ => id) fun others u => accepts_pure ?_)
          htokens hopen hlt hp
        rintro hothers ⟨conditions, sep, body, rfl, hconditions, hsep, hbody⟩
        simpa using .branchesNext hcase hconditions hsep hbody hothers
      · exact accepts_stop .branchesEnd hp

lemma choose_accepts {case : Token} (hkeyword : keyword.kind = .keyword .doWord)
    (hcase : case.kind = .keyword .caseWord) :
    Accepts Open bound (Read.choose declaration case)
      fun t s => Builds found .statement (keyword :: case :: t) s := by
  refine accepts_end fun sep hsep => ?_
  refine accepts_bind (caseBranches_accepts h hd) (fun _ => id) fun branches t => ?_
  refine accepts_word (fun _ => id) ?_ fun other hother => accepts_end fun sep' hsep' => ?_
  · exact accepts_closed (by simp) fun last sep' hlast hsep' ht =>
      .choose hkeyword hcase hsep ht hlast hsep'
  · have hbody : Accepts Closed bound (some <$> Read.blockUntil declaration [.endCase])
        fun u otherwise => ∃ body, otherwise = some body ∧ Builds found .block u body :=
      accepts_body h hd fun body u => accepts_pure fun hu => ⟨body, rfl, by simpa using hu⟩
    refine accepts_bind hbody (fun _ => id) fun otherwise u => ?_
    refine accepts_closed (by simp) fun last sep'' hlast hsep'' => ?_
    rintro ⟨body, rfl, hu⟩ ht
    exact .chooseOtherwise hkeyword hcase hsep ht hother hsep' hu hlast hsep''

lemma whileLoop_accepts {loop : Token} (hkeyword : keyword.kind = .keyword .doWord)
    (hloop : loop.kind = .keyword .whileWord) :
    Accepts Open bound (Read.whileLoop declaration loop)
      fun t s => Builds found .statement (keyword :: loop :: t) s := by
  refine accepts_before expression_sound (fun _ _ => derives_phrased) fun condition t ht => ?_
  refine accepts_end fun sep hsep => accepts_body h hd fun body u => ?_
  exact accepts_closed (by simp) fun last sep' hlast hsep' hu =>
    .whileLoop hkeyword hloop ht hsep hu hlast hsep'

omit hd in
include hs in
lemma plainStatements_accepts :
    Accepts Closed bound (Read.plainStatements statement) (Builds found .plain) := by
  induction bound with
  | zero => exact fun _ _ _ _ hlt => absurd hlt (Nat.not_lt_zero _)
  | succ bound ih =>
    intro reading statements after hclosed hlt hp
    have hloop := ih (hs.mono (Nat.le_succ bound))
    cases htokens : reading.tokens with
    | nil =>
      rw [Read.plainStatements.eq_def] at hp
      split at hp
      · exact htokens ▸ accepts_stop .plainEnd hp
      · next hcons => simp [htokens] at hcons
    | cons token rest =>
      rw [h.unguarded.plainStatements htokens] at hp
      rw [← htokens]
      split at hp
      · exact accepts_stop .plainEnd hp
      · split at hp
        · next hsep =>
          have hrest : Closed rest := (htokens ▸ hclosed).suffix (List.suffix_cons token rest)
          exact Accepts.behind (hloop.imp fun _ _ => .plainSkip hsep) htokens hrest hlt hp
        · have hopen : Open reading.tokens := htokens ▸ (htokens ▸ hclosed).open_cons
          refine accepts_bind_below hs (fun _ => .inr) (fun before s mid hbefore hfirst _ =>
            (h.statement_takes hfirst).trans_le (Nat.le_of_lt_succ hbefore))
            (fun first t => accepts_bind hloop (fun _ => id) fun others u => accepts_pure ?_)
            reading statements after hopen hlt hp
          intro hothers hfirst
          simpa using .plainNext hfirst hothers

omit hd in
include hs in
lemma doLoop_accepts (hkeyword : keyword.kind = .keyword .doWord) :
    Accepts Open bound (Read.doLoop statement keyword)
      fun t s => Builds found .statement (keyword :: t) s := by
  refine accepts_end fun sep hsep => ?_
  refine accepts_bind (plainStatements_accepts h hs) (fun _ => id) fun body t => ?_
  refine accepts_expect (by simp) fun loop hloop => ?_
  refine accepts_before expression_sound (fun _ _ => derives_phrased) fun condition u hu => ?_
  exact accepts_ended fun sep' hsep' ht => .doLoop hkeyword hsep ht hloop hu hsep'

lemma forLoop_accepts (hkeyword : keyword.kind = .keyword .forWord) :
    Accepts Open bound (Read.forLoop declaration keyword)
      fun t s => Builds found .statement (keyword :: t) s := by
  refine (accepts_expect (by simp) fun counter hcounter => ?_).opened
  refine (accepts_expect (by simp) fun assign hassign => ?_).opened
  refine accepts_before expression_sound (fun _ _ => derives_phrased) fun start t ht => ?_
  refine (accepts_expect (by simp) fun upTo hupTo => ?_).opened
  refine accepts_before expression_sound (fun _ _ => derives_phrased) fun finish u hu => ?_
  refine accepts_word (fun _ => .inr) ?_ fun keyword' hkeyword' => ?_
  · refine accepts_end fun sep hsep => accepts_body h hd fun body w => ?_
    exact accepts_closed (by simp) fun last sep' hlast hsep' hw =>
      .forLoop hkeyword hcounter hassign ht hupTo hu .absent hsep hw hlast hsep'
  · refine accepts_before expression_sound (fun _ _ => derives_phrased) fun step v hv => ?_
    refine accepts_end fun sep hsep => accepts_body h hd fun body w => ?_
    exact accepts_closed (by simp) fun last sep' hlast hsep' hw =>
      .forLoop hkeyword hcounter hassign ht hupTo hu (.present hkeyword' hv) hsep hw hlast hsep'

lemma defer_accepts (hkeyword : keyword.kind = .keyword .deferWord) :
    Accepts Open bound (Read.defer declaration keyword)
      fun t s => Builds found .statement (keyword :: t) s := by
  refine accepts_end fun sep hsep => accepts_body h hd fun body t => ?_
  exact accepts_closed (by simp) fun last sep' hlast hsep' ht =>
    .defer hkeyword hsep ht hlast hsep'

lemma function_accepts (hkeyword : keyword.kind = .keyword .functionWord) :
    Accepts Open bound (Read.function declaration keyword)
      fun t f => Builds found .function (keyword :: t) f := by
  refine (accepts_expect (by simp) fun name hname => ?_).opened
  refine accepts_before parameters_sound (fun _ _ => parameters_phrased) fun parameters t ht => ?_
  refine accepts_end fun sep hsep => accepts_body h hd fun body u => ?_
  exact accepts_closed (by simp) fun last sep' hlast hsep' hu =>
    .function hkeyword hname ht hsep hu hlast hsep'

lemma module_accepts (hkeyword : keyword.kind = .keyword .moduleWord) :
    Accepts Open bound (Read.module declaration keyword)
      fun t s => Builds found .declaration (keyword :: t) s := by
  refine (accepts_expect (by simp) fun name hname => ?_).opened
  refine accepts_end fun sep hsep => accepts_body h hd fun body t => ?_
  exact accepts_closed (by simp) fun last sep' hlast hsep' ht =>
    .module hkeyword hname hsep ht hlast hsep'

lemma members_accepts :
    Accepts Closed bound (Read.members declaration) (Builds found .members) := by
  induction bound with
  | zero => exact fun _ _ _ _ hlt => absurd hlt (Nat.not_lt_zero _)
  | succ bound ih =>
    intro reading all after hclosed hlt hp
    have hless := hd.mono (Nat.le_succ bound)
    cases htokens : reading.tokens with
    | nil =>
      rw [Read.members.eq_def] at hp
      split at hp
      · exact htokens ▸ accepts_stop .membersEnd hp
      · next hcons => simp [htokens] at hcons
    | cons token rest =>
      rw [h.unguarded.members htokens] at hp
      rw [← htokens]
      split at hp
      · exact accepts_stop .membersEnd hp
      · split at hp
        · next hsep =>
          have hrest : Closed rest := (htokens ▸ hclosed).suffix (List.suffix_cons token rest)
          exact Accepts.behind ((ih hless).imp fun _ _ => .membersSkip hsep) htokens hrest hlt hp
        · split at hp
          · next hkeyword =>
            have hopen : Open rest := (htokens ▸ hclosed).open_behind (by simp [hkeyword])
            refine Accepts.behind (accepts_bind (function_accepts h hless hkeyword) (fun _ => .inr)
              fun method t => accepts_bind (ih hless) (fun _ => id) fun all u => accepts_pure ?_)
              htokens hopen hlt hp
            intro hall hmethod
            simpa using .membersMethod hmethod hall
          · have hopen : Open reading.tokens := htokens ▸ (htokens ▸ hclosed).open_cons
            refine accepts_bind_below (accepts_lined lined_property fun _ _ => id) (fun _ => .inr)
              (fun before property mid hbefore hfirst _ => ?_)
              (fun property t => accepts_bind (ih hless) (fun _ => id) fun all u => accepts_pure ?_)
              reading all after hopen hlt hp
            · obtain ⟨left, hproperty, rfl⟩ := lift_eq_ok.mp hfirst
              exact (property_consumes _ _ _ hproperty).trans_le (Nat.le_of_lt_succ hbefore)
            · intro hall hproperty
              simpa using .membersProperty hproperty hall

lemma classDef_accepts (hkeyword : keyword.kind = .keyword .classWord) :
    Accepts Open bound (Read.classDef declaration keyword)
      fun t s => Builds found .declaration (keyword :: t) s := by
  refine (accepts_expect (by simp) fun name hname => ?_).opened
  refine accepts_before (asName_sound _) (fun _ _ => asName_phrased) fun superclass t ht => ?_
  refine accepts_end fun sep hsep => ?_
  refine accepts_bind (members_accepts h hd) (fun _ => id) fun all u => ?_
  exact accepts_closed (by simp) fun last sep' hlast hsep' hu =>
    .classDef hkeyword hname ht hsep hu hlast hsep'

include hs in
lemma doStatement_accepts (hkeyword : keyword.kind = .keyword .doWord) :
    Accepts Open bound (Read.doStatement declaration statement keyword)
      fun t s => Builds found .statement (keyword :: t) s := by
  refine accepts_word (fun _ => .inr) ?_ fun case hcase => choose_accepts h hd hkeyword hcase
  exact accepts_word (fun _ => .inr) (doLoop_accepts h hs hkeyword)
    fun loop hloop => whileLoop_accepts h hd hkeyword hloop

omit h hd in
lemma opens_of_ends {next : Option Kind → Bool} (hends : Ends (· == .leftParen) tokens) :
    ¬opens next tokens = true := by
  cases tokens with
  | nil => simp [opens]
  | cons token rest => simp_all [opens, Ends]

omit h hd in
lemma wordless_accepts : Accepts Open bound Read.wordless (Builds found .statement) := by
  intro reading s after hopen hlt hp
  obtain ⟨_, mid, hlook, hread⟩ := read_bind_eq_ok.mp hp
  obtain ⟨_, hparse, rfl⟩ := lift_eq_ok.mp hlook
  cases hparse
  split at hread
  · next hopens =>
    obtain ⟨token?, mid, haccept, hread⟩ := read_bind_eq_ok.mp hread
    obtain ⟨rest, hparse, rfl⟩ := lift_eq_ok.mp haccept
    cases token? with
    | none =>
      obtain ⟨rfl, hends⟩ := accept_eq_none.mp hparse
      exact absurd hopens (opens_of_ends hends)
    | some opening =>
      obtain ⟨htokens, hkind⟩ := accept_eq_some.mp hparse
      have hopening : opening.kind = .leftParen := by simpa using hkind
      have hrest : Open rest := (htokens ▸ hopen).of_cons (by simp [hopening])
      exact Accepts.behind (accepts_lined (lined_assignAll opening) fun _ _ hline =>
        .simple (.assignAll hopening hline)) htokens hrest (hlt.trans (Nat.lt_succ_self _)) hread
  · next hopens =>
    obtain ⟨rest, hparse, rfl⟩ := lift_eq_ok.mp hread
    obtain ⟨t, ht, hline⟩ := lined_expressionStatement.sound hopen hparse
    obtain ⟨u, sep, rfl, hsep⟩ := evaluated_line hline
    refine ⟨⟨⟨_, ht.symm⟩, List.prefix_refl _⟩, fun _ => ⟨_, ht, .simple (.evaluated hline ?_)⟩⟩
    have hlook : opens beforeAssign reading.tokens = false := Bool.eq_false_iff.mpr hopens
    rw [ht, List.append_assoc, List.singleton_append, opens_line hsep] at hlook
    exact hlook

/-- Loading gives nothing but what `found` gives. -/
def Delivers (load : Token → String → Read Stmt) (found : String → Option Stmt) : Prop :=
  ∀ token name reading s after, load token name reading = (.ok s, after) → found name = some s

variable (hfound : Delivers load found)

omit hd in
include hfound in
lemma importStatement_accepts (hkeyword : keyword.kind = .keyword .importWord) :
    Accepts Open bound (Read.importStatement load keyword)
      fun t s => Builds found .statement (keyword :: t) s := by
  refine (accepts_expect (by simp) fun name hname => accepts_end fun sep hsep => ?_).opened
  intro reading s after _ _ hp
  obtain ⟨htokens, hfailures⟩ := h.loads keyword name.lexeme reading
  rw [hp] at htokens hfailures
  exact ⟨⟨htokens ▸ List.suffix_refl _, hfailures⟩, fun _ => ⟨[], htokens.symm,
    .simple (.imported hkeyword hname hsep (hfound _ _ _ _ _ hp))⟩⟩

include hs hfound

lemma statementForm_accepts {form : Read Stmt}
    (hform : Read.statementForm declaration statement load token = some form) :
    Accepts Open bound form fun t s => Builds found .statement (token :: t) s := by
  unfold Read.statementForm at hform
  split at hform
  all_goals cases hform
  · next hkind =>
    exact accepts_lined (lined_print token) fun _ _ hline => .simple (.print (.inl hkind) hline)
  · next hkind =>
    exact accepts_lined (lined_print token) fun _ _ hline => .simple (.print (.inr hkind) hline)
  · next hkind =>
    exact accepts_lined (lined_giveBack token) fun _ _ hline => .simple (.giveBack hkind hline)
  · next hkind => exact branch_accepts h hd hkind
  · next hkind => exact doStatement_accepts h hd hs hkind
  · next hkind => exact accepts_ended fun _ hsep => .simple (.exit hkind hsep)
  · next hkind => exact accepts_ended fun _ hsep => .simple (.loop hkind hsep)
  · next hkind => exact forLoop_accepts h hd hkind
  · next hkind => exact importStatement_accepts h hfound hkind
  · next hkind =>
    exact accepts_lined (lined_release token) fun _ _ hline => .simple (.release hkind hline)
  · next hkind => exact defer_accepts h hd hkind

lemma anyStatement_accepts :
    Accepts Open (bound + 1) (Read.anyStatement declaration statement load)
      (Builds found .statement) := by
  intro reading s after hopen hlt hp
  unfold Read.anyStatement at hp
  split at hp
  · exact wordless_accepts reading s after hopen hlt hp
  · next token rest htokens =>
    cases hform : Read.statementForm declaration statement load token with
    | none =>
      rw [hform] at hp
      exact wordless_accepts reading s after hopen hlt hp
    | some form =>
      rw [hform] at hp
      have hkind : token.kind ≠ .separator := by
        intro hkind
        simp [Read.statementForm, hkind] at hform
      have hrest : Open rest := (htokens ▸ hopen).of_cons hkind
      exact (statementForm_accepts h hd hs hfound hform).behind htokens hrest hlt hp

omit hs hfound in
lemma declarationForm_accepts {form : Read Stmt}
    (hform : Read.declarationForm declaration token = some form) :
    Accepts Open bound form fun t s => Builds found .declaration (token :: t) s := by
  unfold Read.declarationForm at hform
  split at hform
  all_goals cases hform
  · next hkind =>
    exact accepts_lined (lined_declare token .local) fun _ _ hline =>
      .announced (@Announced.declared token .local _ _ hkind hline)
  · next hkind =>
    exact accepts_lined (lined_declare token .global) fun _ _ hline =>
      .announced (@Announced.declared token .global _ _ hkind hline)
  · next hkind =>
    exact accepts_lined (lined_const token) fun _ _ hline => .announced (.constant hkind hline)
  · next hkind =>
    refine accepts_bind (function_accepts h hd hkind) (fun _ => .inr) fun f t => accepts_pure ?_
    intro hf
    simpa using .method hf
  · next hkind => exact module_accepts h hd hkind
  · next hkind => exact classDef_accepts h hd hkind

lemma anyDeclaration_accepts :
    Accepts Open (bound + 1) (Read.anyDeclaration declaration statement load)
      (Builds found .declaration) := by
  intro reading s after hopen hlt hp
  have hstatement := (anyStatement_accepts h hd hs hfound).imp fun _ _ => Builds.stated
  unfold Read.anyDeclaration at hp
  split at hp
  · exact hstatement reading s after hopen hlt hp
  · next token rest htokens =>
    cases hform : Read.declarationForm declaration token with
    | none =>
      rw [hform] at hp
      exact hstatement reading s after hopen hlt hp
    | some form =>
      rw [hform] at hp
      have hkind : token.kind ≠ .separator := by
        intro hkind
        simp [Read.declarationForm, hkind] at hform
      have hrest : Open rest := (htokens ▸ hopen).of_cons hkind
      exact (declarationForm_accepts h hd hform).behind htokens hrest hlt hp

omit hd hs in
/-- Each statement of a block, and each statement of a post-test loop. -/
lemma statements_accept (bound : Nat) : AcceptsEach bound declaration found ∧
    Accepts Open bound statement (Builds found .statement) := by
  induction bound with
  | zero =>
    exact ⟨fun _ _ _ _ hlt => absurd hlt (Nat.not_lt_zero _),
      fun _ _ _ _ hlt => absurd hlt (Nat.not_lt_zero _)⟩
  | succ bound ih =>
    obtain ⟨hd, hs⟩ := ih
    refine ⟨fun reading s after hopen hlt hp hquiet => ?_, fun reading s after hopen hlt hp => ?_⟩
    · rw [h.declaration_eq] at hp
      unfold Read.recovering at hp
      split at hp
      · next hnil =>
        obtain ⟨last, hlast, -⟩ := hopen
        simp [hnil] at hlast
      · next token rest htokens =>
        split at hp
        · next hsep =>
          cases hp
          exact .inl ⟨rfl, token, htokens, hsep⟩
        · have hon := h.anyDeclaration_onward reading
          rcases hread : Read.anyDeclaration declaration statement load reading with
            ⟨e | s', mid⟩
          · rw [hread] at hp hon
            cases hp
            -- a failure was added to those before
            have hle := hon.failures.length_le
            simp only [← hquiet, List.length_append, List.length_singleton] at hle
            omega
          · rw [hread] at hp
            cases hp
            obtain ⟨t, ht, hbuilds⟩ := (anyDeclaration_accepts h hd hs hfound reading s' after hopen
              hlt hread).2 hquiet
            exact .inr ⟨s', t, rfl, ht, hbuilds⟩
    · rw [h.statement_eq] at hp
      exact anyStatement_accepts h hd hs hfound reading s after hopen hlt hp

omit hd hs in
lemma builds_of_block {statements : List Stmt} {after : Reading} {log : List Record}
    (hclosed : Closed tokens)
    (hp : Read.block declaration (fun _ => false) ⟨tokens, [], log⟩ = (statements, after))
    (hquiet : after.failures = []) : Builds found .block tokens statements := by
  have hd := (statements_accept h hfound (tokens.length + 1)).1
  have hend := h.program_takes_all ⟨tokens, [], log⟩
  obtain ⟨t, ht, hbuilds⟩ := block_accepts h hd hclosed (Nat.lt_succ_self _) hp hquiet
  rw [hp] at hend
  rw [hend, List.append_nil] at ht
  rwa [← ht] at hbuilds

omit h hd hs in
/-- The statements of a good text are derived from its tokens. -/
lemma builds_of_unit (hload : Loads load) {scanned : Scan} (hclosed : Closed scanned.tokens)
    (hgood : (SourceUnit.ofScan load scanned).errors = []) :
    scanned.errors = [] ∧
      Builds found .block scanned.tokens (SourceUnit.ofScan load scanned).statements := by
  unfold SourceUnit.ofScan at hgood ⊢
  obtain ⟨herrors, hfailures⟩ := List.append_eq_nil_iff.mp hgood
  exact ⟨List.map_eq_nil_iff.mp herrors,
    builds_of_block (knot hload) hfound hclosed rfl (List.map_eq_nil_iff.mp hfailures)⟩

end Statements

section Ends

variable {t u : List Token} {a b : Token}

@[simp]
lemma open_singleton : Open [a] ↔ a.kind = .separator := by
  simp [Open]

@[simp]
lemma open_append_cons : Open (t ++ a :: u) ↔ Open (a :: u) := by
  simp [Open, List.getLast?_append]

@[simp]
lemma open_cons_cons : Open (a :: b :: u) ↔ Open (b :: u) :=
  @open_append_cons [a] u b

@[simp]
lemma open_cons_append : Open (a :: (t ++ b :: u)) ↔ Open (b :: u) :=
  @open_append_cons (a :: t) u b

@[simp]
lemma open_cons_append_append {v : List Token} :
    Open (a :: (t ++ (u ++ b :: v))) ↔ Open (b :: v) := by
  rw [← List.append_assoc, open_cons_append]

lemma Open.append (h : Open t) (hu : Closed u) : Open (t ++ u) := by
  rcases hu with rfl | hu
  · rwa [List.append_nil]
  · cases u with
    | nil => simp [Open] at hu
    | cons b u => rwa [open_append_cons]

/-- What ends with a separator: a statement, a declaration and a function, and whatever else has any
tokens. -/
def Part.Ends : Part → List Token → Prop
  | .statement | .declaration | .function => Open
  | .block | .plain | .branches | .members => Closed

lemma Closed.append (h : Closed t) (hu : Closed u) : Closed (t ++ u) := by
  rcases h with rfl | h
  · exact hu
  · exact .inr (h.append hu)

lemma simple_open {found : String → Option Stmt} {s : Stmt} (h : Simple found t s) : Open t := by
  cases h with
  | print _ h | giveBack _ h | release _ h | assignAll _ h => cases h <;> simp [*]
  | evaluated h _ => cases h <;> simp [*]
  | _ => simp [*]

lemma announced_open {s : Stmt} (h : Announced t s) : Open t := by
  cases h with
  | declared _ h | constant _ h => cases h <;> simp [*]

lemma holds_open {p : Property} (h : Holds t p) : Open t := by
  cases h
  simp [*]

lemma closed_skip (hsep : a.kind = .separator) (h : Closed u) : Closed (a :: u) :=
  .inr (Open.append (open_singleton.mpr hsep) h)

lemma builds_ends {found : String → Option Stmt} {part : Part} {tree : part.Tree}
    (h : Builds found part t tree) : part.Ends t := by
  induction h with
  | simple h => exact simple_open h
  | announced h => exact announced_open h
  | stated _ ih | method _ ih => exact ih
  | blockEnd | plainEnd | branchesEnd | membersEnd => exact .inl rfl
  | blockSkip hsep _ ih | plainSkip hsep _ ih | membersSkip hsep _ ih => exact closed_skip hsep ih
  | blockNext _ _ ih ih' | plainNext _ _ ih ih' | membersMethod _ _ ih ih' =>
    exact .inr (ih.append ih')
  | membersProperty h _ ih => exact .inr ((holds_open h).append ih)
  | @branchesNext case sep t u v _ _ _ _ _ hsep _ _ ih ih' =>
    have hline : Open (case :: t ++ [sep]) := by simp [hsep]
    have hall := hline.append (ih.append ih')
    rw [List.append_assoc] at hall
    exact .inr hall
  | _ => simp [Part.Ends, *]

end Ends

end XBase.Proofs
