import XBase.Proofs.Places

/-!
# Reading programs goes forward

The readers of statements report failures and go on. They take back no failure, they leave a part
at the end of the tokens, and a declaration takes at least one token away, so that the guards of
reading are never needed.
-/

namespace XBase.Proofs

section Grammars

variable {bound : Nat}

/-- A grammar that takes at least one token where it succeeds. -/
def Consumes {α : Type} (p : Parse α) : Prop :=
  ∀ tokens a rest, p tokens = (.ok a, rest) → rest.length < tokens.length

lemma consumes_bind {α β : Type} {p : Parse α} {f : α → Parse β} (taken : α → List Token)
    (h : Consumes p) (hf : ∀ a bound, Points (taken a) bound (f a)) : Consumes (p >>= f) := by
  intro tokens b rest hp
  obtain ⟨a, mid, ha, hb⟩ := parse_bind_eq_ok.mp hp
  exact (alike_length_le (hf a _) (Nat.lt_succ_self _) hb).trans_lt (h tokens a mid ha)

lemma expression_consumes : Consumes Parse.expression := by
  intro tokens e rest hp
  obtain ⟨t, rfl, ht, -⟩ := expression_sound tokens e rest hp
  obtain ⟨first, u, rfl, -⟩ := derives_headed ht
  simp only [List.cons_append, List.length_cons, List.length_append]
  omega

lemma expect_consumes (kind : Kind) (message : String) : Consumes (Parse.expect kind message) := by
  intro tokens token rest hp
  obtain ⟨rfl, -⟩ := expect_eq_ok.mp hp
  simp

lemma expressionStatement_consumes : Consumes Parse.expressionStatement := by
  refine consumes_bind (fun first => [first.token]) expression_consumes fun first bound => ?_
  refine alike_bind (alike_accept _) fun found => ?_
  cases found with
  | none => exact alike_ended _ _
  | some operator =>
    have hvalue := alike_bind (@alike_expression [first.token] bound) fun value => alike_ended
      "Expect new line after expression." (if operator.kind = .assign then
        Stmt.assign operator first value else Stmt.update operator first value)
    exact alike_ite (alike_bind (alike_failAt List.mem_cons_self _) fun _ => hvalue) hvalue

lemma property_consumes : Consumes Parse.property :=
  consumes_bind (fun _ => []) (expect_consumes _ _) fun _ _ => alike_bind (alike_expect _ _)
    fun _ => alike_bind alike_expression fun _ => alike_ended _ _

end Grammars

variable {reading after : Reading} {token : Token} {rest : List Token} {p q : Read Stmt}
  {found : Stmt}

section Readings

/-- What reading may do: it leaves a part at the end of the tokens, and takes back no failure. -/
structure Onward (reading after : Reading) : Prop where
  tokens : after.tokens <:+ reading.tokens
  failures : reading.failures <+: after.failures

lemma onward_refl (reading : Reading) : Onward reading reading :=
  ⟨List.suffix_refl _, List.prefix_refl _⟩

lemma Onward.trans {final : Reading} (h : Onward reading after) (h' : Onward after final) :
    Onward reading final :=
  ⟨h'.tokens.trans h.tokens, h.failures.trans h'.failures⟩

lemma Onward.length_le (h : Onward reading after) : after.tokens.length ≤ reading.tokens.length :=
  h.tokens.length_le

lemma onward_behind (h : reading.tokens = token :: rest) :
    Onward reading { reading with tokens := rest } :=
  ⟨h ▸ List.suffix_cons token rest, List.prefix_refl _⟩

lemma resumeAfter_suffix (last : Token) (tokens : List Token) :
    resumeAfter last tokens <:+ tokens := by
  induction tokens generalizing last with
  | nil => exact List.suffix_refl _
  | cons token rest ih =>
    rw [resumeAfter]
    split
    · exact List.suffix_refl _
    · exact (ih token).trans (List.suffix_cons token rest)

lemma resume_suffix (tokens : List Token) : resume tokens <:+ tokens.tail := by
  cases tokens with
  | nil => exact List.suffix_refl _
  | cons token rest => exact resumeAfter_suffix token rest

variable {α β γ : Type} {bound : Nat}

lemma read_bind_ok {p : Read α} {f : α → Read β} {a : α} (h : p reading = (.ok a, after)) :
    (p >>= f) reading = f a after := by
  simp only [bind, h]

lemma read_bind_error {p : Read α} {f : α → Read β} {e : Failure}
    (h : p reading = (.error e, after)) : (p >>= f) reading = (.error e, after) := by
  simp only [bind, h]

lemma read_bind_eq_ok {p : Read α} {f : α → Read β} {b : β} :
    (p >>= f) reading = (.ok b, after) ↔
      ∃ a mid, p reading = (.ok a, mid) ∧ f a mid = (.ok b, after) := by
  rcases hp : p reading with ⟨e | a, mid⟩
  · simp [read_bind_error hp]
  · simp only [read_bind_ok hp, Prod.mk.injEq, Except.ok.injEq]
    constructor
    · intro h
      exact ⟨a, mid, ⟨rfl, rfl⟩, h⟩
    · rintro ⟨_, _, ⟨rfl, rfl⟩, h⟩
      exact h

lemma read_pure_eq_ok {a b : α} :
    (pure a : Read α) reading = (.ok b, after) ↔ a = b ∧ reading = after := by
  change (Except.ok a, reading) = (Except.ok b, after) ↔ _
  simp

lemma lift_eq_ok {p : Parse α} {a : α} :
    Read.lift p reading = (.ok a, after) ↔
      ∃ rest, p reading.tokens = (.ok a, rest) ∧ { reading with tokens := rest } = after := by
  unfold Read.lift
  rcases p reading.tokens with ⟨result, rest⟩
  simp [and_assoc]

/-- How reading may go on, and how it may fail. -/
structure Course where
  goes : Reading → Reading → Prop
  fails : Reading → Reading → Failure → Prop
  refl : ∀ reading, goes reading reading
  trans : ∀ {reading after final}, goes reading after → goes after final → goes reading final
  trans_fails : ∀ {reading after final e}, goes reading after → fails after final e →
    fails reading final e
  length_le : ∀ {reading after}, goes reading after → after.tokens.length ≤ reading.tokens.length
  drop : ∀ {reading rest}, rest <:+ reading.tokens → goes reading { reading with tokens := rest }
  point : ∀ {reading used rest e}, reading.tokens = used ++ rest →
    (e.place = rest.head? ∨ ∃ token ∈ used, e.place = some token) →
    fails reading { reading with tokens := rest } e
  recover : ∀ {reading after e}, fails reading after e →
    goes reading { after with failures := after.failures ++ [e], tokens := resume after.tokens }

namespace Course

/-- A reader has gone on or has failed. -/
def Ends (course : Course) (reading : Reading) : Except Failure α × Reading → Prop
  | (.ok _, after) => course.goes reading after
  | (.error e, after) => course.fails reading after e

/-- On readings with fewer tokens than `bound` two readers do the same and stay on the course. -/
def Follow (course : Course) (bound : Nat) (p q : Read α) : Prop :=
  ∀ reading, reading.tokens.length < bound → p reading = q reading ∧ course.Ends reading (p reading)

/-- The same of readers that never fail. -/
def Advance (course : Course) (bound : Nat) (p q : Reading → γ × Reading) : Prop :=
  ∀ reading, reading.tokens.length < bound → p reading = q reading ∧ course.goes reading (p reading).2

variable {course : Course}

lemma trans_ends {result : Except Failure α × Reading} (h : course.goes reading after)
    (h' : course.Ends after result) : course.Ends reading result := by
  rcases result with ⟨e | a, final⟩
  · exact course.trans_fails h h'
  · exact course.trans h h'

lemma behind {reading : Reading} {token : Token} {rest : List Token}
    (h : reading.tokens = token :: rest) : course.goes reading { reading with tokens := rest } :=
  course.drop (h ▸ List.suffix_cons token rest)

end Course

/-- The course that asks for no more than going onward. -/
def onward : Course where
  goes := Onward
  fails reading after _ := Onward reading after
  refl := onward_refl
  trans := Onward.trans
  trans_fails := Onward.trans
  length_le := Onward.length_le
  drop h := ⟨h, List.prefix_refl _⟩
  point h _ := ⟨⟨_, h.symm⟩, List.prefix_refl _⟩
  recover h := h.trans
    ⟨(resume_suffix _).trans (List.tail_suffix _), List.prefix_append _ _⟩

lemma ends_onward {result : Except Failure α × Reading} :
    onward.Ends reading result ↔ Onward reading result.2 := by
  rcases result with ⟨e | a, after⟩ <;> exact Iff.rfl

variable {course : Course}

lemma follow_bind {p q : Read α} {f g : α → Read β} (h : course.Follow bound p q)
    (hf : ∀ a, course.Follow bound (f a) (g a)) : course.Follow bound (p >>= f) (q >>= g) := by
  intro reading hlt
  obtain ⟨heq, hends⟩ := h reading hlt
  rcases hp : p reading with ⟨e | a, after⟩
  · rw [hp] at hends
    rw [read_bind_error hp, read_bind_error (heq ▸ hp)]
    exact ⟨rfl, hends⟩
  · rw [hp] at hends
    rw [read_bind_ok hp, read_bind_ok (heq ▸ hp)]
    obtain ⟨hrest, hfinal⟩ := hf a after ((course.length_le hends).trans_lt hlt)
    exact ⟨hrest, Course.trans_ends hends hfinal⟩

lemma advance_symm {p q : Reading → γ × Reading} (h : course.Advance bound p q) :
    course.Advance bound q p := by
  intro reading hlt
  obtain ⟨heq, hgoes⟩ := h reading hlt
  exact ⟨heq.symm, heq ▸ hgoes⟩

lemma advance_mono {p q : Reading → γ × Reading} {less : Nat} (h : course.Advance bound p q)
    (hle : less ≤ bound) : course.Advance less p q :=
  fun reading hlt => h reading (hlt.trans_le hle)

lemma follow_behind {p q : Read α} (h : course.Follow bound p q)
    (htokens : reading.tokens = token :: rest) (hlt : reading.tokens.length < bound + 1) :
    p { reading with tokens := rest } = q { reading with tokens := rest } ∧
      course.Ends reading (p { reading with tokens := rest }) := by
  have hrest : rest.length < bound := by
    rw [htokens] at hlt
    exact Nat.lt_of_succ_lt_succ hlt
  obtain ⟨heq, hends⟩ := h { reading with tokens := rest } hrest
  exact ⟨heq, Course.trans_ends (Course.behind htokens) hends⟩

lemma follow_pure (a : α) : course.Follow bound (pure a : Read α) (pure a : Read α) :=
  fun reading _ => ⟨rfl, course.refl reading⟩

lemma follow_ite {p p' q q' : Read α} {c : Prop} [Decidable c] (h : course.Follow bound p q)
    (h' : course.Follow bound p' q') :
    course.Follow bound (if c then p else p' : Read α) (if c then q else q' : Read α) := by
  split
  · exact h
  · exact h'

lemma follow_lift {p : Parse α} (h : Points [] bound p) :
    course.Follow bound (Read.lift p) (Read.lift p) := by
  intro reading hlt
  refine ⟨rfl, ?_⟩
  obtain ⟨used, hused, herror⟩ := (h reading.tokens hlt).2
  unfold Read.lift
  rcases hp : p reading.tokens with ⟨e | a, rest⟩
  all_goals rw [hp] at hused
  · rw [hp] at herror
    exact course.point hused (herror e rfl)
  · exact course.drop ⟨used, hused.symm⟩

lemma follow_read {p : Parse α} {f g : α → Read β} (h : Points [] bound p)
    (hf : ∀ a, course.Follow bound (f a) (g a)) :
    course.Follow bound (Read.lift p >>= f) (Read.lift p >>= g) :=
  follow_bind (follow_lift h) hf

lemma follow_ended {α : Type} (message : String) (a : α) :
    course.Follow bound (do Parse.endOfStatement message; return a : Read α)
      (do Parse.endOfStatement message; return a : Read α) :=
  follow_read (alike_endOfStatement message) fun _ => follow_pure a

section Nested

variable {declaration declaration' : Reading → Option Stmt × Reading} {statement statement' : Read Stmt}
  (h : course.Advance bound declaration declaration') (hs : course.Follow bound statement statement')

include h

lemma advance_block (ends : Kind → Bool) :
    course.Advance bound (Read.block declaration ends) (Read.block declaration' ends) := by
  intro reading hlt
  induction hn : reading.tokens.length using Nat.strong_induction_on generalizing reading with
  | _ n ih =>
    subst hn
    obtain ⟨heq, hgoes⟩ := h reading hlt
    rw [Read.block.eq_def declaration, Read.block.eq_def declaration', ← heq]
    cases htokens : reading.tokens with
    | nil => exact ⟨rfl, course.refl _⟩
    | cons token rest =>
      dsimp only
      split
      · exact ⟨rfl, course.refl _⟩
      · split
        · next hshort =>
          rw [← htokens] at hshort
          obtain ⟨hblock, hfinal⟩ := ih _ hshort _ (hshort.trans hlt) rfl
          rw [← hblock]
          exact ⟨rfl, course.trans hgoes hfinal⟩
        · exact ⟨rfl, hgoes⟩

lemma follow_blockUntil (words : List Keyword) :
    course.Follow bound (Read.blockUntil declaration words) (Read.blockUntil declaration' words) := by
  intro reading hlt
  obtain ⟨heq, hgoes⟩ := advance_block h (fun kind => words.any (kind == .keyword ·)) reading hlt
  unfold Read.blockUntil
  rw [← heq]
  exact ⟨rfl, hgoes⟩

lemma follow_branch (token : Token) :
    course.Follow bound (Read.branch declaration token) (Read.branch declaration' token) := by
  have hclose (condition : Expr) (consequence alternative : List Stmt) := follow_bind
    (@follow_lift _ bound course _ (alike_expect (.keyword .endIf)
      "Expect 'ENDIF' after if statement.")) fun _ =>
    follow_ended "Expect new line after if statement."
      (Stmt.branch token condition consequence alternative)
  refine follow_read alike_expression fun condition =>
    follow_read (alike_word _) fun _ =>
    follow_read (alike_endOfStatement _) fun _ =>
    follow_bind (follow_blockUntil h _) fun consequence =>
    follow_read (alike_word _) fun found => ?_
  cases found with
  | none => exact follow_bind (follow_pure _) (hclose condition consequence)
  | some _ =>
    exact follow_read (alike_endOfStatement _) fun _ =>
      follow_bind (follow_blockUntil h _) (hclose condition consequence)

lemma follow_caseBranch :
    course.Follow bound (Read.caseBranch declaration) (Read.caseBranch declaration') :=
  follow_read points_expressions fun _ =>
    follow_read (alike_endOfStatement _) fun _ =>
    follow_bind (follow_blockUntil h _) fun _ => follow_pure _

lemma caseBranches_cons
    (htokens : reading.tokens = token :: rest) (hlt : reading.tokens.length < bound + 1) :
    Read.caseBranches declaration reading =
      if token.kind = .keyword .caseWord then
        (do
          let first ← Read.caseBranch declaration
          let others ← (Read.caseBranches declaration : Read (List (CaseBranch Stmt)))
          return first :: others : Read (List (CaseBranch Stmt))) { reading with tokens := rest }
      else (.ok [], reading) := by
  rw [htokens] at hlt
  have hends := (follow_caseBranch h { reading with tokens := rest } (Nat.lt_of_succ_lt_succ hlt)).2
  rw [Read.caseBranches.eq_def, htokens]
  dsimp only
  split
  · rcases hp : Read.caseBranch declaration { reading with tokens := rest } with
      ⟨e | first, after⟩
    · exact (read_bind_error hp).symm
    · rw [hp] at hends
      have hshort : after.tokens.length < (token :: rest).length :=
        Nat.lt_succ_of_le (course.length_le hends)
      rw [read_bind_ok hp]
      dsimp only
      rw [if_pos hshort]
      rcases hrec : Read.caseBranches declaration after with ⟨e | others, final⟩
      · exact (read_bind_error hrec).symm
      · exact (read_bind_ok (f := fun others => pure (first :: others)) hrec).symm
  · rfl

lemma follow_caseBranches :
    course.Follow bound (Read.caseBranches declaration) (Read.caseBranches declaration') := by
  induction bound with
  | zero => exact fun _ hlt => absurd hlt (Nat.not_lt_zero _)
  | succ bound ih =>
    intro reading hlt
    have hless := advance_mono h (Nat.le_succ bound)
    cases htokens : reading.tokens with
    | nil =>
      rw [Read.caseBranches.eq_def, Read.caseBranches.eq_def, htokens]
      exact ⟨rfl, course.refl _⟩
    | cons token rest =>
      rw [caseBranches_cons hless htokens hlt, caseBranches_cons (advance_symm hless) htokens hlt]
      split
      · exact follow_behind (follow_bind (follow_caseBranch hless) fun _ =>
          follow_bind (ih hless) fun _ => follow_pure _) htokens hlt
      · exact ⟨rfl, course.refl _⟩

lemma follow_choose (token : Token) :
    course.Follow bound (Read.choose declaration token) (Read.choose declaration' token) := by
  have hclose (branches : List (CaseBranch Stmt)) (otherwise : Option (List Stmt)) := follow_bind
    (@follow_lift _ bound course _ (alike_expect (.keyword .endCase) "Expect keyword 'ENDCASE'."))
    fun _ => follow_ended "Expect new line at the end of `DO CASE` statement."
      (Stmt.choose token branches otherwise)
  refine follow_read (alike_endOfStatement _) fun _ =>
    follow_bind (follow_caseBranches h) fun branches =>
    follow_read (alike_word _) fun found => ?_
  cases found with
  | none => exact follow_bind (follow_pure _) (hclose branches)
  | some _ =>
    exact follow_read (alike_endOfStatement _) fun _ =>
      follow_bind (follow_bind (follow_blockUntil h _) fun _ => follow_pure _) (hclose branches)

lemma follow_whileLoop (token : Token) :
    course.Follow bound (Read.whileLoop declaration token) (Read.whileLoop declaration' token) :=
  follow_read alike_expression fun _ =>
    follow_read (alike_endOfStatement _) fun _ =>
    follow_bind (follow_blockUntil h _) fun _ =>
    follow_read (alike_expect _ _) fun _ => follow_ended _ _

omit h in
include hs in
lemma follow_plainStatements :
    course.Follow bound (Read.plainStatements statement) (Read.plainStatements statement') := by
  intro reading hlt
  induction hn : reading.tokens.length using Nat.strong_induction_on generalizing reading with
  | _ n ih =>
    subst hn
    have hloop (after : Reading) (hshort : after.tokens.length < reading.tokens.length) :=
      ih _ hshort after (hshort.trans hlt) rfl
    obtain ⟨heq, hends⟩ := hs reading hlt
    rw [Read.plainStatements.eq_def statement, Read.plainStatements.eq_def statement', ← heq]
    split
    · exact ⟨rfl, course.refl _⟩
    · next token rest htokens =>
      split
      · exact ⟨rfl, course.refl _⟩
      · split
        · obtain ⟨hskip, hafter⟩ := hloop { reading with tokens := rest } (by simp [htokens])
          exact ⟨hskip, Course.trans_ends (Course.behind htokens) hafter⟩
        · rcases hp : statement reading with ⟨e | first, after⟩
          all_goals
            rw [hp] at hends
            dsimp only
          · exact ⟨rfl, hends⟩
          · split
            · next hshort =>
              obtain ⟨hmore, hfinal⟩ := hloop after hshort
              rw [← hmore]
              rcases hrec : Read.plainStatements statement after with ⟨e | others, final⟩
              all_goals
                rw [hrec] at hfinal
                exact ⟨rfl, Course.trans_ends hends hfinal⟩
            · exact ⟨rfl, hends⟩

omit h in
include hs in
lemma follow_doLoop (token : Token) :
    course.Follow bound (Read.doLoop statement token) (Read.doLoop statement' token) :=
  follow_read (alike_endOfStatement _) fun _ =>
    follow_bind (follow_plainStatements hs) fun _ =>
    follow_read (alike_expect _ _) fun _ =>
    follow_read alike_expression fun _ => follow_ended _ _

lemma follow_forLoop (token : Token) :
    course.Follow bound (Read.forLoop declaration token) (Read.forLoop declaration' token) := by
  have hbody (counter : Token) (start finish : Expr) (step : Option Expr) := follow_bind
    (@follow_lift _ bound course _ (alike_endOfStatement "Expect new line.")) fun _ =>
    follow_bind (follow_blockUntil h [.endFor]) fun body =>
    follow_read (alike_expect (.keyword .endFor) "Expect 'ENDFOR' after loop body.")
    fun _ => follow_ended "Expect new line." (Stmt.forLoop token counter start finish step body)
  refine follow_read (alike_expect _ _) fun counter =>
    follow_read (alike_expect _ _) fun _ =>
    follow_read alike_expression fun start =>
    follow_read (alike_expect _ _) fun _ =>
    follow_read alike_expression fun finish =>
    follow_read (alike_word _) fun found => ?_
  cases found with
  | none => exact follow_bind (follow_pure _) (hbody counter start finish)
  | some _ =>
    exact follow_read alike_expression fun _ =>
      follow_bind (follow_pure _) (hbody counter start finish)

lemma follow_function (token : Token) :
    course.Follow bound (Read.function declaration token) (Read.function declaration' token) :=
  follow_read (alike_expect _ _) fun _ =>
    follow_read points_parameters fun _ =>
    follow_read (alike_endOfStatement _) fun _ =>
    follow_bind (follow_blockUntil h _) fun _ =>
    follow_read (alike_expect _ _) fun _ => follow_ended _ _

lemma follow_module (token : Token) :
    course.Follow bound (Read.module declaration token) (Read.module declaration' token) :=
  follow_read (alike_expect _ _) fun _ =>
    follow_read (alike_endOfStatement _) fun _ =>
    follow_bind (follow_blockUntil h _) fun _ =>
    follow_read (alike_expect _ _) fun _ => follow_ended _ _

lemma follow_members :
    course.Follow bound (Read.members declaration) (Read.members declaration') := by
  intro reading hlt
  induction hn : reading.tokens.length using Nat.strong_induction_on generalizing reading with
  | _ n ih =>
    subst hn
    have hloop (after : Reading) (hshort : after.tokens.length < reading.tokens.length) :=
      ih _ hshort after (hshort.trans hlt) rfl
    rw [Read.members.eq_def declaration, Read.members.eq_def declaration']
    split
    · exact ⟨rfl, course.refl _⟩
    · next token rest htokens =>
      have hbehind : course.goes reading { reading with tokens := rest } := Course.behind htokens
      split
      · exact ⟨rfl, course.refl _⟩
      · split
        · obtain ⟨heq, hends⟩ := hloop { reading with tokens := rest } (by simp [htokens])
          exact ⟨heq, Course.trans_ends hbehind hends⟩
        · split
          · obtain ⟨heq, hends⟩ := follow_function h token _
              ((course.length_le hbehind).trans_lt hlt)
            replace hends := Course.trans_ends hbehind hends
            rw [← heq]
            rcases hp : Read.function declaration token { reading with tokens := rest } with
              ⟨e | method, after⟩
            all_goals
              rw [hp] at hends
              dsimp only
            · exact ⟨rfl, hends⟩
            · split
              · next hshort =>
                obtain ⟨hmore, hfinal⟩ := hloop after hshort
                rw [← hmore]
                rcases hrec : Read.members declaration after with ⟨e | all, final⟩
                all_goals
                  rw [hrec] at hfinal
                  exact ⟨rfl, Course.trans_ends hends hfinal⟩
              · exact ⟨rfl, hends⟩
          · have hends := (@follow_lift _ _ course _ points_property reading hlt).2
            rcases hp : Read.lift Parse.property reading with ⟨e | property, after⟩
            all_goals
              rw [hp] at hends
              dsimp only
            · exact ⟨rfl, hends⟩
            · split
              · next hshort =>
                obtain ⟨hmore, hfinal⟩ := hloop after hshort
                rw [← hmore]
                rcases hrec : Read.members declaration after with ⟨e | all, final⟩
                all_goals
                  rw [hrec] at hfinal
                  exact ⟨rfl, Course.trans_ends hends hfinal⟩
              · exact ⟨rfl, hends⟩

lemma follow_classDef (token : Token) :
    course.Follow bound (Read.classDef declaration token) (Read.classDef declaration' token) :=
  follow_read (alike_expect _ _) fun _ =>
    follow_read (points_asName _) fun _ =>
    follow_read (alike_endOfStatement _) fun _ =>
    follow_bind (follow_members h) fun _ =>
    follow_read (alike_expect _ _) fun _ => follow_ended _ _

lemma follow_defer (token : Token) :
    course.Follow bound (Read.defer declaration token) (Read.defer declaration' token) :=
  follow_read (alike_endOfStatement _) fun _ =>
    follow_bind (follow_blockUntil h _) fun _ =>
    follow_read (alike_expect _ _) fun _ => follow_ended _ _

include hs in
lemma follow_doStatement (token : Token) :
    course.Follow bound (Read.doStatement declaration statement token)
      (Read.doStatement declaration' statement' token) := by
  refine follow_read (alike_word _) fun found => ?_
  cases found with
  | some case => exact follow_choose h case
  | none =>
    refine follow_read (alike_word _) fun other => ?_
    cases other with
    | some loop => exact follow_whileLoop h loop
    | none => exact follow_doLoop hs token

omit h in
lemma follow_wordless : course.Follow bound Read.wordless Read.wordless := by
  refine follow_read (alike_opensBefore _) fun _ => follow_ite ?_ ?_
  · refine follow_read (alike_accept _) fun found => ?_
    cases found with
    | some token => exact follow_lift (points_assignAll token)
    | none => exact follow_lift points_expressionStatement
  · exact follow_lift points_expressionStatement

/-- Loading a module takes no token, and takes back no failure. -/
def Loads (load : Token → String → Read Stmt) : Prop :=
  ∀ token name reading, (load token name reading).2.tokens = reading.tokens ∧
    reading.failures <+: (load token name reading).2.failures

variable {load : Token → String → Read Stmt}

/-- Imports stay on the course, counted from their keyword on. -/
def Course.Imports (course : Course) (load : Token → String → Read Stmt) : Prop :=
  ∀ reading token rest, reading.tokens = token :: rest → token.kind = .keyword .importWord →
    course.Ends reading (Read.importStatement load token { reading with tokens := rest })

omit h in
lemma follow_importStatement (hload : Loads load) (token : Token) :
    onward.Follow bound (Read.importStatement load token) (Read.importStatement load token) :=
  follow_read (alike_expect _ _) fun name =>
    follow_read (alike_endOfStatement _) fun _ reading _ =>
      have ⟨htokens, hfailures⟩ := hload token name.lexeme reading
      ⟨rfl, ends_onward.mpr ⟨htokens ▸ List.suffix_refl _, hfailures⟩⟩

omit h in
lemma imports_onward (hload : Loads load) : onward.Imports load :=
  fun _ token _ htokens _ =>
    (follow_behind (follow_importStatement hload token) htokens (Nat.lt_succ_self _)).2

/-- Two choices of a reader by a token are the same choice, and the readers do the same or both read
an import. -/
def Course.FollowForm (course : Course) (bound : Nat) (load : Token → String → Read Stmt)
    (token : Token) (form form' : Option (Read Stmt)) : Prop :=
  (form = none ∧ form' = none) ∨ ∃ p q, form = some p ∧ form' = some q ∧
    (course.Follow bound p q ∨ token.kind = .keyword .importWord ∧
      p = Read.importStatement load token ∧ q = p)

omit h in
lemma followForm_some (h : course.Follow bound p q) :
    course.FollowForm bound load token (some p) (some q) :=
  .inr ⟨p, q, rfl, rfl, .inl h⟩

include hs in
lemma follow_statementForm (token : Token) :
    course.FollowForm bound load token (Read.statementForm declaration statement load token)
      (Read.statementForm declaration' statement' load token) := by
  unfold Read.statementForm
  split
  case h_1 => exact followForm_some (follow_lift (points_print token))
  case h_2 => exact followForm_some (follow_lift (points_print token))
  case h_3 => exact followForm_some (follow_lift (points_giveBack token))
  case h_4 => exact followForm_some (follow_branch h token)
  case h_5 => exact followForm_some (follow_doStatement h hs token)
  case h_6 => exact followForm_some (follow_ended _ _)
  case h_7 => exact followForm_some (follow_ended _ _)
  case h_8 => exact followForm_some (follow_forLoop h token)
  case h_9 hkind => exact .inr ⟨_, _, rfl, rfl, .inr ⟨hkind, rfl, rfl⟩⟩
  case h_10 => exact followForm_some (follow_lift (points_release token))
  case h_11 => exact followForm_some (follow_defer h token)
  case h_12 => exact .inl ⟨rfl, rfl⟩

lemma follow_declarationForm (token : Token) :
    course.FollowForm bound load token (Read.declarationForm declaration token)
      (Read.declarationForm declaration' token) := by
  unfold Read.declarationForm
  split
  case h_1 => exact followForm_some (follow_lift (points_declare token _))
  case h_2 => exact followForm_some (follow_lift (points_declare token _))
  case h_3 => exact followForm_some (follow_lift (points_const token))
  case h_4 => exact followForm_some (follow_bind (follow_function h token) fun _ => follow_pure _)
  case h_5 => exact followForm_some (follow_module h token)
  case h_6 => exact followForm_some (follow_classDef h token)
  case h_7 => exact .inl ⟨rfl, rfl⟩

omit h in
lemma follow_chosen (himport : course.Imports load)
    (hpq : course.Follow bound p q ∨ token.kind = .keyword .importWord ∧
      p = Read.importStatement load token ∧ q = p) (htokens : reading.tokens = token :: rest)
    (hlt : reading.tokens.length < bound + 1) :
    p { reading with tokens := rest } = q { reading with tokens := rest } ∧
      course.Ends reading (p { reading with tokens := rest }) := by
  rcases hpq with hpq | ⟨hkind, rfl, rfl⟩
  · exact follow_behind hpq htokens hlt
  · exact ⟨rfl, himport _ token _ htokens hkind⟩

variable (himport : course.Imports load)

include hs himport

lemma follow_anyStatement :
    course.Follow (bound + 1) (Read.anyStatement declaration statement load)
      (Read.anyStatement declaration' statement' load) := by
  intro reading hlt
  have hwordless := @follow_wordless _ course reading hlt
  unfold Read.anyStatement
  split
  · exact hwordless
  · next token rest htokens =>
    rcases follow_statementForm h hs token with ⟨hnone, hnone'⟩ | ⟨p, q, hsome, hsome', hpq⟩
    · rw [hnone, hnone']
      exact hwordless
    · rw [hsome, hsome']
      exact follow_chosen himport hpq htokens hlt

lemma follow_anyDeclaration :
    course.Follow (bound + 1) (Read.anyDeclaration declaration statement load)
      (Read.anyDeclaration declaration' statement' load) := by
  intro reading hlt
  have hstatement := follow_anyStatement h hs himport reading hlt
  unfold Read.anyDeclaration
  split
  · exact hstatement
  · next token rest htokens =>
    rcases follow_declarationForm h token with ⟨hnone, hnone'⟩ | ⟨p, q, hsome, hsome', hpq⟩
    · rw [hnone, hnone']
      exact hstatement
    · rw [hsome, hsome']
      exact follow_chosen himport hpq htokens hlt

lemma advance_recovering :
    course.Advance (bound + 1) (Read.recovering declaration statement load)
      (Read.recovering declaration' statement' load) := by
  intro reading hlt
  obtain ⟨heq, hends⟩ := follow_anyDeclaration h hs himport reading hlt
  unfold Read.recovering
  split
  · exact ⟨rfl, course.refl _⟩
  · next token rest htokens =>
    split
    · exact ⟨rfl, Course.behind htokens⟩
    · rw [← heq]
      rcases hp : Read.anyDeclaration declaration statement load reading with ⟨e | found, after⟩
      all_goals rw [hp] at hends
      · exact ⟨rfl, course.recover hends⟩
      · exact ⟨rfl, hends⟩

end Nested

end Readings

section Knot

variable {declaration : Reading → Option Stmt × Reading} {statement : Read Stmt}
  {load : Token → String → Read Stmt}

/-- Declarations and statements are read by the grammar of statements, where bodies hold
declarations and statements again, and reading them goes onward. -/
structure Knot (declaration : Reading → Option Stmt × Reading) (statement : Read Stmt)
    (load : Token → String → Read Stmt) : Prop where
  loads : Loads load
  declaration_eq (reading : Reading) :
    declaration reading = Read.recovering declaration statement load reading
  declaration_onward (reading : Reading) : Onward reading (declaration reading).2
  statement_eq (reading : Reading) :
    statement reading = Read.anyStatement declaration statement load reading
  statement_onward (reading : Reading) : Onward reading (statement reading).2

/-- Inside a declaration or a statement fewer tokens are left, so the guards are never needed. -/
lemma knot_step (hload : Loads load) (reading : Reading) :
    (Read.declaration load reading =
        Read.recovering (Read.declaration load) (Read.statement load) load reading ∧
      Onward reading (Read.declaration load reading).2) ∧
    Read.statement load reading =
        Read.anyStatement (Read.declaration load) (Read.statement load) load reading ∧
      Onward reading (Read.statement load reading).2 := by
  induction hn : reading.tokens.length using Nat.strong_induction_on generalizing reading with
  | _ n ih =>
    subst hn
    have hd : onward.Advance reading.tokens.length (fun inside =>
        if inside.tokens.length < reading.tokens.length then Read.declaration load inside
        else (none, inside)) (Read.declaration load) := by
      intro inside hlt
      dsimp only
      rw [if_pos hlt]
      exact ⟨rfl, (ih _ hlt inside rfl).1.2⟩
    have hs : onward.Follow reading.tokens.length (fun inside =>
        if inside.tokens.length < reading.tokens.length then Read.statement load inside
        else (.error ⟨inside.tokens.head?, .unexpectedPrimary⟩, inside)) (Read.statement load) := by
      intro inside hlt
      dsimp only
      rw [if_pos hlt]
      exact ⟨rfl, ends_onward.mpr (ih _ hlt inside rfl).2.2⟩
    rw [Read.declaration.eq_def load reading, Read.statement.eq_def load reading]
    have himport := imports_onward hload
    obtain ⟨heq, hends⟩ := follow_anyStatement hd hs himport reading (Nat.lt_succ_self _)
    exact ⟨advance_recovering hd hs himport reading (Nat.lt_succ_self _), heq,
      ends_onward.mp hends⟩

lemma knot (hload : Loads load) : Knot (Read.declaration load) (Read.statement load) load where
  loads := hload
  declaration_eq reading := (knot_step hload reading).1.1
  declaration_onward reading := (knot_step hload reading).1.2
  statement_eq reading := (knot_step hload reading).2.1
  statement_onward reading := (knot_step hload reading).2.2

lemma wordless_takes (h : Read.wordless reading = (.ok found, after)) :
    after.tokens.length < reading.tokens.length := by
  have hfirst {reading after : Reading} {found : Stmt}
      (h : Read.lift Parse.expressionStatement reading = (.ok found, after)) :
      after.tokens.length < reading.tokens.length := by
    obtain ⟨rest, hp, rfl⟩ := lift_eq_ok.mp h
    exact expressionStatement_consumes _ _ _ hp
  obtain ⟨opens, mid, hopens, h⟩ := read_bind_eq_ok.mp h
  obtain ⟨_, hlook, rfl⟩ := lift_eq_ok.mp hopens
  cases hlook
  split at h
  · obtain ⟨opening, mid, hopening, h⟩ := read_bind_eq_ok.mp h
    cases opening with
    | none =>
      obtain ⟨_, hnone, rfl⟩ := lift_eq_ok.mp hopening
      obtain ⟨rfl, -⟩ := accept_eq_none.mp hnone
      exact hfirst h
    | some opening =>
      obtain ⟨others, hsome, rfl⟩ := lift_eq_ok.mp hopening
      obtain ⟨htokens, -⟩ := accept_eq_some.mp hsome
      obtain ⟨rest, hp, rfl⟩ := lift_eq_ok.mp h
      have hle := alike_length_le (@points_assignAll [] _ opening) (Nat.lt_succ_self _) hp
      simp only at htokens hle ⊢
      rw [htokens]
      exact Nat.lt_succ_of_le hle
  · exact hfirst h

namespace Knot

variable (h : Knot declaration statement load)

include h

lemma declaration_advances {bound : Nat} : onward.Advance bound declaration declaration :=
  fun reading _ => ⟨rfl, h.declaration_onward reading⟩

lemma statement_follows {bound : Nat} : onward.Follow bound statement statement :=
  fun reading _ => ⟨rfl, ends_onward.mpr (h.statement_onward reading)⟩

lemma anyDeclaration_onward (reading : Reading) :
    Onward reading (Read.anyDeclaration declaration statement load reading).2 :=
  ends_onward.mp (follow_anyDeclaration h.declaration_advances h.statement_follows
    (imports_onward h.loads) reading (Nat.lt_succ_self _)).2

omit h in
lemma chosen_takes (hload : Loads load)
    (hpq : onward.Follow (rest.length + 1) p q ∨ token.kind = .keyword .importWord ∧
      p = Read.importStatement load token ∧ q = p) (htokens : reading.tokens = token :: rest)
    (hp : p { reading with tokens := rest } = (.ok found, after)) :
    after.tokens.length < reading.tokens.length := by
  have hends : onward.Ends { reading with tokens := rest } (p { reading with tokens := rest }) := by
    rcases hpq with hpq | ⟨-, rfl, -⟩
    · exact (hpq _ (Nat.lt_succ_self _)).2
    · exact (follow_importStatement hload token _ (Nat.lt_succ_self _)).2
  rw [hp] at hends
  rw [htokens]
  exact Nat.lt_succ_of_le hends.length_le

lemma anyStatement_takes
    (hp : Read.anyStatement declaration statement load reading = (.ok found, after)) :
    after.tokens.length < reading.tokens.length := by
  unfold Read.anyStatement at hp
  split at hp
  · exact wordless_takes hp
  · next token rest htokens =>
    rcases follow_statementForm h.declaration_advances h.statement_follows token with
      ⟨hnone, -⟩ | ⟨form, _, hsome, -, hform⟩
    · rw [hnone] at hp
      exact wordless_takes hp
    · rw [hsome] at hp
      exact chosen_takes h.loads hform htokens hp

lemma anyDeclaration_takes
    (hp : Read.anyDeclaration declaration statement load reading = (.ok found, after)) :
    after.tokens.length < reading.tokens.length := by
  unfold Read.anyDeclaration at hp
  split at hp
  · exact h.anyStatement_takes hp
  · next token rest htokens =>
    rcases follow_declarationForm h.declaration_advances token with
      ⟨hnone, -⟩ | ⟨form, _, hsome, -, hform⟩
    · rw [hnone] at hp
      exact h.anyStatement_takes hp
    · rw [hsome] at hp
      exact chosen_takes h.loads hform htokens hp

lemma statement_takes (hp : statement reading = (.ok found, after)) :
    after.tokens.length < reading.tokens.length :=
  h.anyStatement_takes (h.statement_eq reading ▸ hp)

/-- A declaration takes a token also where it fails, since recovery drops one. -/
lemma declaration_takes (hne : reading.tokens ≠ []) :
    (declaration reading).2.tokens.length < reading.tokens.length := by
  rw [h.declaration_eq]
  unfold Read.recovering
  split
  · next hnil => exact absurd hnil hne
  · next token rest htokens =>
    split
    · simp [htokens]
    · have hon := h.anyDeclaration_onward reading
      rcases hp : Read.anyDeclaration declaration statement load reading with ⟨e | found, after⟩
      · rw [hp] at hon
        have hresume := (resume_suffix after.tokens).length_le
        have hle : after.tokens.length ≤ reading.tokens.length := hon.length_le
        have hpos : 0 < reading.tokens.length := List.length_pos_of_ne_nil hne
        simp only [List.length_tail] at hresume
        dsimp only
        omega
      · exact h.anyDeclaration_takes hp

end Knot

/-- The loops of reading as they are without the guards that make them end. -/
structure Unguarded (declaration : Reading → Option Stmt × Reading) (statement : Read Stmt) :
    Prop where
  block (ends : Kind → Bool) {reading : Reading} {token : Token} {rest : List Token}
    (htokens : reading.tokens = token :: rest) :
    Read.block declaration ends reading =
      if ends token.kind then ([], reading)
      else
        let (found, after) := declaration reading
        let (others, final) := Read.block declaration ends after
        (found.toList ++ others, final)
  caseBranches {reading : Reading} {token : Token} {rest : List Token}
    (htokens : reading.tokens = token :: rest) :
    Read.caseBranches declaration reading =
      if token.kind = .keyword .caseWord then
        (do
          let first ← Read.caseBranch declaration
          let others ← (Read.caseBranches declaration : Read (List (CaseBranch Stmt)))
          return first :: others : Read (List (CaseBranch Stmt))) { reading with tokens := rest }
      else (.ok [], reading)
  plainStatements {reading : Reading} {token : Token} {rest : List Token}
    (htokens : reading.tokens = token :: rest) :
    Read.plainStatements statement reading =
      if token.kind = .keyword .whileWord then (.ok [], reading)
      else if token.kind = .separator then
        Read.plainStatements statement { reading with tokens := rest }
      else
        (do
          let first ← statement
          let others ← (Read.plainStatements statement : Read (List Stmt))
          return first :: others : Read (List Stmt)) reading
  members {reading : Reading} {token : Token} {rest : List Token}
    (htokens : reading.tokens = token :: rest) :
    Read.members declaration reading =
      if token.kind = .keyword .endClass then (.ok ([], []), reading)
      else if token.kind = .separator then
        Read.members declaration { reading with tokens := rest }
      else if token.kind = .keyword .functionWord then
        (do
          let method ← Read.function declaration token
          let all ← (Read.members declaration : Read (List Property × List (FunctionDecl Stmt)))
          return (all.1, method :: all.2) : Read (List Property × List (FunctionDecl Stmt)))
          { reading with tokens := rest }
      else
        (do
          let property ← Read.lift Parse.property
          let all ← (Read.members declaration : Read (List Property × List (FunctionDecl Stmt)))
          return (property :: all.1, all.2) : Read (List Property × List (FunctionDecl Stmt)))
          reading

lemma Knot.unguarded (h : Knot declaration statement load) : Unguarded declaration statement where
  block ends reading token rest htokens := by
    have hne : reading.tokens ≠ [] := by simp [htokens]
    have hshort := h.declaration_takes hne
    rw [Read.block.eq_def, htokens]
    dsimp only
    rw [← htokens, if_pos hshort]
  caseBranches htokens := caseBranches_cons h.declaration_advances htokens (Nat.lt_succ_self _)
  plainStatements {reading token rest} htokens := by
    rw [Read.plainStatements.eq_def]
    split
    · next hnil => simp [hnil] at htokens
    · next first others hcons =>
      obtain ⟨rfl, rfl⟩ := List.cons.inj (hcons.symm.trans htokens)
      split
      · rfl
      · split
        · rfl
        · rcases hp : statement reading with ⟨e | found, after⟩
          · exact (read_bind_error hp).symm
          · rw [read_bind_ok hp]
            dsimp only
            rw [if_pos (h.statement_takes hp)]
            rcases hrec : Read.plainStatements statement after with ⟨e | items, final⟩
            · exact (read_bind_error hrec).symm
            · exact (read_bind_ok (f := fun items => pure (found :: items)) hrec).symm
  members {reading token rest} htokens := by
    rw [Read.members.eq_def]
    split
    · next hnil => simp [hnil] at htokens
    · next first others hcons =>
      obtain ⟨rfl, rfl⟩ := List.cons.inj (hcons.symm.trans htokens)
      split
      · rfl
      · split
        · rfl
        · split
          · have hon := (follow_function h.declaration_advances first
              { reading with tokens := others } (Nat.lt_succ_self _)).2
            rcases hp : Read.function declaration first { reading with tokens := others } with
              ⟨e | method, after⟩
            · exact (read_bind_error hp).symm
            · rw [hp] at hon
              have hshort : after.tokens.length < reading.tokens.length :=
                hcons ▸ Nat.lt_succ_of_le hon.length_le
              rw [read_bind_ok hp]
              dsimp only
              rw [if_pos hshort]
              rcases hrec : Read.members declaration after with ⟨e | all, final⟩
              · exact (read_bind_error hrec).symm
              · exact (read_bind_ok (f := fun all => pure (all.1, method :: all.2)) hrec).symm
          · rcases hp : Read.lift Parse.property reading with ⟨e | property, after⟩
            · exact (read_bind_error hp).symm
            · obtain ⟨left, hproperty, rfl⟩ := lift_eq_ok.mp hp
              have hshort : left.length < reading.tokens.length := property_consumes _ _ _ hproperty
              rw [read_bind_ok hp]
              dsimp only
              rw [if_pos hshort]
              rcases hrec : Read.members declaration { reading with tokens := left } with
                ⟨e | all, final⟩
              · exact (read_bind_error hrec).symm
              · exact (read_bind_ok (f := fun all => pure (property :: all.1, all.2)) hrec).symm

/-- Reading stays on a course, however deep blocks are nested. -/
lemma Knot.follows {course : Course} (h : Knot declaration statement load)
    (himport : course.Imports load) (bound : Nat) :
    course.Advance bound declaration declaration ∧ course.Follow bound statement statement := by
  induction bound with
  | zero =>
    exact ⟨fun _ hlt => absurd hlt (Nat.not_lt_zero _), fun _ hlt => absurd hlt (Nat.not_lt_zero _)⟩
  | succ bound ih =>
    refine ⟨fun reading hlt => ⟨rfl, ?_⟩, fun reading hlt => ⟨rfl, ?_⟩⟩
    · rw [h.declaration_eq]
      exact (advance_recovering ih.1 ih.2 himport reading hlt).2
    · rw [h.statement_eq]
      exact (follow_anyStatement ih.1 ih.2 himport reading hlt).2

lemma Knot.block_onward (h : Knot declaration statement load) (ends : Kind → Bool)
    (reading : Reading) : Onward reading (Read.block declaration ends reading).2 :=
  (advance_block h.declaration_advances ends reading (Nat.lt_succ_self _)).2

/-- A block ends at a token that ends it, or at the end of the tokens. -/
lemma Knot.block_ends (h : Knot declaration statement load) (ends : Kind → Bool)
    (reading : Reading) :
    ∀ token ∈ (Read.block declaration ends reading).2.tokens.head?, ends token.kind = true := by
  induction hn : reading.tokens.length using Nat.strong_induction_on generalizing reading with
  | _ n ih =>
    subst hn
    cases htokens : reading.tokens with
    | nil =>
      rw [Read.block.eq_def, htokens]
      simp [htokens]
    | cons token rest =>
      rw [h.unguarded.block ends htokens]
      split
      · next hends => simpa [htokens] using hends
      · exact ih _ (h.declaration_takes (by simp [htokens])) _ rfl

lemma Knot.program_takes_all (h : Knot declaration statement load) (reading : Reading) :
    (Read.block declaration (fun _ => false) reading).2.tokens = [] := by
  cases hleft : (Read.block declaration (fun _ => false) reading).2.tokens with
  | nil => rfl
  | cons token rest =>
    have hend := h.block_ends (fun _ => false) reading token (by simp [hleft])
    exact absurd hend Bool.false_ne_true

end Knot

section Imports

lemma failWithin_loads (token : Token) (name : String) (errors : List SyntaxError)
    (reading : Reading) :
    (SourceUnit.failWithin token name errors reading).2.tokens = reading.tokens ∧
      reading.failures <+: (SourceUnit.failWithin token name errors reading).2.failures := by
  induction errors generalizing reading with
  | nil => exact ⟨rfl, List.prefix_refl _⟩
  | cons e others ih =>
    cases others with
    | nil => exact ⟨rfl, List.prefix_refl _⟩
    | cons e' others =>
      obtain ⟨htokens, hfailures⟩ := ih
        { reading with failures := reading.failures ++ [⟨some token, e.within name⟩] }
      exact ⟨htokens, (List.prefix_append _ _).trans hfailures⟩

lemma onlyModule_loads (token : Token) (name : String) (unit : SourceUnit) (reading : Reading) :
    (SourceUnit.onlyModule token name unit reading).2.tokens = reading.tokens ∧
      reading.failures <+: (SourceUnit.onlyModule token name unit reading).2.failures := by
  rcases unit with ⟨statements, errors, log⟩
  cases errors with
  | nil => rcases statements with _ | ⟨statement, _ | ⟨_, _⟩⟩ <;> exact ⟨rfl, List.prefix_refl _⟩
  | cons e errors =>
    exact failWithin_loads token name (e :: errors) { reading with log := reading.log ++ log }

lemma loads_importModule (library : Library) (importing : List String)
    (parse : Option (List String → String → SourceUnit)) :
    Loads (SourceUnit.importModule library importing parse) := by
  intro token name reading
  unfold SourceUnit.importModule
  split
  · exact ⟨rfl, List.prefix_refl _⟩
  · cases library.resolve name with
    | error reason => exact ⟨rfl, List.prefix_refl _⟩
    | ok source =>
      cases parse with
      | none => exact ⟨rfl, List.prefix_refl _⟩
      | some parse => exact onlyModule_loads token name _ _

end Imports

/-- Reading any tokens, where imports are refused, ends well or with errors, at the last token.
Reading goes onward everywhere, a declaration takes at least one token wherever one is left, whether
it is good or not, and a block is read up to its end. No guard is needed for that. -/
theorem reading_takes_all_tokens (scanned : Scan) :
    let load := SourceUnit.importModule .closed [] none
    let unit := SourceUnit.ofScan load scanned
    ((∃ statements, unit.result = .ok statements) ∨ ∃ e others, unit.result = .error (e :: others)) ∧
      (∀ log, (Read.program load ⟨scanned.tokens, [], log⟩).2.tokens = []) ∧
      (∀ reading, Onward reading (Read.statement load reading).2 ∧
        Onward reading (Read.declaration load reading).2 ∧
        (reading.tokens ≠ [] →
          (Read.declaration load reading).2.tokens.length < reading.tokens.length)) ∧
      (∀ ends reading, Onward reading (Read.block (Read.declaration load) ends reading).2 ∧
        ∀ token ∈ (Read.block (Read.declaration load) ends reading).2.tokens.head?,
          ends token.kind = true) ∧
      Parse.expression = Parse.operators Parse.expression ∧
      Knot (Read.declaration load) (Read.statement load) load ∧
      Unguarded (Read.declaration load) (Read.statement load) := by
  intro load unit
  have h := knot (loads_importModule .closed [] none)
  refine ⟨?_, fun log => ?_, fun reading => ?_, fun ends reading => ?_, expression_eq, h,
    h.unguarded⟩
  · unfold SourceUnit.result
    cases unit.errors with
    | nil => exact .inl ⟨unit.statements, rfl⟩
    | cons e others => exact .inr ⟨e, others, rfl⟩
  · exact h.program_takes_all ⟨scanned.tokens, [], log⟩
  · exact ⟨h.statement_onward reading, h.declaration_onward reading, h.declaration_takes⟩
  · exact ⟨h.block_onward ends reading, h.block_ends ends reading⟩

/-- A stray `endif` and a stray parenthesis are dropped one after the other. -/
theorem stray_tokens_dropped :
    let load := SourceUnit.importModule .closed [] none
    let stray : Reading := ⟨[bare (.keyword .endIf), bare .rightParen], [], []⟩
    stray.tokens ≠ [] ∧ (Read.declaration load stray).2.tokens.length < 2 ∧
      (Read.program load stray).2.tokens = [] := by
  intro load stray
  have hne : stray.tokens ≠ [] := List.cons_ne_nil _ _
  obtain ⟨-, hall, htakes, -⟩ := reading_takes_all_tokens ⟨stray.tokens, [], .start⟩
  exact ⟨hne, (htakes stray).2.2 hne, hall []⟩

end XBase.Proofs
