import Mathlib.Data.List.Infix
import Mathlib.Tactic.Lemma
import XBase.Grammar.Source

/-!
# Reading goes forward

Whatever a grammar makes of a list of tokens, it leaves a part at the end of the list. So the guards
that make reading end are never needed: every reader satisfies the equation that it has without
them, and every round of a loop takes at least one token away. A grammar that fails points at the
token where it stops, at a token that it took before, or at the end of the text.
-/

namespace XBase.Proofs

section Grammars

variable {α β : Type} {taken : List Token} {bound : Nat}

/-- What a grammar makes of some tokens leaves a part at their end. If it is a failure, it stands at
the next token or the end of the text, or at a token that was read, now or among those `taken`
before. -/
def PointsTo (taken tokens : List Token) (result : Except Failure α × List Token) : Prop :=
  ∃ used, tokens = used ++ result.2 ∧ ∀ e, result.1 = .error e →
    e.place = result.2.head? ∨ ∃ token ∈ taken ++ used, e.place = some token

variable {tokens rest : List Token} {join : Expr → Token → Expr → Expr} {p q : Parse Expr}

lemma pointsTo_ok (a : α) (h : rest <:+ tokens) : PointsTo taken tokens (.ok a, rest) := by
  obtain ⟨used, rfl⟩ := h
  exact ⟨used, rfl, fun e he => nomatch he⟩

lemma pointsTo_next (tokens : List Token) (cause : SyntaxCause) :
    PointsTo taken tokens ((.error ⟨tokens.head?, cause⟩, tokens) : Except Failure α × List Token) := by
  refine ⟨[], rfl, ?_⟩
  intro e he
  cases he
  exact .inl rfl

lemma PointsTo.after {earlier used : List Token} {result : Except Failure α × List Token}
    (h : PointsTo earlier rest result) (hearlier : earlier ⊆ taken ++ used) :
    PointsTo taken (used ++ rest) result := by
  obtain ⟨more, rfl, herror⟩ := h
  refine ⟨used ++ more, (List.append_assoc _ _ _).symm, ?_⟩
  intro e he
  rcases herror e he with hnext | ⟨token, htoken, hplace⟩
  · exact .inl hnext
  · refine .inr ⟨token, ?_, hplace⟩
    rw [← List.append_assoc]
    rcases List.mem_append.mp htoken with htaken | hmore
    · exact List.mem_append_left _ (hearlier htaken)
    · exact List.mem_append_right _ hmore

lemma PointsTo.behind {token : Token} {rest : List Token} {result : Except Failure α × List Token}
    (h : PointsTo taken rest result) : PointsTo taken (token :: rest) result := by
  have hafter : PointsTo taken ([token] ++ rest) result := h.after (List.subset_append_left _ _)
  exact hafter

lemma PointsTo.error {tokens rest : List Token} {e : Failure}
    (h : PointsTo taken tokens ((.error e, rest) : Except Failure α × List Token)) :
    PointsTo taken tokens ((.error e, rest) : Except Failure β × List Token) := by
  obtain ⟨used, hused, herror⟩ := h
  refine ⟨used, hused, ?_⟩
  intro e' he
  cases he
  exact herror e rfl

/-- On lists below a length two grammars do the same, and they point to what they read. -/
def Alike (taken : List Token) (bound : Nat) (p q : Parse α) : Prop :=
  ∀ tokens, tokens.length < bound → p tokens = q tokens ∧ PointsTo taken tokens (p tokens)

lemma parse_bind_ok {p : Parse α} {f : α → Parse β} {a : α} (h : p tokens = (.ok a, rest)) :
    (p >>= f) tokens = f a rest := by
  simp only [bind, h]

lemma parse_then {p : Parse α} {f : α → Parse β} {a : α} {result : Except Failure β × List Token}
    (h : p tokens = (.ok a, rest)) (hf : f a rest = result) : (p >>= f) tokens = result :=
  (parse_bind_ok h).trans hf

lemma parse_bind_error {p : Parse α} {f : α → Parse β} {e : Failure}
    (h : p tokens = (.error e, rest)) : (p >>= f) tokens = (.error e, rest) := by
  simp only [bind, h]

lemma alike_bind {p q : Parse α} {f g : α → Parse β} (h : Alike taken bound p q)
    (hf : ∀ a, Alike taken bound (f a) (g a)) : Alike taken bound (p >>= f) (q >>= g) := by
  intro tokens hlt
  obtain ⟨heq, hfirst⟩ := h tokens hlt
  rcases hp : p tokens with ⟨e | a, rest⟩
  · rw [hp] at hfirst
    rw [parse_bind_error hp, parse_bind_error (heq ▸ hp)]
    exact ⟨rfl, hfirst.error⟩
  · rw [hp] at hfirst
    obtain ⟨used, rfl, -⟩ := hfirst
    have hrest : rest.length < bound := (List.suffix_append used rest).length_le.trans_lt hlt
    rw [parse_bind_ok hp, parse_bind_ok (heq ▸ hp)]
    obtain ⟨hsame, hpoints⟩ := hf a rest hrest
    exact ⟨hsame, hpoints.after (List.subset_append_left _ _)⟩

lemma alike_ite {p p' q q' : Parse α} {c : Prop} [Decidable c] (h : Alike taken bound p q)
    (h' : Alike taken bound p' q') : Alike taken bound (if c then p else p') (if c then q else q') := by
  split
  · exact h
  · exact h'

lemma alike_pure (a : α) : Alike taken bound (pure a) (pure a) :=
  fun tokens _ => ⟨rfl, pointsTo_ok a (List.suffix_refl tokens)⟩

lemma alike_fail (cause : SyntaxCause) :
    Alike taken bound (Parse.fail cause : Parse α) (Parse.fail cause) :=
  fun tokens _ => ⟨rfl, pointsTo_next tokens cause⟩

lemma alike_failAt {token : Token} (h : token ∈ taken) (cause : SyntaxCause) :
    Alike taken bound (Parse.failAt token cause : Parse α) (Parse.failAt token cause) := by
  intro tokens _
  refine ⟨rfl, [], rfl, ?_⟩
  intro e he
  cases he
  exact .inr ⟨token, by simpa using h, rfl⟩

lemma alike_sees (kind : Kind) : Alike taken bound (Parse.sees kind) (Parse.sees kind) :=
  fun tokens _ => ⟨rfl, pointsTo_ok _ (List.suffix_refl tokens)⟩

lemma alike_atEnd : Alike taken bound Parse.atEnd Parse.atEnd :=
  fun tokens _ => ⟨rfl, pointsTo_ok _ (List.suffix_refl tokens)⟩

lemma alike_opensBefore (next : Option Kind → Bool) :
    Alike taken bound (Parse.opensBefore next) (Parse.opensBefore next) :=
  fun tokens _ => ⟨rfl, pointsTo_ok _ (List.suffix_refl tokens)⟩

lemma alike_accept (kinds : Kind → Bool) :
    Alike taken bound (Parse.accept kinds) (Parse.accept kinds) := by
  intro tokens _
  refine ⟨rfl, ?_⟩
  fun_cases Parse.accept kinds tokens with
  | case1 => exact pointsTo_ok _ (List.suffix_refl _)
  | case2 token rest h => exact pointsTo_ok _ (List.suffix_cons token rest)
  | case3 token rest h => exact pointsTo_ok _ (List.suffix_refl _)

lemma alike_word (keyword : Keyword) :
    Alike taken bound (Parse.word keyword) (Parse.word keyword) :=
  alike_accept _

lemma alike_expect (kind : Kind) (message : String) :
    Alike taken bound (Parse.expect kind message) (Parse.expect kind message) := by
  intro tokens _
  refine ⟨rfl, ?_⟩
  fun_cases Parse.expect kind message tokens with
  | case1 => exact pointsTo_next [] _
  | case2 token rest h => exact pointsTo_ok _ (List.suffix_cons token rest)
  | case3 token rest h => exact pointsTo_next (token :: rest) _

lemma alike_endOfStatement (message : String) :
    Alike taken bound (Parse.endOfStatement message) (Parse.endOfStatement message) := by
  intro tokens _
  refine ⟨rfl, ?_⟩
  fun_cases Parse.endOfStatement message tokens with
  | case1 => exact pointsTo_ok _ (List.suffix_refl _)
  | case2 token rest h => exact pointsTo_ok _ (List.suffix_cons token rest)
  | case3 token rest h => exact pointsTo_next (token :: rest) _

lemma alike_ended (message : String) (a : α) :
    Alike taken bound (do Parse.endOfStatement message; return a)
      (do Parse.endOfStatement message; return a) :=
  alike_bind (alike_endOfStatement message) fun _ => alike_pure a

lemma alike_cons {p q : Parse α} (hnil : p [] = q [] ∧ PointsTo taken [] (p []))
    (hcons : ∀ token rest, rest.length < bound →
      p (token :: rest) = q (token :: rest) ∧ PointsTo taken (token :: rest) (p (token :: rest))) :
    Alike taken (bound + 1) p q := by
  intro tokens hlt
  cases tokens with
  | nil => exact hnil
  | cons token rest => exact hcons token rest (Nat.lt_of_succ_lt_succ hlt)

lemma alike_nil {p q : Parse α} (a : α) (hp : p [] = (.ok a, [])) (hq : q [] = (.ok a, [])) :
    p [] = q [] ∧ PointsTo taken [] (p []) := by
  rw [hp, hq]
  exact ⟨rfl, pointsTo_ok a (List.suffix_refl [])⟩

lemma alike_behind {p q : Parse α} (h : Alike taken bound p q) (token : Token)
    (hlt : rest.length < bound) : p rest = q rest ∧ PointsTo taken (token :: rest) (p rest) :=
  ⟨(h rest hlt).1, (h rest hlt).2.behind⟩

lemma alike_symm {p q : Parse α} (h : Alike taken bound p q) : Alike taken bound q p := by
  intro tokens hlt
  obtain ⟨heq, hpoints⟩ := h tokens hlt
  exact ⟨heq.symm, heq ▸ hpoints⟩

lemma alike_mono {p q : Parse α} {less : Nat} (h : Alike taken bound p q) (hle : less ≤ bound) :
    Alike taken less p q :=
  fun tokens hlt => h tokens (hlt.trans_le hle)

lemma alike_left {p q : Parse α} (h : Alike taken bound p q) {result : Except Failure α}
    (hlt : tokens.length < bound) (hp : p tokens = (result, rest)) : rest <:+ tokens := by
  obtain ⟨used, hused, -⟩ := (h tokens hlt).2
  rw [hp] at hused
  exact ⟨used, hused.symm⟩

lemma alike_length_le {p q : Parse α} (h : Alike taken bound p q) {result : Except Failure α}
    (hlt : tokens.length < bound) (hp : p tokens = (result, rest)) : rest.length ≤ tokens.length :=
  (alike_left h hlt hp).length_le

lemma commaTail_cons {p q : Parse α} (h : Alike taken bound p q) (comma : Token)
    (hlt : rest.length < bound) :
    Parse.commaTail p (comma :: rest) =
      if comma.kind = .comma then Parse.commaList p rest else (.ok [], comma :: rest) := by
  rw [Parse.commaTail.eq_def, Parse.commaList]
  dsimp only
  split
  · rcases hp : p rest with ⟨e | a, after⟩
    · rw [parse_bind_error hp]
    · rw [parse_bind_ok hp]
      dsimp only
      rw [if_pos (alike_length_le h hlt hp)]
      rcases hrec : Parse.commaTail p after with ⟨e | items, final⟩
      · rw [parse_bind_error hrec]
      · rw [parse_bind_ok hrec]
        rfl
  · rfl

lemma alike_commaTail {p q : Parse α} (h : Alike taken bound p q) :
    Alike taken bound (Parse.commaTail p) (Parse.commaTail q) := by
  induction bound with
  | zero => exact fun _ hlt => absurd hlt (Nat.not_lt_zero _)
  | succ bound ih =>
    have hless := alike_mono h (Nat.le_succ bound)
    refine alike_cons (alike_nil [] (by simp [Parse.commaTail]) (by simp [Parse.commaTail]))
      fun comma rest hlt => ?_
    rw [commaTail_cons hless comma hlt, commaTail_cons (alike_symm hless) comma hlt]
    split
    · exact alike_behind (alike_bind hless fun _ => alike_bind (ih hless) fun _ => alike_pure _)
        comma hlt
    · exact ⟨rfl, pointsTo_ok _ (List.suffix_refl _)⟩

lemma alike_commaList {p q : Parse α} (h : Alike taken bound p q) :
    Alike taken bound (Parse.commaList p) (Parse.commaList q) :=
  alike_bind h fun _ => alike_bind (alike_commaTail h) fun _ => alike_pure _

lemma chain_cons {operators : Kind → Bool} (h : Alike taken bound p q) (left : Expr)
    (operator : Token) (hlt : rest.length < bound) :
    Parse.chain operators join p left (operator :: rest) =
      if operators operator.kind then
        (p >>= fun right => Parse.chain operators join p (join left operator right) :
          Parse Expr) rest
      else (.ok left, operator :: rest) := by
  rw [Parse.chain.eq_def]
  dsimp only
  split
  · rcases hp : p rest with ⟨e | right, after⟩
    · exact (parse_bind_error hp).symm
    · exact (if_pos (alike_length_le h hlt hp)).trans
        (parse_bind_ok (f := fun right => Parse.chain operators join p (join left operator right))
          hp).symm
  · rfl

lemma alike_chain {operators : Kind → Bool} (h : Alike taken bound p q) (left : Expr) :
    Alike taken bound (Parse.chain operators join p left) (Parse.chain operators join q left) := by
  induction bound generalizing left with
  | zero => exact fun _ hlt => absurd hlt (Nat.not_lt_zero _)
  | succ bound ih =>
    have hless := alike_mono h (Nat.le_succ bound)
    refine alike_cons (alike_nil left (by simp [Parse.chain]) (by simp [Parse.chain]))
      fun operator rest hlt => ?_
    rw [chain_cons hless left operator hlt, chain_cons (alike_symm hless) left operator hlt]
    split
    · exact alike_behind (alike_bind hless fun _ => ih hless _) operator hlt
    · exact ⟨rfl, pointsTo_ok _ (List.suffix_refl _)⟩

lemma alike_level {kind : Kind} (h : Alike taken bound p q) :
    Alike taken bound (Parse.level kind join p) (Parse.level kind join q) :=
  alike_bind h fun left => alike_chain h left

section Nested

variable {nested nested' : Parse Expr}

variable (h : Alike taken bound nested nested')

include h

lemma alike_argument : Alike taken bound (Parse.argument nested) (Parse.argument nested') := by
  have hvalue (label : Option Token) : Alike taken bound (do return Argument.mk label (← nested))
      (do return Argument.mk label (← nested')) := alike_bind h fun _ => alike_pure _
  intro tokens hlt
  unfold Parse.argument
  split
  · next label colon rest =>
    split
    · have hrest : rest.length < bound := by
        simp only [List.length_cons] at hlt
        omega
      obtain ⟨heq, hpoints⟩ := hvalue (some label) rest hrest
      exact ⟨heq, hpoints.behind.behind⟩
    · exact hvalue none _ hlt
  · exact hvalue none _ hlt

lemma alike_arguments : Alike taken bound (Parse.arguments nested) (Parse.arguments nested') := by
  have hclose (values : List (Argument Expr)) := alike_bind
    (@alike_expect taken bound .rightParen "Expect ')' after arguments.")
    fun _ => alike_pure values
  refine alike_bind (alike_sees _) fun closed => alike_ite ?_ ?_
  · exact alike_bind (alike_pure _) hclose
  · exact alike_bind (alike_commaList (alike_argument h)) hclose

lemma alike_creation (keyword : Token) :
    Alike taken bound (Parse.creation nested keyword) (Parse.creation nested' keyword) :=
  alike_bind (alike_expect _ _) fun _ => alike_bind (alike_expect _ _) fun _ =>
    alike_bind (alike_commaTail h) fun _ => alike_bind (alike_expect _ _) fun _ => alike_pure _

lemma alike_grouped : Alike taken bound (Parse.grouped nested) (Parse.grouped nested') := by
  have hvalue := alike_bind h fun value => alike_bind
    (@alike_expect taken bound .rightParen "Expect ')' after expression.")
    fun _ => alike_pure value
  exact alike_bind (alike_sees _) fun closed =>
    alike_ite (alike_bind (alike_fail _) fun _ => hvalue) hvalue

lemma alike_primary : Alike taken (bound + 1) (Parse.primary nested) (Parse.primary nested') := by
  refine alike_cons ⟨rfl, pointsTo_next [] _⟩ fun token rest hlt => ?_
  simp only [Parse.primary]
  split
  case h_8 =>
    exact alike_behind (alike_bind (alike_expect _ _) fun _ => alike_pure _) token hlt
  case h_9 => exact alike_behind (alike_creation h token) token hlt
  case h_10 => exact alike_behind (alike_grouped h) token hlt
  case h_11 => exact ⟨rfl, pointsTo_next (token :: rest) _⟩
  all_goals exact ⟨rfl, pointsTo_ok _ (List.suffix_cons token rest)⟩

lemma alike_suffix? (object : Expr) (first : Token) :
    (Parse.suffix nested object first = none ∧ Parse.suffix nested' object first = none) ∨
      ∃ apply apply', Parse.suffix nested object first = some apply ∧
        Parse.suffix nested' object first = some apply' ∧ Alike taken bound apply apply' := by
  unfold Parse.suffix
  split
  · exact .inr ⟨_, _, rfl, rfl, alike_bind (alike_expect _ _) fun _ => alike_pure _⟩
  · exact .inr ⟨_, _, rfl, rfl, alike_bind h fun _ =>
      alike_bind (alike_expect _ _) fun _ => alike_pure _⟩
  · exact .inr ⟨_, _, rfl, rfl, alike_bind (alike_arguments h) fun _ => alike_pure _⟩
  · exact .inl ⟨rfl, rfl⟩

lemma suffixes_cons (object : Expr) (first : Token) (hlt : rest.length < bound) :
    Parse.suffixes nested object (first :: rest) =
      match Parse.suffix nested object first with
      | none => (.ok object, first :: rest)
      | some apply => (apply >>= Parse.suffixes nested : Parse Expr) rest := by
  rw [Parse.suffixes.eq_def]
  dsimp only
  rcases alike_suffix? h object first with ⟨hnone, -⟩ | ⟨apply, apply', hsome, -, ha⟩
  · rw [hnone]
  · rw [hsome]
    dsimp only
    rcases hp : apply rest with ⟨e | longer, after⟩
    · exact (parse_bind_error hp).symm
    · exact (if_pos (alike_length_le ha hlt hp)).trans (parse_bind_ok hp).symm

lemma alike_suffixes (object : Expr) :
    Alike taken (bound + 1) (Parse.suffixes nested object) (Parse.suffixes nested' object) := by
  have hnil (object : Expr) : Parse.suffixes nested object [] = Parse.suffixes nested' object [] ∧
      PointsTo taken [] (Parse.suffixes nested object []) :=
    alike_nil object (by simp [Parse.suffixes]) (by simp [Parse.suffixes])
  induction bound generalizing object with
  | zero => exact alike_cons (hnil object) fun _ _ hlt => absurd hlt (Nat.not_lt_zero _)
  | succ bound ih =>
    have hless := ih (alike_mono h (Nat.le_succ bound))
    refine alike_cons (hnil object) fun first rest hlt => ?_
    rw [suffixes_cons h object first hlt, suffixes_cons (alike_symm h) object first hlt]
    rcases alike_suffix? h object first with ⟨hnone, hnone'⟩ | ⟨apply, apply', hsome, hsome', ha⟩
    · rw [hnone, hnone']
      exact ⟨rfl, pointsTo_ok _ (List.suffix_refl _)⟩
    · rw [hsome, hsome']
      exact alike_behind (alike_bind ha hless) first hlt

lemma alike_postfixed :
    Alike taken (bound + 1) (Parse.postfixed nested) (Parse.postfixed nested') :=
  alike_bind (alike_primary h) fun object => alike_suffixes h object

lemma alike_unary : Alike taken (bound + 1) (Parse.unary nested) (Parse.unary nested') := by
  intro tokens hlt
  induction tokens with
  | nil => exact alike_postfixed h [] hlt
  | cons operator rest ih =>
    obtain ⟨heq, hrest⟩ := ih ((Nat.lt_succ_self _).trans hlt)
    simp only [Parse.unary]
    split
    · rw [← heq]
      rcases hp : Parse.unary nested rest with ⟨e | right, after⟩
      all_goals rw [hp] at hrest
      · exact ⟨rfl, hrest.behind⟩
      · obtain ⟨used, rfl, -⟩ := hrest
        exact ⟨rfl, pointsTo_ok _ ((List.suffix_append used after).trans (List.suffix_cons operator _))⟩
    · exact alike_postfixed h _ hlt

lemma alike_operators :
    Alike taken (bound + 1) (Parse.operators nested) (Parse.operators nested') :=
  alike_level <| alike_level <| alike_level <| alike_level <| alike_level <| alike_level <|
    alike_unary h

end Nested

/-- An expression is read by the levels of operators, where brackets hold expressions again. -/
lemma expression_spec (tokens : List Token) :
    Parse.expression tokens = Parse.operators Parse.expression tokens ∧
      PointsTo taken tokens (Parse.expression tokens) := by
  induction hn : tokens.length using Nat.strong_induction_on generalizing tokens with
  | _ n ih =>
    subst hn
    rw [Parse.expression.eq_def tokens]
    refine @alike_operators taken tokens.length _ _ ?_ tokens (Nat.lt_succ_self _)
    intro inside hlt
    dsimp only
    rw [if_pos hlt]
    exact ⟨rfl, (ih inside.length hlt inside rfl).2⟩

lemma expression_eq : Parse.expression = Parse.operators Parse.expression :=
  funext fun tokens => (@expression_spec [] tokens).1

lemma alike_expression : Alike taken bound Parse.expression Parse.expression :=
  fun tokens _ => ⟨rfl, (expression_spec tokens).2⟩

end Grammars

end XBase.Proofs
