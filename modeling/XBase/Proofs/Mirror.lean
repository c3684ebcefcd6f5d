import XBase.Proofs.Acceptance
import XBase.Proofs.Relocation

/-!
# Reading other tokens side by side

Two lists of tokens of the same kinds are read in the same steps, also where reading fails and
recovers. So where tokens and failures of two readings are related one by one, the results and the
reported failures are related as well. Blocks and imports are read from the start of a line.
-/

namespace XBase

/-- Causes of failures that need no look at other texts. -/
def SyntaxCause.ofGrammar : SyntaxCause → Bool
  | expected _ | unexpectedPrimary | invalidTarget | invalidRelease => true
  | _ => false

namespace Proofs

variable {whole rest tokens t : List Token} {keyword a b token' : Token}

section Places

/-- A part at the end of `whole` that starts a line there. -/
def LineStart (whole rest : List Token) : Prop :=
  ∃ before, whole = before ++ rest ∧ ∀ last ∈ before.getLast?, last.kind = .separator

/-- A part at the end of `whole` at which a statement may be read: it starts a line, or it starts
with a token at which a statement starts anywhere. -/
structure Ready (whole rest : List Token) : Prop where
  suffix : rest <:+ whole
  start : ∀ token ∈ rest.head?, startsStatement token.kind = true ∨ LineStart whole rest

/-- An import of a module that stands on a line of its own. -/
def ImportAt (whole : List Token) (keyword name : Token) : Prop :=
  ∃ before after, whole = before ++ keyword :: name :: after ∧
    keyword.kind = .keyword .importWord ∧ name.kind = .name ∧
    (∀ last ∈ before.getLast?, last.kind = .separator) ∧
    ∀ next ∈ after.head?, next.kind = .separator

lemma ready_refl (whole : List Token) : Ready whole whole :=
  ⟨List.suffix_refl _, fun _ _ => .inr ⟨[], rfl, by simp⟩⟩

lemma ready_nil (whole : List Token) : Ready whole [] :=
  ⟨List.nil_suffix, by simp⟩

lemma ready_behind {sep : Token} (h : sep :: rest <:+ whole) (hsep : sep.kind = .separator) :
    Ready whole rest := by
  refine ⟨(List.suffix_cons sep rest).trans h, fun _ _ => .inr ?_⟩
  obtain ⟨before, rfl⟩ := h
  exact ⟨before ++ [sep], by simp, by simpa using hsep⟩

lemma ready_resumeAfter {last : Token} (h : last :: rest <:+ whole) :
    Ready whole (resumeAfter last rest) := by
  induction rest generalizing last with
  | nil => exact ready_nil whole
  | cons token rest ih =>
    have hbehind := (List.suffix_cons last (token :: rest)).trans h
    rw [resumeAfter]
    split
    · next hstop =>
      rcases hstop with hsep | hstarts
      · exact ready_behind h hsep
      · exact ⟨hbehind, by simp [hstarts]⟩
    · exact ih hbehind

lemma ready_resume (h : tokens <:+ whole) : Ready whole (resume tokens) := by
  cases tokens with
  | nil => exact ready_nil whole
  | cons token rest => exact ready_resumeAfter h

lemma importAt_of_ready {after : List Token} {name : Token}
    (h : Ready whole (keyword :: name :: after)) (hkeyword : keyword.kind = .keyword .importWord)
    (hname : name.kind = .name) (hafter : ∀ next ∈ after.head?, next.kind = .separator) :
    ImportAt whole keyword name := by
  rcases h.start keyword (by simp) with hstarts | ⟨before, hwhole, hlast⟩
  · rw [hkeyword] at hstarts
    cases hstarts
  · exact ⟨before, after, hwhole, hkeyword, hname, hlast, hafter⟩

end Places

/-- How two readings that run side by side are related: the tokens at one place, the tokens that
trees hold, a failure of each, and what both have reported. Modules that `found` gives are the same
in both. -/
structure Mirror where
  place : Token → Token → Prop
  token : Token → Token → Prop
  failure : Failure → Failure → Prop
  failures : List Failure → List Failure → Prop
  found : String → Option Stmt
  replaces : Replaces place token
  failure_of_token {a b : Token} {cause : SyntaxCause} (hcause : cause.ofGrammar = true)
    (h : token a b) : failure ⟨some a, cause⟩ ⟨some b, cause⟩
  failure_of_place {a b : Option Token} {cause : SyntaxCause} (hcause : cause.ofGrammar = true)
    (h : Option.Rel place a b) : failure ⟨a, cause⟩ ⟨b, cause⟩
  report {reported reported' : List Failure} {e e' : Failure} (h : failures reported reported')
    (he : failure e e') : failures (reported ++ [e]) (reported' ++ [e'])

namespace Mirror

variable {α β : Type} (μ : Mirror)

/-- Two results: both good and related by `M`, where `left` holds of what is left to read, or both
failures. -/
inductive Gives (M : α → β → Prop) (left : List Token → Prop) :
    Except Failure α → Except Failure β → List Token → Prop
  | ok {a : α} {b : β} {rest : List Token} (h : M a b) (hleft : left rest) :
      Gives M left (.ok a) (.ok b) rest
  | error {e e' : Failure} {rest : List Token} (h : μ.failure e e') :
      Gives M left (.error e) (.error e') rest

/-- What a grammar makes of tokens, beside what another one makes of related tokens. -/
structure Beside (M : α → β → Prop) (left : List Token → Prop) (tokens : List Token)
    (x : Except Failure α × List Token) (y : Except Failure β × List Token) : Prop where
  result : μ.Gives M left x.1 y.1 x.2
  rest : List.Forall₂ μ.place x.2 y.2
  suffix : x.2 <:+ tokens

/-- From related lists below a length two grammars get related results. -/
def Echo (bound : Nat) (M : α → β → Prop) (p : Parse α) (q : Parse β) : Prop :=
  ∀ t t', t.length < bound → List.Forall₂ μ.place t t' →
    μ.Beside M (fun _ => True) t (p t) (q t')

/-- From related lists two grammars get related results, and they read to the end of a statement. -/
def EchoLine (whole : List Token) (bound : Nat) (M : α → β → Prop) (p : Parse α) (q : Parse β) :
    Prop :=
  ∀ t t', t.length < bound → t <:+ whole → List.Forall₂ μ.place t t' →
    μ.Beside M (Ready whole) t (p t) (q t')

def Like : Expr → Expr → Prop :=
  Expr.Moved μ.token

end Mirror

section Grammars

variable {α β γ δ : Type} {μ : Mirror} {whole : List Token} {bound : Nat} {M : α → β → Prop}
  {N : γ → δ → Prop}

lemma Mirror.Beside.of_suffix {left : List Token → Prop} {u : List Token}
    {x : Except Failure α × List Token} {y : Except Failure β × List Token}
    (h : μ.Beside M left t x y) (hsuffix : t <:+ u) : μ.Beside M left u x y :=
  ⟨h.result, h.rest, h.suffix.trans hsuffix⟩

lemma Mirror.Beside.ok {rest' : List Token} {a : α} {b : β} (h : M a b)
    (hrest : List.Forall₂ μ.place rest rest') (hsuffix : rest <:+ t) :
    μ.Beside M (fun _ => True) t (.ok a, rest) (.ok b, rest') :=
  ⟨.ok h trivial, hrest, hsuffix⟩

lemma Mirror.Beside.error {left : List Token → Prop} {t rest rest' : List Token}
    {a b : Option Token} {cause : SyntaxCause} (hcause : cause.ofGrammar = true)
    (h : Option.Rel μ.place a b) (hrest : List.Forall₂ μ.place rest rest') (hsuffix : rest <:+ t) :
    μ.Beside M left t (.error ⟨a, cause⟩, rest) (.error ⟨b, cause⟩, rest') :=
  ⟨.error (μ.failure_of_place hcause h), hrest, hsuffix⟩

/-- What follows a good result is read from what it leaves. -/
lemma Mirror.Beside.bind {mid left : List Token → Prop} {p : Parse α} {q : Parse β}
    {f : α → Parse γ} {g : β → Parse δ} {t t' : List Token} (h : μ.Beside M mid t (p t) (q t'))
    (hf : ∀ a b rest rest', M a b → List.Forall₂ μ.place rest rest' → rest <:+ t →
      μ.Beside N left rest (f a rest) (g b rest')) :
    μ.Beside N left t ((p >>= f) t) ((q >>= g) t') := by
  obtain ⟨hresult, hrest, hsuffix⟩ := h
  rcases hp : p t with ⟨x, rest⟩
  rcases hq : q t' with ⟨y, rest'⟩
  rw [hp, hq] at hresult hrest
  rw [hp] at hsuffix
  cases hresult with
  | ok hM _ =>
    rw [parse_bind_ok hp, parse_bind_ok hq]
    exact (hf _ _ rest rest' hM hrest hsuffix).of_suffix hsuffix
  | error he =>
    rw [parse_bind_error hp, parse_bind_error hq]
    exact ⟨.error he, hrest, hsuffix⟩

lemma echo_pure {a : α} {b : β} (h : M a b) : μ.Echo bound M (pure a) (pure b) :=
  fun _ _ _ ht => .ok h ht (List.suffix_refl _)

variable {p : Parse α} {q : Parse β}

lemma echo_bind {f : α → Parse γ} {g : β → Parse δ} (h : μ.Echo bound M p q)
    (hf : ∀ a b, M a b → μ.Echo bound N (f a) (g b)) : μ.Echo bound N (p >>= f) (q >>= g) := by
  intro t t' hlt ht
  refine (h t t' hlt ht).bind fun a b rest rest' hM hrest hsuffix => ?_
  exact hf a b hM rest rest' (hsuffix.length_le.trans_lt hlt) hrest

lemma line_bind {f : α → Parse γ} {g : β → Parse δ} (h : μ.Echo bound M p q)
    (hf : ∀ a b, M a b → μ.EchoLine whole bound N (f a) (g b)) :
    μ.EchoLine whole bound N (p >>= f) (q >>= g) := by
  intro t t' hlt hwhole ht
  refine (h t t' hlt ht).bind fun a b rest rest' hM hrest hsuffix => ?_
  exact hf a b hM rest rest' (hsuffix.length_le.trans_lt hlt) (hsuffix.trans hwhole) hrest

lemma echo_ite {p' : Parse α} {q' : Parse β} {c c' : Prop} [Decidable c] [Decidable c']
    (hc : c ↔ c') (h : μ.Echo bound M p q) (h' : μ.Echo bound M p' q') :
    μ.Echo bound M (if c then p else p') (if c' then q else q') := by
  by_cases hcond : c
  · rw [if_pos hcond, if_pos (hc.mp hcond)]
    exact h
  · rw [if_neg hcond, if_neg (mt hc.mpr hcond)]
    exact h'

lemma line_ite {p' : Parse α} {q' : Parse β} {c c' : Prop} [Decidable c] [Decidable c']
    (hc : c ↔ c') (h : μ.EchoLine whole bound M p q) (h' : μ.EchoLine whole bound M p' q') :
    μ.EchoLine whole bound M (if c then p else p') (if c' then q else q') := by
  by_cases hcond : c
  · rw [if_pos hcond, if_pos (hc.mp hcond)]
    exact h
  · rw [if_neg hcond, if_neg (mt hc.mpr hcond)]
    exact h'

lemma place_head {t' : List Token} (ht : List.Forall₂ μ.place t t') :
    Option.Rel μ.place t.head? t'.head? := by
  cases ht with
  | nil => exact .none
  | cons h _ => exact .some h

lemma echo_fail {cause : SyntaxCause} (hcause : cause.ofGrammar = true) :
    μ.Echo bound M (Parse.fail cause) (Parse.fail cause) :=
  fun _ _ _ ht => .error hcause (place_head ht) ht (List.suffix_refl _)

lemma echo_failAt {cause : SyntaxCause} (hcause : cause.ofGrammar = true) (h : μ.token a b) :
    μ.Echo bound M (Parse.failAt a cause) (Parse.failAt b cause) :=
  fun _ _ _ ht => ⟨.error (μ.failure_of_token hcause h), ht, List.suffix_refl _⟩

lemma echo_sees (kind : Kind) : μ.Echo bound Eq (Parse.sees kind) (Parse.sees kind) := by
  intro t t' _ ht
  refine .ok ?_ ht (List.suffix_refl _)
  cases ht with
  | nil => rfl
  | cons h _ => simp [μ.replaces.kind h]

lemma echo_atEnd : μ.Echo bound Eq Parse.atEnd Parse.atEnd := by
  intro t t' _ ht
  refine .ok ?_ ht (List.suffix_refl _)
  cases ht <;> rfl

lemma echo_opensBefore (next : Option Kind → Bool) :
    μ.Echo bound Eq (Parse.opensBefore next) (Parse.opensBefore next) := by
  intro t t' _ ht
  rw [opensBefore_eq, opensBefore_eq, opens_moved μ.replaces next ht]
  exact .ok rfl ht (List.suffix_refl _)

def Mirror.Taken (μ : Mirror) (kinds : Kind → Bool) (a b : Token) : Prop :=
  μ.place a b ∧ kinds a.kind = true

lemma Mirror.Taken.token {kinds : Kind → Bool} (h : μ.Taken kinds a b)
    (hkinds : kinds .separator = false) : μ.token a b := by
  refine μ.replaces.token h.1 fun hkind => ?_
  rw [← hkind, h.2] at hkinds
  cases hkinds

lemma Mirror.Taken.kind_eq {kinds : Kind → Bool} (h : μ.Taken kinds a b) : b.kind = a.kind :=
  μ.replaces.kind h.1

lemma echo_accept (kinds : Kind → Bool) :
    μ.Echo bound (Option.Rel (μ.Taken kinds)) (Parse.accept kinds) (Parse.accept kinds) := by
  intro t t' _ ht
  cases ht with
  | nil => exact .ok .none .nil (List.suffix_refl _)
  | @cons a b rest rest' h hrest =>
    simp only [Parse.accept, μ.replaces.kind h]
    split
    · next hkind => exact .ok (.some ⟨h, hkind⟩) hrest (List.suffix_cons a rest)
    · exact .ok .none (.cons h hrest) (List.suffix_refl _)

lemma echo_expect (kind : Kind) (message : String) :
    μ.Echo bound (μ.Taken (· == kind)) (Parse.expect kind message)
      (Parse.expect kind message) := by
  intro t t' _ ht
  cases ht with
  | nil => exact .error rfl .none .nil (List.suffix_refl _)
  | @cons a b rest rest' h hrest =>
    simp only [Parse.expect, μ.replaces.kind h]
    split
    · next hkind => exact .ok ⟨h, by simpa using hkind⟩ hrest (List.suffix_cons a rest)
    · exact .error rfl (.some h) (.cons h hrest) (List.suffix_refl _)

lemma line_endOfStatement (message : String) :
    μ.EchoLine whole bound Eq (Parse.endOfStatement message) (Parse.endOfStatement message) := by
  intro t t' _ hwhole ht
  cases ht with
  | nil => exact ⟨.ok rfl (ready_nil whole), .nil, List.suffix_refl _⟩
  | @cons a b rest rest' h hrest =>
    simp only [Parse.endOfStatement, μ.replaces.kind h]
    split
    · next hsep =>
      exact ⟨.ok rfl (ready_behind hwhole hsep), hrest, List.suffix_cons a rest⟩
    · exact .error rfl (.some h) (.cons h hrest) (List.suffix_refl _)

lemma separator_of_end {message : String} (h : Parse.endOfStatement message t = (.ok (), rest)) :
    ∀ next ∈ t.head?, next.kind = .separator := by
  cases t with
  | nil => simp
  | cons sep t =>
    simp only [Parse.endOfStatement] at h
    split at h
    · next hsep => simpa using hsep
    · cases h

lemma line_ended (message : String) {a : α} {b : β} (h : M a b) :
    μ.EchoLine whole bound M (do Parse.endOfStatement message; return a)
      (do Parse.endOfStatement message; return b) := by
  intro t t' hlt hwhole ht
  obtain ⟨hresult, hrest, hsuffix⟩ := line_endOfStatement message t t' hlt hwhole ht
  rcases hp : Parse.endOfStatement message t with ⟨x, rest⟩
  rcases hq : Parse.endOfStatement message t' with ⟨y, rest'⟩
  rw [hp, hq] at hresult hrest
  rw [hp] at hsuffix
  cases hresult with
  | ok _ hready =>
    rw [parse_bind_ok hp, parse_bind_ok hq]
    exact ⟨.ok h hready, hrest, hsuffix⟩
  | error he =>
    rw [parse_bind_error hp, parse_bind_error hq]
    exact ⟨.error he, hrest, hsuffix⟩

lemma echo_cons (hnil : μ.Beside M (fun _ => True) [] (p []) (q []))
    (hcons : ∀ a b rest rest', rest.length < bound → μ.place a b → List.Forall₂ μ.place rest rest' →
      μ.Beside M (fun _ => True) (a :: rest) (p (a :: rest)) (q (b :: rest'))) :
    μ.Echo (bound + 1) M p q := by
  intro t t' hlt ht
  cases ht with
  | nil => exact hnil
  | cons h hrest => exact hcons _ _ _ _ (Nat.lt_of_succ_lt_succ hlt) h hrest

lemma Mirror.Echo.behind {p : Parse α} {q : Parse β} (h : μ.Echo bound M p q) (token : Token)
    {rest rest' : List Token} (hlt : rest.length < bound)
    (hrest : List.Forall₂ μ.place rest rest') :
    μ.Beside M (fun _ => True) (token :: rest) (p rest) (q rest') :=
  (h rest rest' hlt hrest).of_suffix (List.suffix_cons token rest)

lemma Mirror.Echo.mono {less : Nat} (h : μ.Echo bound M p q) (hle : less ≤ bound) :
    μ.Echo less M p q :=
  fun t t' hlt ht => h t t' (hlt.trans_le hle) ht

section Loops

variable {L : α → α → Prop} {p : Parse α} (ha : ∀ bound, Alike [] bound p p)

include ha

lemma echo_commaTail (h : μ.Echo bound L p p) :
    μ.Echo bound (List.Forall₂ L) (Parse.commaTail p) (Parse.commaTail p) := by
  induction bound with
  | zero => exact fun _ _ hlt _ => absurd hlt (Nat.not_lt_zero _)
  | succ bound ih =>
    have hless := h.mono (Nat.le_succ bound)
    refine echo_cons ?_ fun a b rest rest' hlt hab hrest => ?_
    · simp only [Parse.commaTail]
      exact .ok .nil .nil (List.suffix_refl _)
    · have hlt' : rest'.length < bound := hrest.length_eq ▸ hlt
      rw [commaTail_cons (ha bound) a hlt, commaTail_cons (ha bound) b hlt', μ.replaces.kind hab]
      split
      · have hmore : μ.Echo bound (List.Forall₂ L) (Parse.commaList p) (Parse.commaList p) :=
          echo_bind hless fun _ _ hitem => echo_bind (ih hless) fun _ _ hitems =>
            echo_pure (.cons hitem hitems)
        exact hmore.behind a hlt hrest
      · exact .ok .nil (.cons hab hrest) (List.suffix_refl _)

lemma echo_commaList (h : μ.Echo bound L p p) :
    μ.Echo bound (List.Forall₂ L) (Parse.commaList p) (Parse.commaList p) :=
  echo_bind h fun _ _ hitem => echo_bind (echo_commaTail ha h) fun _ _ hitems =>
    echo_pure (.cons hitem hitems)

end Loops

/-- Operands of one shape, joined by operators of a kind, are of one shape. -/
def Mirror.Joins (μ : Mirror) (kind : Kind) (join : Expr → Token → Expr → Expr) : Prop :=
  ∀ {left left' right right' : Expr} {a b : Token}, μ.Like left left' → μ.Taken (· == kind) a b →
    μ.Like right right' → μ.Like (join left a right) (join left' b right')

section Levels

variable {kind : Kind} {join : Expr → Token → Expr → Expr} {p : Parse Expr}
  (ha : ∀ bound, Alike [] bound p p) (hjoin : μ.Joins kind join)

include ha hjoin

lemma echo_chain (h : μ.Echo bound μ.Like p p) {left left' : Expr} (hleft : μ.Like left left') :
    μ.Echo bound μ.Like (Parse.chain (· == kind) join p left)
      (Parse.chain (· == kind) join p left') := by
  induction bound generalizing left left' with
  | zero => exact fun _ _ hlt _ => absurd hlt (Nat.not_lt_zero _)
  | succ bound ih =>
    have hless := h.mono (Nat.le_succ bound)
    refine echo_cons ?_ fun a b rest rest' hlt hab hrest => ?_
    · simp only [Parse.chain]
      exact .ok hleft .nil (List.suffix_refl _)
    · have hlt' : rest'.length < bound := hrest.length_eq ▸ hlt
      rw [chain_cons (ha bound) left a hlt, chain_cons (ha bound) left' b hlt',
        μ.replaces.kind hab]
      split
      · next hkind =>
        have hmore := echo_bind hless fun _ _ hright =>
          ih hless (hjoin hleft ⟨hab, hkind⟩ hright)
        exact hmore.behind a hlt hrest
      · exact .ok hleft (.cons hab hrest) (List.suffix_refl _)

lemma echo_level (h : μ.Echo bound μ.Like p p) :
    μ.Echo bound μ.Like (Parse.level kind join p) (Parse.level kind join p) :=
  echo_bind h fun _ _ hleft => echo_chain ha hjoin h hleft

end Levels

section Nested

variable (h : μ.Echo bound μ.Like Parse.expression Parse.expression)

include h

lemma echo_argument : μ.Echo bound (Argument.Moved μ.token μ.Like)
    (Parse.argument Parse.expression) (Parse.argument Parse.expression) := by
  have hvalue {label label' : Option Token} (hlabel : Option.Rel μ.token label label') :
      μ.Echo bound (Argument.Moved μ.token μ.Like)
        (do return Argument.mk label (← Parse.expression))
        (do return Argument.mk label' (← Parse.expression)) :=
    echo_bind h fun _ _ hmoved => echo_pure (.mk hlabel hmoved)
  intro t t' hlt ht
  have hplain := hvalue .none t t' hlt ht
  cases ht with
  | nil => exact hplain
  | cons hab hrest =>
    cases hrest with
    | nil => exact hplain
    | @cons a' b' rest rest' hab' hrest =>
      simp only [Parse.argument, μ.replaces.kind hab, μ.replaces.kind hab']
      split
      · next hkinds =>
        have hlabel : μ.token _ _ := μ.replaces.token hab (by simp [hkinds.1])
        refine (hvalue (.some hlabel) rest rest' ?_ hrest).of_suffix
          ((List.suffix_cons _ _).trans (List.suffix_cons _ _))
        simp only [List.length_cons] at hlt
        omega
      · exact hplain

lemma echo_arguments : μ.Echo bound (List.Forall₂ (Argument.Moved μ.token μ.Like))
    (Parse.arguments Parse.expression) (Parse.arguments Parse.expression) := by
  have hclose (values values' : List (Argument Expr))
      (hvalues : List.Forall₂ (Argument.Moved μ.token μ.Like) values values') := echo_bind
    (@echo_expect μ bound .rightParen "Expect ')' after arguments.")
    fun _ _ _ => echo_pure hvalues
  refine echo_bind (echo_sees _) ?_
  rintro closed _ rfl
  refine echo_ite Iff.rfl (echo_bind (echo_pure .nil) hclose) ?_
  exact echo_bind (echo_commaList (fun _ => alike_argument alike_expression) (echo_argument h))
    hclose

lemma echo_creation {keyword' : Token} (hkeyword : μ.token keyword keyword') :
    μ.Echo bound μ.Like (Parse.creation Parse.expression keyword)
      (Parse.creation Parse.expression keyword') :=
  echo_bind (echo_expect _ _) fun _ _ _ => echo_bind (echo_expect _ _) fun _ _ hprototype =>
    echo_bind (echo_commaTail (fun _ => alike_expression) h) fun _ _ hvalues =>
    echo_bind (echo_expect _ _) fun _ _ _ =>
    echo_pure (.create hkeyword (hprototype.token rfl) hvalues)

lemma echo_grouped : μ.Echo bound μ.Like (Parse.grouped Parse.expression)
    (Parse.grouped Parse.expression) := by
  have hvalue := echo_bind h fun value value' hmoved => echo_bind
    (@echo_expect μ bound .rightParen "Expect ')' after expression.")
    fun _ _ _ => echo_pure hmoved
  refine echo_bind (echo_sees _) ?_
  rintro closed _ rfl
  exact echo_ite Iff.rfl (echo_bind (M := Eq) (echo_fail rfl) fun _ _ _ => hvalue) hvalue

lemma echo_primary : μ.Echo (bound + 1) μ.Like (Parse.primary Parse.expression)
    (Parse.primary Parse.expression) := by
  refine echo_cons ?_ fun a b rest rest' hlt hab hrest => ?_
  · exact .error rfl .none .nil (List.suffix_refl _)
  · have htoken (hkind : a.kind ≠ .separator) : μ.token a b := μ.replaces.token hab hkind
    simp only [Parse.primary, μ.replaces.kind hab]
    split
    case h_6 hkind =>
      exact .ok (.name (htoken (by simp [hkind]))) hrest (List.suffix_cons a rest)
    case h_7 hkind =>
      exact .ok (.this (htoken (by simp [hkind]))) hrest (List.suffix_cons a rest)
    case h_8 hkind =>
      have hname := echo_bind (@echo_expect μ bound .name "Expect name after '&'.")
        fun _ _ hname => echo_pure (M := μ.Like) (.substitution (hname.token rfl))
      exact hname.behind a hlt hrest
    case h_9 hkind =>
      exact (echo_creation h (htoken (by simp [hkind]))).behind a hlt hrest
    case h_10 => exact (echo_grouped h).behind a hlt hrest
    case h_11 => exact .error rfl (.some hab) (.cons hab hrest) (List.suffix_refl _)
    all_goals
      next hkind => exact .ok (.literal (htoken (by simp [hkind]))) hrest (List.suffix_cons a rest)

lemma echo_suffix? {object object' : Expr} (hobject : μ.Like object object') (hab : μ.place a b) :
    (Parse.suffix Parse.expression object a = none ∧
        Parse.suffix Parse.expression object' b = none) ∨
      ∃ apply apply', Parse.suffix Parse.expression object a = some apply ∧
        Parse.suffix Parse.expression object' b = some apply' ∧
        μ.Echo bound μ.Like apply apply' := by
  unfold Parse.suffix
  rw [μ.replaces.kind hab]
  split
  · exact .inr ⟨_, _, rfl, rfl, echo_bind (echo_expect _ _) fun _ _ hname =>
      echo_pure (.member hobject (hname.token rfl))⟩
  · next hkind =>
    exact .inr ⟨_, _, rfl, rfl, echo_bind h fun _ _ hkey =>
      echo_bind (echo_expect _ _) fun _ _ _ =>
      echo_pure (.index hobject (μ.replaces.token hab (by simp [hkind])) hkey)⟩
  · exact .inr ⟨_, _, rfl, rfl, echo_bind (echo_arguments h) fun _ _ hvalues =>
      echo_pure (.call hobject hvalues)⟩
  · exact .inl ⟨rfl, rfl⟩

omit h in
lemma suffixes_nil (nested : Parse Expr) (object : Expr) :
    Parse.suffixes nested object [] = (.ok object, []) := by
  simp only [Parse.suffixes]

lemma echo_suffixes {object object' : Expr} (hobject : μ.Like object object') :
    μ.Echo (bound + 1) μ.Like (Parse.suffixes Parse.expression object)
      (Parse.suffixes Parse.expression object') := by
  have hnil {object object' : Expr} (hobject : μ.Like object object') :
      μ.Beside μ.Like (fun _ => True) [] (Parse.suffixes Parse.expression object [])
        (Parse.suffixes Parse.expression object' []) := by
    rw [suffixes_nil Parse.expression object, suffixes_nil Parse.expression object']
    exact .ok hobject .nil (List.suffix_refl _)
  induction bound generalizing object object' with
  | zero => exact echo_cons (hnil hobject) fun _ _ _ _ hlt => absurd hlt (Nat.not_lt_zero _)
  | succ bound ih =>
    have hless {object object' : Expr} (hobject : μ.Like object object') :=
      ih (h.mono (Nat.le_succ bound)) hobject
    refine echo_cons (hnil hobject) fun a b rest rest' hlt hab hrest => ?_
    have hlt' : rest'.length < bound + 1 := hrest.length_eq ▸ hlt
    rw [suffixes_cons (@alike_expression [] _) object a hlt,
      suffixes_cons (@alike_expression [] _) object' b hlt']
    rcases echo_suffix? h hobject hab with ⟨hnone, hnone'⟩ | ⟨apply, apply', hsome, hsome', happly⟩
    · rw [hnone, hnone']
      exact .ok hobject (.cons hab hrest) (List.suffix_refl _)
    · rw [hsome, hsome']
      exact (echo_bind happly fun _ _ hmoved => hless hmoved).behind a hlt hrest

lemma echo_postfixed : μ.Echo (bound + 1) μ.Like (Parse.postfixed Parse.expression)
    (Parse.postfixed Parse.expression) :=
  echo_bind (echo_primary h) fun _ _ hobject => echo_suffixes h hobject

lemma echo_unary : μ.Echo (bound + 1) μ.Like (Parse.unary Parse.expression)
    (Parse.unary Parse.expression) := by
  intro t t' hlt ht
  induction ht with
  | nil => exact echo_postfixed h [] [] hlt .nil
  | @cons a b rest rest' hab hrest ih =>
    obtain ⟨hresult, hafter, hleft⟩ := ih ((Nat.lt_succ_self _).trans hlt)
    simp only [Parse.unary, μ.replaces.kind hab]
    split
    · next hkind =>
      have hsign : a.kind ≠ .separator := by
        rcases hkind with hkind | hkind <;> simp [hkind]
      rcases hp : Parse.unary Parse.expression rest with ⟨x, after⟩
      rcases hq : Parse.unary Parse.expression rest' with ⟨y, after'⟩
      rw [hp, hq] at hresult hafter
      rw [hp] at hleft
      replace hleft : after <:+ a :: rest := hleft.trans (List.suffix_cons a rest)
      cases hresult with
      | ok hmoved _ => exact .ok (.unary (μ.replaces.token hab hsign) hmoved) hafter hleft
      | error he => exact ⟨.error he, hafter, hleft⟩
    · exact echo_postfixed h _ _ hlt (.cons hab hrest)

lemma echo_operators : μ.Echo (bound + 1) μ.Like (Parse.operators Parse.expression)
    (Parse.operators Parse.expression) := by
  have hlogical (kind : Kind) (hkind : kind ≠ .separator) : μ.Joins kind .logical :=
    fun hleft hoperator hright =>
      .logical hleft (hoperator.token (by simpa using hkind.symm)) hright
  have hbinary (kind : Kind) (hkind : kind ≠ .separator) : μ.Joins kind .binary :=
    fun hleft hoperator hright =>
      .binary hleft (hoperator.token (by simpa using hkind.symm)) hright
  have hunary (bound : Nat) : Alike [] bound (Parse.unary Parse.expression)
      (Parse.unary Parse.expression) :=
    alike_mono (alike_unary alike_expression) (Nat.le_succ bound)
  unfold Parse.operators
  refine echo_level (fun _ => ?_) (hlogical _ (by simp)) <|
    echo_level (fun _ => ?_) (hlogical _ (by simp)) <|
    echo_level (fun _ => ?_) (hbinary _ (by simp)) <|
    echo_level (fun _ => ?_) (hbinary _ (by simp)) <|
    echo_level (fun _ => ?_) (hbinary _ (by simp)) <|
    echo_level hunary (hbinary _ (by simp)) (echo_unary h)
  · exact alike_level <| alike_level <| alike_level <| alike_level <| alike_level <| hunary _
  · exact alike_level <| alike_level <| alike_level <| alike_level <| hunary _
  · exact alike_level <| alike_level <| alike_level <| hunary _
  · exact alike_level <| alike_level <| hunary _
  · exact alike_level <| hunary _

end Nested

lemma echo_expression : μ.Echo bound μ.Like Parse.expression Parse.expression := by
  induction bound with
  | zero => exact fun _ _ hlt _ => absurd hlt (Nat.not_lt_zero _)
  | succ bound ih =>
    rw [expression_eq]
    exact echo_operators ih

/-- Only a call points at a part of it. -/
lemma moved_token {S : Token → Token → Prop} :
    ∀ {e e' : Expr}, Expr.Moved S e e' → S e.token e'.token
  | .call .., _, .call hcallee _ => (moved_token hcallee :)
  | _, _, .literal h | _, _, .name h | _, _, .this h | _, _, .substitution h => h
  | _, _, .unary h _ | _, _, .binary _ h _ | _, _, .logical _ h _ => h
  | _, _, .member _ h | _, _, .index _ h _ => h
  | _, _, .create h _ _ | _, _, .conditional h _ _ _ => h
termination_by e => sizeOf e

lemma like_token {e e' : Expr} (h : μ.Like e e') : μ.token e.token e'.token :=
  moved_token h

lemma like_isTarget {e e' : Expr} (h : μ.Like e e') : e'.isTarget = e.isTarget := by
  cases h <;> rfl

lemma echo_word (keyword : Keyword) :
    μ.Echo bound (Option.Rel (μ.Taken (· == .keyword keyword))) (Parse.word keyword)
      (Parse.word keyword) :=
  echo_accept _

lemma echo_conditional : μ.Echo bound μ.Like Parse.conditional Parse.conditional := by
  refine echo_bind echo_expression fun _ _ hconsequence => echo_bind (echo_accept _) ?_
  rintro _ _ (hkeyword | _)
  · refine echo_bind echo_expression fun _ _ hcondition => echo_bind (echo_accept _) ?_
    rintro _ _ (_ | _)
    · exact echo_bind echo_expression fun _ _ halternative =>
        echo_pure (.conditional (hkeyword.token rfl) hcondition hconsequence (.some halternative))
    · exact echo_pure (.conditional (hkeyword.token rfl) hcondition hconsequence .none)
  · exact echo_pure hconsequence

lemma echo_expressions :
    μ.Echo bound (List.Forall₂ μ.Like) Parse.expressions Parse.expressions :=
  echo_commaList (fun _ => alike_expression) echo_expression

lemma echo_target : μ.Echo bound μ.Like Parse.target Parse.target :=
  echo_bind echo_expression fun _ _ hvalue =>
    echo_ite (by rw [like_isTarget hvalue]) (echo_pure hvalue)
      (echo_failAt rfl (like_token hvalue))

def Mirror.Alter (μ : Mirror) : Stmt → Stmt → Prop :=
  Stmt.Moved μ.token μ.found

lemma line_print {token : Token} (htoken : μ.token token token') :
    μ.EchoLine whole bound μ.Alter (Parse.print token) (Parse.print token') := by
  have hend (parenthesized : Bool) (values values' : List Expr)
      (hvalues : List.Forall₂ μ.Like values values') : μ.EchoLine whole bound μ.Alter
      (printEnd token parenthesized values) (printEnd token' parenthesized values') :=
    line_ite Iff.rfl
      (line_bind (echo_expect _ _) fun _ _ _ => line_ended _ (.print htoken hvalues))
      (line_ended _ (.print htoken hvalues))
  refine line_bind (echo_opensBefore _) ?_
  rintro parenthesized _ rfl
  refine line_ite Iff.rfl (line_bind (echo_accept _) fun _ _ _ => ?_) ?_
  all_goals
    refine line_bind (echo_sees _) ?_
    rintro ended _ rfl
    refine line_bind echo_atEnd ?_
    rintro last _ rfl
    refine line_bind (echo_sees _) ?_
    rintro closed _ rfl
    exact line_ite Iff.rfl (line_bind (echo_pure .nil) (hend parenthesized))
      (line_bind echo_expressions (hend parenthesized))

lemma line_giveBack {token : Token} (htoken : μ.token token token') :
    μ.EchoLine whole bound μ.Alter (Parse.giveBack token) (Parse.giveBack token') := by
  have hend (values values' : List Expr) (hvalues : List.Forall₂ μ.Like values values') :
      μ.EchoLine whole bound μ.Alter _ _ :=
    line_ended "Expect new line after `return` statement." (.giveBack htoken hvalues)
  refine line_bind (echo_sees _) ?_
  rintro ended _ rfl
  refine line_bind echo_atEnd ?_
  rintro last _ rfl
  exact line_ite Iff.rfl (line_bind (echo_pure .nil) hend)
    (line_bind (echo_commaList (fun _ => points_conditional) echo_conditional) hend)

lemma echo_asName (message : String) :
    μ.Echo bound (Option.Rel μ.token) (Parse.asName message) (Parse.asName message) := by
  refine echo_bind (echo_word _) ?_
  rintro _ _ (_ | _)
  · exact echo_bind (echo_expect _ _) fun _ _ hname => echo_pure (.some (hname.token rfl))
  · exact echo_pure .none

lemma echo_typedName : μ.Echo bound μ.token Parse.typedName Parse.typedName :=
  echo_bind (echo_expect _ _) fun _ _ hname => echo_bind (echo_asName _) fun _ _ _ =>
    echo_pure (hname.token rfl)

lemma echo_declarator :
    μ.Echo bound (Declarator.Moved μ.token) Parse.declarator Parse.declarator := by
  refine echo_bind (echo_expect _ _) fun _ _ hname => echo_bind (echo_asName _) fun _ _ htype =>
    echo_bind (echo_accept _) ?_
  rintro _ _ (_ | _)
  · exact echo_bind echo_conditional fun _ _ hvalue =>
      echo_pure (.mk (hname.token rfl) htype (.some hvalue))
  · exact echo_pure (.mk (hname.token rfl) htype .none)

lemma line_declare {token : Token} (htoken : μ.token token token') (extent : Extent) :
    μ.EchoLine whole bound μ.Alter (Parse.declare token extent) (Parse.declare token' extent) := by
  refine line_bind (echo_accept _) ?_
  rintro _ _ (_ | _)
  · exact line_bind (echo_commaList (fun _ => points_typedName) echo_typedName)
      fun _ _ hnames => line_bind (echo_expect _ _) fun _ _ _ =>
      line_bind (echo_expect _ _) fun _ _ _ => line_bind echo_expressions
      fun _ _ hvalues => line_ended _ (.destructure htoken hnames hvalues)
  · exact line_bind (echo_commaList (fun _ => points_declarator) echo_declarator)
      fun _ _ hdeclarators => line_ended _ (.declare htoken hdeclarators)

lemma line_const {token : Token} (htoken : μ.token token token') :
    μ.EchoLine whole bound μ.Alter (Parse.const token) (Parse.const token') :=
  line_bind (echo_expect _ _) fun _ _ hname => line_bind (echo_expect _ _) fun _ _ _ =>
    line_bind echo_conditional fun _ _ hvalue =>
    line_ended _ (.const htoken (hname.token rfl) hvalue)

lemma echo_parameter : μ.Echo bound (Parameter.Moved μ.token) Parse.parameter Parse.parameter := by
  refine echo_bind (echo_expect _ _) fun _ _ hname => echo_bind (echo_asName _) fun _ _ hother =>
    echo_bind (echo_accept _) ?_
  rintro _ _ (_ | _)
  · exact echo_bind echo_expression fun _ _ hvalue =>
      echo_pure (.mk (hname.token rfl) hother (.some hvalue))
  · exact echo_pure (.mk (hname.token rfl) hother .none)

lemma echo_parameters :
    μ.Echo bound (List.Forall₂ (Parameter.Moved μ.token)) Parse.parameters Parse.parameters := by
  have hclose (all all' : List Parameter)
      (hall : List.Forall₂ (Parameter.Moved μ.token) all all') := echo_bind
    (@echo_expect μ bound .rightParen "Expect ')' after parameters.")
    fun _ _ _ => echo_pure hall
  refine echo_bind (echo_accept _) ?_
  rintro _ _ (_ | _)
  · refine echo_bind (echo_sees _) ?_
    rintro closed _ rfl
    exact echo_ite Iff.rfl (echo_bind (echo_pure .nil) hclose)
      (echo_bind (echo_commaList (fun _ => points_parameter) echo_parameter) hclose)
  · exact echo_pure .nil

lemma echo_released : μ.Echo bound μ.token Parse.released Parse.released := by
  refine echo_bind echo_expression fun value value' hvalue => ?_
  have hfail : μ.Echo bound μ.token (Parse.failAt value.token .invalidRelease)
      (Parse.failAt value'.token .invalidRelease) := echo_failAt rfl (like_token hvalue)
  cases hvalue with
  | name htoken => exact echo_pure htoken
  | _ => exact hfail

lemma line_release {token : Token} (htoken : μ.token token token') :
    μ.EchoLine whole bound μ.Alter (Parse.release token) (Parse.release token') :=
  line_bind (echo_commaList (fun _ => points_released) echo_released)
    fun _ _ htargets => line_ended _ (.release htoken htargets)

lemma line_assignAll {token : Token} (htoken : μ.token token token') :
    μ.EchoLine whole bound μ.Alter (Parse.assignAll token) (Parse.assignAll token') :=
  line_bind (echo_commaList (fun _ => points_target) echo_target) fun _ _ htargets =>
    line_bind (echo_expect _ _) fun _ _ _ => line_bind (echo_expect _ _) fun _ _ _ =>
    line_bind echo_expressions fun _ _ hvalues => line_ended _ (.assignAll htoken htargets hvalues)

lemma line_expressionStatement :
    μ.EchoLine whole bound μ.Alter Parse.expressionStatement Parse.expressionStatement := by
  refine line_bind echo_expression fun first first' hfirst => line_bind (echo_accept _) ?_
  rintro _ _ (@⟨operator, operator', hoperator⟩ | _)
  · have hvalue : μ.EchoLine whole bound μ.Alter
        (do
          let value : Expr ← Parse.expression
          Parse.endOfStatement "Expect new line after expression."
          return if operator.kind = .assign then Stmt.assign operator first value
            else .update operator first value)
        (do
          let value : Expr ← Parse.expression
          Parse.endOfStatement "Expect new line after expression."
          return if operator'.kind = .assign then Stmt.assign operator' first' value
            else .update operator' first' value) := by
      refine line_bind echo_expression fun _ _ hvalue => line_ended _ ?_
      rw [hoperator.kind_eq]
      split
      · exact .assign (hoperator.token rfl) hfirst hvalue
      · exact .update (hoperator.token rfl) hfirst hvalue
    exact line_ite (by rw [like_isTarget hfirst])
      (line_bind (M := Eq) (echo_failAt rfl (like_token hfirst)) fun _ _ _ => hvalue) hvalue
  · exact line_ended _ (.expression hfirst)

lemma line_property :
    μ.EchoLine whole bound (Property.Moved μ.token) Parse.property Parse.property :=
  line_bind (echo_expect _ _) fun _ _ hname => line_bind (echo_expect _ _) fun _ _ _ =>
    line_bind echo_expression fun _ _ hvalue => line_ended _ (.mk (hname.token rfl) hvalue)

end Grammars

section Readings

variable {α β γ δ : Type} {μ : Mirror}

/-- Two readings whose tokens and failures are related. -/
structure Mirror.Parallel (μ : Mirror) (r r' : Reading) : Prop where
  tokens : List.Forall₂ μ.place r.tokens r'.tokens
  failures : μ.failures r.failures r'.failures

/-- What a reader gives, beside what another one gives in a parallel reading; `G` speaks also of
what is left to read. -/
structure Mirror.Along (μ : Mirror) (G : γ → δ → List Token → Prop) (r : Reading) (x : γ × Reading)
    (y : δ × Reading) : Prop where
  result : G x.1 y.1 x.2.tokens
  after : μ.Parallel x.2 y.2
  left : x.2.tokens <:+ r.tokens

/-- In parallel readings with fewer tokens than `bound`, of which `start` holds, two readers give
related results. -/
def Mirror.Mirrors (μ : Mirror) (bound : Nat) (start : List Token → Prop)
    (G : γ → δ → List Token → Prop) (p : Reading → γ × Reading)
    (q : Reading → δ × Reading) : Prop :=
  ∀ r r', r.tokens.length < bound → start r.tokens → μ.Parallel r r' → μ.Along G r (p r) (q r')

variable {bound : Nat} {start mid left : List Token → Prop} {M : α → β → Prop} {N : γ → δ → Prop}
  {whole : List Token}

lemma Mirror.Parallel.behind {r r' : Reading} (h : μ.Parallel r r') {rest rest' : List Token}
    (hrest : List.Forall₂ μ.place rest rest') :
    μ.Parallel { r with tokens := rest } { r' with tokens := rest' } :=
  ⟨hrest, h.failures⟩

variable {G : γ → δ → List Token → Prop}

lemma Mirror.Along.of_suffix {r r' : Reading} {x : γ × Reading} {y : δ × Reading}
    (h : μ.Along G r x y) (hsuffix : r.tokens <:+ r'.tokens) : μ.Along G r' x y :=
  ⟨h.result, h.after, h.left.trans hsuffix⟩

lemma Mirror.Along.bind {p : Read α} {q : Read β} {f : α → Read γ} {g : β → Read δ} {r r' : Reading}
    (h : μ.Along (μ.Gives M mid) r (p r) (q r'))
    (hf : ∀ a b after after', p r = (.ok a, after) → M a b → mid after.tokens →
      μ.Parallel after after' → after.tokens <:+ r.tokens →
      μ.Along (μ.Gives N left) after (f a after) (g b after')) :
    μ.Along (μ.Gives N left) r ((p >>= f) r) ((q >>= g) r') := by
  obtain ⟨hresult, hafter, hleft⟩ := h
  rcases hp : p r with ⟨x, after⟩
  rcases hq : q r' with ⟨y, after'⟩
  rw [hp, hq] at hresult hafter
  rw [hp] at hleft
  cases hresult with
  | ok hM hmid =>
    rw [read_bind_ok hp, read_bind_ok hq]
    exact (hf _ _ after after' hp hM hmid hafter hleft).of_suffix hleft
  | error he =>
    rw [read_bind_error hp, read_bind_error hq]
    exact ⟨.error he, hafter, hleft⟩

lemma mirrors_bind {p : Read α} {q : Read β} {f : α → Read γ} {g : β → Read δ}
    (h : μ.Mirrors bound start (μ.Gives M mid) p q)
    (hf : ∀ a b, M a b → μ.Mirrors bound mid (μ.Gives N left) (f a) (g b)) :
    μ.Mirrors bound start (μ.Gives N left) (p >>= f) (q >>= g) := by
  intro r r' hlt hstart hr
  refine (h r r' hlt hstart hr).bind fun a b after after' _ hM hmid hafter hleft => ?_
  exact hf a b hM after after' (hleft.length_le.trans_lt hlt) hmid hafter

lemma mirrors_pure {a : α} {b : β} (h : M a b) :
    μ.Mirrors bound start (μ.Gives M start) (pure a : Read α) (pure b : Read β) :=
  fun _ _ _ hstart hr => ⟨.ok h hstart, hr, List.suffix_refl _⟩

lemma mirrors_ite {p p' : Read α} {q q' : Read β} {c : Prop} [Decidable c]
    (h : μ.Mirrors bound start (μ.Gives M left) p q)
    (h' : μ.Mirrors bound start (μ.Gives M left) p' q') :
    μ.Mirrors bound start (μ.Gives M left) (if c then p else p' : Read α)
      (if c then q else q' : Read β) := by
  split
  · exact h
  · exact h'

lemma Mirror.Mirrors.mono {p : Reading → γ × Reading} {q : Reading → δ × Reading} {less : Nat}
    (h : μ.Mirrors bound start G p q) (hle : less ≤ bound) : μ.Mirrors less start G p q :=
  fun r r' hlt hstart hr => h r r' (hlt.trans_le hle) hstart hr

/-- What may be read anywhere may be read at the start of a statement. -/
lemma Mirror.Mirrors.ready {p : Reading → γ × Reading} {q : Reading → δ × Reading}
    (h : μ.Mirrors bound (· <:+ whole) G p q) : μ.Mirrors bound (Ready whole) G p q :=
  fun r r' hlt hstart hr => h r r' hlt hstart.suffix hr

lemma Mirror.Mirrors.behind {G : γ → δ → List Token → Prop} {p : Reading → γ × Reading}
    {q : Reading → δ × Reading} (h : μ.Mirrors bound (· <:+ whole) G p q) {r r' : Reading}
    {token : Token} {rest rest' : List Token} (ht : r.tokens = token :: rest)
    (hlt : r.tokens.length < bound + 1) (hstart : r.tokens <:+ whole) (hr : μ.Parallel r r')
    (hrest : List.Forall₂ μ.place rest rest') :
    μ.Along G r (p { r with tokens := rest }) (q { r' with tokens := rest' }) := by
  have hbehind : rest <:+ r.tokens := ht ▸ List.suffix_cons token rest
  have hshort : rest.length < bound := by
    rw [ht] at hlt
    exact Nat.lt_of_succ_lt_succ hlt
  exact (h _ _ hshort (hbehind.trans hstart) (hr.behind hrest)).of_suffix hbehind

lemma mirrors_lift {p : Parse α} {q : Parse β} (h : μ.Echo bound M p q) :
    μ.Mirrors bound (· <:+ whole) (μ.Gives M (· <:+ whole)) (Read.lift p) (Read.lift q) := by
  intro r r' hlt hstart hr
  obtain ⟨hresult, hrest, hsuffix⟩ := h r.tokens r'.tokens hlt hr.tokens
  refine ⟨?_, hr.behind hrest, hsuffix⟩
  unfold Read.lift
  rcases hp : p r.tokens with ⟨x, rest⟩
  rcases hq : q r'.tokens with ⟨y, rest'⟩
  rw [hp, hq] at hresult
  rw [hp] at hsuffix
  cases hresult with
  | ok hM _ => exact .ok hM (hsuffix.trans hstart)
  | error he => exact .error he

lemma mirrors_line {p : Parse α} {q : Parse β} (h : μ.EchoLine whole bound M p q) :
    μ.Mirrors bound (· <:+ whole) (μ.Gives M (Ready whole)) (Read.lift p) (Read.lift q) := by
  intro r r' hlt hstart hr
  obtain ⟨hresult, hrest, hsuffix⟩ := h r.tokens r'.tokens hlt hstart hr.tokens
  exact ⟨hresult, hr.behind hrest, hsuffix⟩

lemma mirrors_read {p : Parse α} {q : Parse β} {f : α → Read γ} {g : β → Read δ}
    (h : μ.Echo bound M p q)
    (hf : ∀ a b, M a b → μ.Mirrors bound (· <:+ whole) (μ.Gives N left) (f a) (g b)) :
    μ.Mirrors bound (· <:+ whole) (μ.Gives N left) (Read.lift p >>= f) (Read.lift q >>= g) :=
  mirrors_bind (mirrors_lift h) hf

/-- Behind the end of a line a statement may be read. -/
lemma mirrors_newline (message : String) {p : Read γ} {q : Read δ}
    (h : μ.Mirrors bound (Ready whole) (μ.Gives N left) p q) :
    μ.Mirrors bound (· <:+ whole) (μ.Gives N left)
      (Read.lift (Parse.endOfStatement message) >>= fun _ => p)
      (Read.lift (Parse.endOfStatement message) >>= fun _ => q) :=
  mirrors_bind (mirrors_line (line_endOfStatement message)) fun _ _ _ => h

lemma mirrors_ended (message : String) {a : α} {b : β} (h : M a b) :
    μ.Mirrors bound (· <:+ whole) (μ.Gives M (Ready whole))
      (do Parse.endOfStatement message; return a : Read α)
      (do Parse.endOfStatement message; return b : Read β) :=
  mirrors_newline message (mirrors_pure h)

abbrev Mirror.Reads (μ : Mirror) (whole : List Token) (bound : Nat) (start : List Token → Prop)
    (p q : Read Stmt) : Prop :=
  μ.Mirrors bound start (μ.Gives μ.Alter (Ready whole)) p q

end Readings

section Statements

lemma forall₂_toList {R : Stmt → Stmt → Prop} {found found' : Option Stmt}
    (h : Option.Rel R found found') : List.Forall₂ R found.toList found'.toList := by
  cases h with
  | some hs => exact .cons hs .nil
  | none => exact .nil

variable {μ : Mirror} {bound : Nat} {whole : List Token} {start : List Token → Prop}
  {declaration declaration' : Reading → Option Stmt × Reading} {statement statement' : Read Stmt}
  {load load' : Token → String → Read Stmt}

/-- What two readers of declarations find; the next declaration can be read behind it. -/
def Mirror.Finds (μ : Mirror) (whole : List Token) (found found' : Option Stmt)
    (rest : List Token) : Prop :=
  Option.Rel μ.Alter found found' ∧ Ready whole rest

/-- Two ways of reading declarations and statements, which may load imports differently. -/
structure Knots (declaration declaration' : Reading → Option Stmt × Reading)
    (statement statement' : Read Stmt) (load load' : Token → String → Read Stmt) : Prop where
  left : Knot declaration statement load
  right : Knot declaration' statement' load'

variable (h : Knots declaration declaration' statement statement' load load')
  (hd : μ.Mirrors bound (Ready whole) (μ.Finds whole) declaration declaration')
  (hs : μ.Reads whole bound (Ready whole) statement statement')

include h hd

lemma mirrors_block (ends : Kind → Bool) :
    μ.Mirrors bound (Ready whole) (fun found found' _ => List.Forall₂ μ.Alter found found')
      (Read.block declaration ends) (Read.block declaration' ends) := by
  intro r r' hlt hstart hr
  induction hn : r.tokens.length using Nat.strong_induction_on generalizing r r' with
  | _ n ih =>
    subst hn
    have htokens := hr.tokens
    generalize ht : r.tokens = t, ht' : r'.tokens = t' at htokens
    cases htokens with
    | nil =>
      rw [Read.block.eq_def, Read.block.eq_def, ht, ht']
      exact ⟨.nil, hr, List.suffix_refl _⟩
    | @cons a b rest rest' hab hrest =>
      rw [h.left.unguarded.block ends ht, h.right.unguarded.block ends ht', μ.replaces.kind hab]
      split
      · exact ⟨.nil, hr, List.suffix_refl _⟩
      · have hshort : (declaration r).2.tokens.length < r.tokens.length :=
          h.left.declaration_takes (by simp [ht])
        obtain ⟨⟨hfound, hready⟩, hafter, hleft⟩ := hd r r' hlt hstart hr
        obtain ⟨hothers, hfinal, hleft'⟩ :=
          ih _ hshort _ _ (hshort.trans hlt) hready hafter rfl
        exact ⟨List.rel_append (forall₂_toList hfound) hothers, hfinal, hleft'.trans hleft⟩

lemma mirrors_blockUntil (words : List Keyword) :
    μ.Mirrors bound (Ready whole) (μ.Gives (List.Forall₂ μ.Alter) (· <:+ whole))
      (Read.blockUntil declaration words) (Read.blockUntil declaration' words) := by
  intro r r' hlt hstart hr
  obtain ⟨hfound, hafter, hleft⟩ :=
    mirrors_block h hd (fun kind => words.any (kind == .keyword ·)) r r' hlt hstart hr
  exact ⟨.ok hfound (hleft.trans hstart.suffix), hafter, hleft⟩

lemma mirrors_caseBranch :
    μ.Mirrors bound (· <:+ whole) (μ.Gives (CaseBranch.Moved μ.token μ.Alter) (· <:+ whole))
      (Read.caseBranch declaration) (Read.caseBranch declaration') :=
  mirrors_read echo_expressions fun _ _ hconditions => mirrors_newline _ <|
    mirrors_bind (mirrors_blockUntil h hd _) fun _ _ hbody => mirrors_pure (.mk hconditions hbody)

lemma mirrors_caseBranches :
    μ.Mirrors bound (· <:+ whole)
      (μ.Gives (List.Forall₂ (CaseBranch.Moved μ.token μ.Alter)) (· <:+ whole))
      (Read.caseBranches declaration) (Read.caseBranches declaration') := by
  induction bound with
  | zero => exact fun _ _ hlt => absurd hlt (Nat.not_lt_zero _)
  | succ bound ih =>
    intro r r' hlt hstart hr
    have hless := hd.mono (Nat.le_succ bound)
    have htokens := hr.tokens
    generalize ht : r.tokens = t, ht' : r'.tokens = t' at htokens
    cases htokens with
    | nil =>
      rw [Read.caseBranches.eq_def, Read.caseBranches.eq_def, ht, ht']
      exact ⟨.ok .nil hstart, hr, List.suffix_refl _⟩
    | @cons a b rest rest' hab hrest =>
      rw [h.left.unguarded.caseBranches ht, h.right.unguarded.caseBranches ht', μ.replaces.kind hab]
      split
      · have hmore := mirrors_bind (mirrors_caseBranch h hless) fun _ _ hfirst =>
          mirrors_bind (ih hless) fun _ _ hothers =>
          mirrors_pure (List.Forall₂.cons hfirst hothers)
        exact hmore.behind ht hlt hstart hr hrest
      · exact ⟨.ok .nil hstart, hr, List.suffix_refl _⟩

lemma mirrors_function {token : Token} (htoken : μ.token token token') :
    μ.Mirrors bound (· <:+ whole) (μ.Gives (FunctionDecl.Moved μ.token μ.Alter) (Ready whole))
      (Read.function declaration token) (Read.function declaration' token') := by
  refine mirrors_read (echo_expect _ _) fun _ _ hname =>
    mirrors_read echo_parameters fun _ _ hparameters => mirrors_newline _ <|
    mirrors_bind (mirrors_blockUntil h hd _) fun _ _ hstatements =>
    mirrors_read (echo_expect _ _) fun _ _ _ => mirrors_ended _ ?_
  obtain ⟨hbody, hdefers⟩ := deferral_moved hstatements
  exact .mk htoken (hname.token rfl) hparameters hbody hdefers

def Mirror.Members (μ : Mirror) (all all' : List Property × List (FunctionDecl Stmt)) : Prop :=
  List.Forall₂ (Property.Moved μ.token) all.1 all'.1 ∧
    List.Forall₂ (FunctionDecl.Moved μ.token μ.Alter) all.2 all'.2

lemma mirrors_members :
    μ.Mirrors bound (· <:+ whole) (μ.Gives μ.Members (· <:+ whole)) (Read.members declaration)
      (Read.members declaration') := by
  intro r r' hlt hstart hr
  induction hn : r.tokens.length using Nat.strong_induction_on generalizing r r' with
  | _ n ih =>
    subst hn
    have htokens := hr.tokens
    generalize ht : r.tokens = t, ht' : r'.tokens = t' at htokens
    cases htokens with
    | nil =>
      rw [Read.members.eq_def, Read.members.eq_def, ht, ht']
      exact ⟨.ok ⟨.nil, .nil⟩ hstart, hr, List.suffix_refl _⟩
    | @cons a b rest rest' hab hrest =>
      have hbehind : rest <:+ r.tokens := ht ▸ List.suffix_cons a rest
      have hshort : rest.length < r.tokens.length := by simp [ht]
      rw [h.left.unguarded.members ht, h.right.unguarded.members ht', μ.replaces.kind hab]
      split
      · exact ⟨.ok ⟨.nil, .nil⟩ hstart, hr, List.suffix_refl _⟩
      · split
        · exact (ih _ hshort _ _ (hshort.trans hlt) (hbehind.trans hstart) (hr.behind hrest)
            rfl).of_suffix hbehind
        · split
          · next hkind =>
            have htoken : μ.token a b := μ.replaces.token hab (by simp [hkind])
            refine Mirror.Along.of_suffix (Mirror.Along.bind (mirrors_function h hd htoken _ _
              (hshort.trans hlt) (hbehind.trans hstart) (hr.behind hrest)) ?_) hbehind
            intro method method' after after' _ hmethod hready hafter hleft
            refine Mirror.Along.bind (ih _ (hleft.length_le.trans_lt hshort) after after'
              (hleft.length_le.trans_lt (hshort.trans hlt)) hready.suffix hafter rfl) ?_
            intro all all' final final' _ hall hstart hfinal _
            exact ⟨.ok ⟨hall.1, .cons hmethod hall.2⟩ hstart, hfinal, List.suffix_refl _⟩
          · refine Mirror.Along.bind (mirrors_line line_property r r' hlt hstart hr) ?_
            intro property property' after after' hp hproperty hready hafter hleft
            obtain ⟨left, hleft', rfl⟩ := lift_eq_ok.mp hp
            have hshort : left.length < r.tokens.length := property_consumes _ _ _ hleft'
            refine Mirror.Along.bind (ih _ hshort _ after' (hshort.trans hlt) hready.suffix hafter
              rfl) ?_
            intro all all' final final' _ hall hstart hfinal _
            exact ⟨.ok ⟨.cons hproperty hall.1, hall.2⟩ hstart, hfinal, List.suffix_refl _⟩

omit h hd in
lemma plainStatements_nil {r : Reading} (ht : r.tokens = []) :
    Read.plainStatements statement r = (.ok [], r) := by
  rw [Read.plainStatements.eq_def]
  split
  · rfl
  · next htokens => simp [ht] at htokens

omit hd in
include hs in
lemma mirrors_plainStatements :
    μ.Mirrors bound (Ready whole) (μ.Gives (List.Forall₂ μ.Alter) (· <:+ whole))
      (Read.plainStatements statement) (Read.plainStatements statement') := by
  intro r r' hlt hstart hr
  induction hn : r.tokens.length using Nat.strong_induction_on generalizing r r' with
  | _ n ih =>
    subst hn
    have htokens := hr.tokens
    generalize ht : r.tokens = t, ht' : r'.tokens = t' at htokens
    cases htokens with
    | nil =>
      rw [plainStatements_nil ht, plainStatements_nil ht']
      exact ⟨.ok .nil hstart.suffix, hr, List.suffix_refl _⟩
    | @cons a b rest rest' hab hrest =>
      rw [h.left.unguarded.plainStatements ht, h.right.unguarded.plainStatements ht',
        μ.replaces.kind hab]
      split
      · exact ⟨.ok .nil hstart.suffix, hr, List.suffix_refl _⟩
      · split
        · next hsep =>
          have hbehind : rest <:+ r.tokens := ht ▸ List.suffix_cons a rest
          have hshort : rest.length < r.tokens.length := by simp [ht]
          have hready : Ready whole rest := ready_behind (ht ▸ hstart.suffix) hsep
          exact (ih _ hshort _ _ (hshort.trans hlt) hready (hr.behind hrest) rfl).of_suffix hbehind
        · refine Mirror.Along.bind (hs r r' hlt hstart hr) ?_
          intro first first' after after' hp hfirst hready hafter hleft
          have hshort := h.left.statement_takes hp
          refine Mirror.Along.bind (ih _ hshort after after' (hshort.trans hlt) hready hafter rfl)
            ?_
          intro others others' final final' _ hothers hstart hfinal _
          exact ⟨.ok (.cons hfirst hothers) hstart, hfinal, List.suffix_refl _⟩

section Forms

variable {token : Token} (htoken : μ.token token token')

include htoken

lemma mirrors_branch :
    μ.Reads whole bound (· <:+ whole) (Read.branch declaration token)
      (Read.branch declaration' token') := by
  refine mirrors_read echo_expression fun condition condition' hcondition =>
    mirrors_read (echo_word _) fun _ _ _ => mirrors_newline _ <|
    mirrors_bind (mirrors_blockUntil h hd _) fun consequence consequence' hconsequence =>
    mirrors_read (echo_word _) ?_
  have hclose (alternative alternative' : List Stmt)
      (halternative : List.Forall₂ μ.Alter alternative alternative') :
      μ.Reads whole bound (· <:+ whole) _ _ :=
    mirrors_read (echo_expect (.keyword .endIf) "Expect 'ENDIF' after if statement.")
    fun _ _ _ => mirrors_ended "Expect new line after if statement."
      (.branch htoken hcondition hconsequence halternative)
  rintro _ _ (_ | _)
  · exact mirrors_newline _ <| mirrors_bind (mirrors_blockUntil h hd _) hclose
  · exact mirrors_bind (mirrors_pure .nil) hclose

lemma mirrors_choose :
    μ.Reads whole bound (· <:+ whole) (Read.choose declaration token)
      (Read.choose declaration' token') := by
  refine mirrors_newline _ <|
    mirrors_bind (mirrors_caseBranches h hd).ready fun branches branches' hbranches =>
    mirrors_read (echo_word _) ?_
  have hclose (otherwise otherwise' : Option (List Stmt))
      (hotherwise : Option.Rel (List.Forall₂ μ.Alter) otherwise otherwise') :
      μ.Reads whole bound (· <:+ whole) _ _ :=
    mirrors_read (echo_expect (.keyword .endCase) "Expect keyword 'ENDCASE'.")
    fun _ _ _ => mirrors_ended "Expect new line at the end of `DO CASE` statement."
      (.choose htoken hbranches hotherwise)
  rintro _ _ (_ | _)
  · exact mirrors_newline _ <|
      mirrors_bind (mirrors_bind (mirrors_blockUntil h hd _) fun _ _ hbody =>
        mirrors_pure (.some hbody)) hclose
  · exact mirrors_bind (mirrors_pure .none) hclose

lemma mirrors_whileLoop :
    μ.Reads whole bound (· <:+ whole) (Read.whileLoop declaration token)
      (Read.whileLoop declaration' token') :=
  mirrors_read echo_expression fun _ _ hcondition => mirrors_newline _ <|
    mirrors_bind (mirrors_blockUntil h hd _) fun _ _ hbody =>
    mirrors_read (echo_expect _ _) fun _ _ _ => mirrors_ended _ (.whileLoop htoken hcondition hbody)

lemma mirrors_forLoop :
    μ.Reads whole bound (· <:+ whole) (Read.forLoop declaration token)
      (Read.forLoop declaration' token') := by
  refine mirrors_read (echo_expect _ _) fun counter counter' hcounter =>
    mirrors_read (echo_expect _ _) fun _ _ _ =>
    mirrors_read echo_expression fun first first' hfirst =>
    mirrors_read (echo_expect _ _) fun _ _ _ =>
    mirrors_read echo_expression fun last last' hlast =>
    mirrors_read (echo_word _) ?_
  have hbody (step step' : Option Expr) (hstep : Option.Rel μ.Like step step') :
      μ.Reads whole bound (· <:+ whole) _ _ :=
    mirrors_newline "Expect new line." <|
    mirrors_bind (mirrors_blockUntil h hd [.endFor]) fun _ _ hbody =>
    mirrors_read (echo_expect (.keyword .endFor) "Expect 'ENDFOR' after loop body.")
    fun _ _ _ => mirrors_ended "Expect new line."
      (.forLoop htoken (hcounter.token rfl) hfirst hlast hstep hbody)
  rintro _ _ (_ | _)
  · exact mirrors_read echo_expression fun _ _ hvalue =>
      mirrors_bind (mirrors_pure (.some hvalue)) hbody
  · exact mirrors_bind (mirrors_pure .none) hbody

lemma mirrors_module :
    μ.Reads whole bound (· <:+ whole) (Read.module declaration token)
      (Read.module declaration' token') :=
  mirrors_read (echo_expect _ _) fun _ _ hname => mirrors_newline _ <|
    mirrors_bind (mirrors_blockUntil h hd _) fun _ _ hbody =>
    mirrors_read (echo_expect _ _) fun _ _ _ => mirrors_ended _ (.module htoken (hname.token rfl) hbody)

lemma mirrors_classDef :
    μ.Reads whole bound (· <:+ whole) (Read.classDef declaration token)
      (Read.classDef declaration' token') :=
  mirrors_read (echo_expect _ _) fun _ _ hname =>
    mirrors_read (echo_asName _) fun _ _ hsuperclass => mirrors_newline _ <|
    mirrors_bind (mirrors_members h hd).ready fun _ _ hall =>
    mirrors_read (echo_expect _ _) fun _ _ _ =>
    mirrors_ended _ (.classDef (.mk htoken (hname.token rfl) hsuperclass hall.1 hall.2))

lemma mirrors_defer :
    μ.Reads whole bound (· <:+ whole) (Read.defer declaration token)
      (Read.defer declaration' token') :=
  mirrors_newline _ <|
    mirrors_bind (mirrors_blockUntil h hd _) fun _ _ hbody =>
    mirrors_read (echo_expect _ _) fun _ _ _ => mirrors_ended _ (.defer htoken hbody)

omit hd in
include hs in
lemma mirrors_doLoop :
    μ.Reads whole bound (· <:+ whole) (Read.doLoop statement token)
      (Read.doLoop statement' token') :=
  mirrors_newline _ <|
    mirrors_bind (mirrors_plainStatements h hs) fun _ _ hbody =>
    mirrors_read (echo_expect _ _) fun _ _ _ =>
    mirrors_read echo_expression fun _ _ hcondition => mirrors_ended _ (.doLoop htoken hbody hcondition)

include hs in
lemma mirrors_doStatement :
    μ.Reads whole bound (· <:+ whole) (Read.doStatement declaration statement token)
      (Read.doStatement declaration' statement' token') := by
  refine mirrors_read (echo_word _) ?_
  rintro _ _ (hcase | _)
  · exact mirrors_choose h hd (hcase.token rfl)
  · refine mirrors_read (echo_word _) ?_
    rintro _ _ (hloop | _)
    · exact mirrors_whileLoop h hd (hloop.token rfl)
    · exact mirrors_doLoop h hs htoken

end Forms

omit h hd in
lemma mirrors_wordless : μ.Reads whole bound (· <:+ whole) Read.wordless Read.wordless := by
  refine mirrors_read (echo_opensBefore _) ?_
  rintro opens _ rfl
  refine mirrors_ite (mirrors_read (echo_accept _) ?_) (mirrors_line line_expressionStatement)
  rintro _ _ (hopening | _)
  · exact mirrors_line (line_assignAll (hopening.token rfl))
  · exact mirrors_line line_expressionStatement

/-- Two ways of loading the modules that lines of `whole` import give related results in parallel
readings. -/
def Mirror.LoadsAlike (μ : Mirror) (whole : List Token) (load load' : Token → String → Read Stmt) :
    Prop :=
  ∀ keyword keyword' name, ImportAt whole keyword name → μ.place keyword keyword' →
    ∀ r r', μ.Parallel r r' → μ.Along (μ.Gives μ.Alter fun _ => True) r
      (load keyword name.lexeme r) (load' keyword' name.lexeme r')

/-- Loading the modules that lines of `whole` import gives related results in parallel readings. -/
def Mirror.Loading (μ : Mirror) (whole : List Token) (load : Token → String → Read Stmt) : Prop :=
  μ.LoadsAlike whole load load

/-- Two choices of a reader by a token are the same choice, and the readers give related results
behind the token. -/
def Mirror.MirrorsForm (μ : Mirror) (whole : List Token) (bound : Nat) (rest : List Token)
    (form form' : Option (Read Stmt)) : Prop :=
  (form = none ∧ form' = none) ∨ ∃ p q, form = some p ∧ form' = some q ∧
    μ.Reads whole bound (· = rest) p q

omit h hd in
lemma mirrorsForm_some (hrest : rest <:+ whole) {p q : Read Stmt}
    (hp : μ.Reads whole bound (· <:+ whole) p q) :
    μ.MirrorsForm whole bound rest (some p) (some q) :=
  .inr ⟨p, q, rfl, rfl, fun r r' hlt hstart hr => hp r r' hlt (hstart ▸ hrest) hr⟩

variable (hload : μ.LoadsAlike whole load load')

omit hd in
include hload in
lemma mirrors_importStatement {keyword' : Token} (hplace : μ.place keyword keyword')
    (hkeyword : keyword.kind = .keyword .importWord) (hready : Ready whole (keyword :: rest)) :
    μ.Reads whole bound (· = rest) (Read.importStatement load keyword)
      (Read.importStatement load' keyword') := by
  rintro r r' hlt rfl hr
  have hbehind := (List.suffix_cons keyword r.tokens).trans hready.suffix
  refine Mirror.Along.bind (mirrors_lift (echo_expect _ _) r r' hlt hbehind hr) ?_
  intro name name' after after' hp hname hsuffix hafter hleft
  obtain ⟨left, hleft', rfl⟩ := lift_eq_ok.mp hp
  obtain ⟨htokens, hkind⟩ := expect_eq_ok.mp hleft'
  refine Mirror.Along.bind (mirrors_line (line_endOfStatement _) _ _
    (hleft.length_le.trans_lt hlt) hsuffix hafter) ?_
  intro _ _ final final' hend _ hready' hfinal _
  obtain ⟨left', hend', rfl⟩ := lift_eq_ok.mp hend
  have himport : ImportAt whole keyword name :=
    importAt_of_ready (htokens ▸ hready) hkeyword hkind (separator_of_end hend')
  have hlexeme : name'.lexeme = name.lexeme := μ.replaces.lexeme hname.1 hkind
  obtain ⟨hresult, hloaded, hleft⟩ := hload keyword keyword' name himport hplace _ _ hfinal
  rw [hlexeme]
  refine ⟨?_, hloaded, hleft⟩
  have hsame := (h.left.loads keyword name.lexeme { r with tokens := left' }).1
  generalize load keyword name.lexeme { r with tokens := left' } = x,
    load' keyword' name.lexeme final' = y at hresult hsame
  rcases x with ⟨x, final⟩
  rcases y with ⟨y, final'⟩
  cases hresult with
  | ok hs _ => exact .ok hs (hsame.symm ▸ hready')
  | error he => exact .error he

include hs hload in
lemma mirrors_statementForm {token : Token} (hplace : μ.place token token')
    (hready : Ready whole (token :: rest)) :
    μ.MirrorsForm whole bound rest (Read.statementForm declaration statement load token)
      (Read.statementForm declaration' statement' load' token') := by
  have hrest := (List.suffix_cons token rest).trans hready.suffix
  have htoken (hkind : token.kind ≠ .separator) : μ.token token token' :=
    μ.replaces.token hplace hkind
  unfold Read.statementForm
  rw [μ.replaces.kind hplace]
  split
  case h_1 hkind =>
    exact mirrorsForm_some hrest (mirrors_line (line_print (htoken (by simp [hkind]))))
  case h_2 hkind =>
    exact mirrorsForm_some hrest (mirrors_line (line_print (htoken (by simp [hkind]))))
  case h_3 hkind =>
    exact mirrorsForm_some hrest (mirrors_line (line_giveBack (htoken (by simp [hkind]))))
  case h_4 hkind =>
    exact mirrorsForm_some hrest (mirrors_branch h hd (htoken (by simp [hkind])))
  case h_5 hkind =>
    exact mirrorsForm_some hrest (mirrors_doStatement h hd hs (htoken (by simp [hkind])))
  case h_6 hkind =>
    exact mirrorsForm_some hrest (mirrors_ended _ (.exit (htoken (by simp [hkind]))))
  case h_7 hkind =>
    exact mirrorsForm_some hrest (mirrors_ended _ (.loop (htoken (by simp [hkind]))))
  case h_8 hkind =>
    exact mirrorsForm_some hrest (mirrors_forLoop h hd (htoken (by simp [hkind])))
  case h_9 hkind =>
    exact .inr ⟨_, _, rfl, rfl, mirrors_importStatement h hload hplace hkind hready⟩
  case h_10 hkind =>
    exact mirrorsForm_some hrest (mirrors_line (line_release (htoken (by simp [hkind]))))
  case h_11 hkind =>
    exact mirrorsForm_some hrest (mirrors_defer h hd (htoken (by simp [hkind])))
  case h_12 => exact .inl ⟨rfl, rfl⟩

lemma mirrors_declarationForm {token : Token} (hplace : μ.place token token')
    (hready : Ready whole (token :: rest)) :
    μ.MirrorsForm whole bound rest (Read.declarationForm declaration token)
      (Read.declarationForm declaration' token') := by
  have hrest := (List.suffix_cons token rest).trans hready.suffix
  have htoken (hkind : token.kind ≠ .separator) : μ.token token token' :=
    μ.replaces.token hplace hkind
  unfold Read.declarationForm
  rw [μ.replaces.kind hplace]
  split
  case h_1 hkind =>
    exact mirrorsForm_some hrest (mirrors_line (line_declare (htoken (by simp [hkind])) _))
  case h_2 hkind =>
    exact mirrorsForm_some hrest (mirrors_line (line_declare (htoken (by simp [hkind])) _))
  case h_3 hkind =>
    exact mirrorsForm_some hrest (mirrors_line (line_const (htoken (by simp [hkind]))))
  case h_4 hkind =>
    exact mirrorsForm_some hrest (mirrors_bind (mirrors_function h hd (htoken (by simp [hkind])))
      fun _ _ hf => mirrors_pure (.function hf))
  case h_5 hkind =>
    exact mirrorsForm_some hrest (mirrors_module h hd (htoken (by simp [hkind])))
  case h_6 hkind =>
    exact mirrorsForm_some hrest (mirrors_classDef h hd (htoken (by simp [hkind])))
  case h_7 => exact .inl ⟨rfl, rfl⟩

include hs hload

lemma mirrors_anyStatement :
    μ.Reads whole (bound + 1) (Ready whole) (Read.anyStatement declaration statement load)
      (Read.anyStatement declaration' statement' load') := by
  intro r r' hlt hstart hr
  have hwordless := mirrors_wordless r r' hlt hstart.suffix hr
  have htokens := hr.tokens
  unfold Read.anyStatement
  generalize ht : r.tokens = t, ht' : r'.tokens = t' at htokens
  cases htokens with
  | nil => exact hwordless
  | @cons a b rest rest' hab hrest =>
    have hshort : rest.length < bound := by
      rw [ht] at hlt
      exact Nat.lt_of_succ_lt_succ hlt
    dsimp only
    rcases mirrors_statementForm h hd hs hload hab (ht ▸ hstart) with
      ⟨hnone, hnone'⟩ | ⟨p, q, hsome, hsome', hpq⟩
    · rw [hnone, hnone']
      exact hwordless
    · rw [hsome, hsome']
      exact (hpq _ _ hshort rfl (hr.behind hrest)).of_suffix (ht ▸ List.suffix_cons a rest)

lemma mirrors_anyDeclaration :
    μ.Reads whole (bound + 1) (Ready whole) (Read.anyDeclaration declaration statement load)
      (Read.anyDeclaration declaration' statement' load') := by
  intro r r' hlt hstart hr
  have hstatement := mirrors_anyStatement h hd hs hload r r' hlt hstart hr
  have htokens := hr.tokens
  unfold Read.anyDeclaration
  generalize ht : r.tokens = t, ht' : r'.tokens = t' at htokens
  cases htokens with
  | nil => exact hstatement
  | @cons a b rest rest' hab hrest =>
    have hshort : rest.length < bound := by
      rw [ht] at hlt
      exact Nat.lt_of_succ_lt_succ hlt
    dsimp only
    rcases mirrors_declarationForm h hd hab (ht ▸ hstart) with
      ⟨hnone, hnone'⟩ | ⟨p, q, hsome, hsome', hpq⟩
    · rw [hnone, hnone']
      exact hstatement
    · rw [hsome, hsome']
      exact (hpq _ _ hshort rfl (hr.behind hrest)).of_suffix (ht ▸ List.suffix_cons a rest)

omit h hd hs hload in
lemma forall₂_resume {t' : List Token} (ht : List.Forall₂ μ.place t t') :
    List.Forall₂ μ.place (resume t) (resume t') := by
  have hafter {t t' : List Token} (ht : List.Forall₂ μ.place t t') {last last' : Token}
      (hlast : last'.kind = last.kind) :
      List.Forall₂ μ.place (resumeAfter last t) (resumeAfter last' t') := by
    induction ht generalizing last last' with
    | nil => exact .nil
    | cons hab hrest ih =>
      simp only [resumeAfter, hlast, μ.replaces.kind hab]
      split
      · exact .cons hab hrest
      · exact ih (μ.replaces.kind hab)
  cases ht with
  | nil => exact .nil
  | cons hab hrest => exact hafter hrest (μ.replaces.kind hab)

lemma mirrors_recovering :
    μ.Mirrors (bound + 1) (Ready whole) (μ.Finds whole)
      (Read.recovering declaration statement load)
      (Read.recovering declaration' statement' load') := by
  intro r r' hlt hstart hr
  obtain ⟨hresult, hafter, hleft⟩ := mirrors_anyDeclaration h hd hs hload r r' hlt hstart hr
  have htokens := hr.tokens
  unfold Read.recovering
  generalize ht : r.tokens = t, ht' : r'.tokens = t' at htokens
  cases htokens with
  | nil => exact ⟨⟨.none, hstart⟩, hr, List.suffix_refl _⟩
  | @cons a b rest rest' hab hrest =>
    simp only [μ.replaces.kind hab]
    split
    · next hsep =>
      exact ⟨⟨.none, ready_behind (ht ▸ hstart.suffix) hsep⟩, hr.behind hrest,
        ht ▸ List.suffix_cons a rest⟩
    · generalize Read.anyDeclaration declaration statement load r = x,
        Read.anyDeclaration declaration' statement' load' r' = y at hresult hafter hleft
      rcases x with ⟨x, after⟩
      rcases y with ⟨y, after'⟩
      cases hresult with
      | ok hs hready => exact ⟨⟨.some hs, hready⟩, hafter, hleft⟩
      | error he =>
        refine ⟨⟨.none, ready_resume (hleft.trans hstart.suffix)⟩,
          ⟨forall₂_resume hafter.tokens, μ.report hafter.failures he⟩, ?_⟩
        exact ((resume_suffix after.tokens).trans (List.tail_suffix _)).trans hleft

end Statements

section Program

variable {μ : Mirror} {whole : List Token} {load load' : Token → String → Read Stmt}

/-- Declarations and statements in parallel readings, by induction on how many tokens are left. -/
lemma mirrors_declaration {declaration declaration' : Reading → Option Stmt × Reading}
    {statement statement' : Read Stmt}
    (h : Knots declaration declaration' statement statement' load load')
    (hload : μ.LoadsAlike whole load load') (bound : Nat) :
    μ.Mirrors bound (Ready whole) (μ.Finds whole) declaration declaration' ∧
      μ.Reads whole bound (Ready whole) statement statement' := by
  induction bound with
  | zero => exact ⟨fun _ _ hlt => absurd hlt (Nat.not_lt_zero _),
      fun _ _ hlt => absurd hlt (Nat.not_lt_zero _)⟩
  | succ bound ih =>
    obtain ⟨hd, hs⟩ := ih
    have hd' := mirrors_recovering h hd hs hload
    have hs' := mirrors_anyStatement h hd hs hload
    refine ⟨fun r r' hlt hstart hr => ?_, fun r r' hlt hstart hr => ?_⟩
    · rw [h.left.declaration_eq r, h.right.declaration_eq r']
      exact hd' r r' hlt hstart hr
    · rw [h.left.statement_eq r, h.right.statement_eq r']
      exact hs' r r' hlt hstart hr

/-- Two texts whose tokens are related one by one give related statements and failures, also if
they load their imports differently. -/
lemma mirrors_programs (hloads : Loads load) (hloads' : Loads load')
    (hload : μ.LoadsAlike whole load load') (ht : List.Forall₂ μ.place whole tokens)
    {reported reported' : List Failure} (hreported : μ.failures reported reported')
    (log log' : List Record) :
    List.Forall₂ μ.Alter (Read.program load ⟨whole, reported, log⟩).1
        (Read.program load' ⟨tokens, reported', log'⟩).1 ∧
      μ.failures (Read.program load ⟨whole, reported, log⟩).2.failures
        (Read.program load' ⟨tokens, reported', log'⟩).2.failures := by
  have h : Knots _ _ _ _ load load' := ⟨knot hloads, knot hloads'⟩
  obtain ⟨hstatements, hafter, -⟩ := mirrors_block h
    (mirrors_declaration h hload (whole.length + 1)).1 (fun _ => false) ⟨whole, reported, log⟩
    ⟨tokens, reported', log'⟩ (Nat.lt_succ_self _) (ready_refl whole) ⟨ht, hreported⟩
  exact ⟨hstatements, hafter.failures⟩

lemma mirrors_program (hloads : Loads load) (hload : μ.Loading whole load)
    (ht : List.Forall₂ μ.place whole tokens) {reported reported' : List Failure}
    (hreported : μ.failures reported reported') (log log' : List Record) :
    List.Forall₂ μ.Alter (Read.program load ⟨whole, reported, log⟩).1
        (Read.program load ⟨tokens, reported', log'⟩).1 ∧
      μ.failures (Read.program load ⟨whole, reported, log⟩).2.failures
        (Read.program load ⟨tokens, reported', log'⟩).2.failures :=
  mirrors_programs hloads hloads hload ht hreported log log'

end Program

section Replacement

variable {R S : Token → Token → Prop} {found : String → Option Stmt} {t t' : List Token}

lemma Closed.moved (hclosed : Closed t) (h : Replaces R S) (ht : List.Forall₂ R t t') :
    Closed t' := by
  have hkinds : t'.map Token.kind = t.map Token.kind := by
    clear hclosed
    induction ht with
    | nil => rfl
    | cons hab _ ih => rw [List.map_cons, List.map_cons, h.kind hab, ih]
  rcases hclosed with rfl | ⟨last, hlast, hkind⟩
  · exact .inl (List.forall₂_nil_left_iff.mp ht)
  · have hends : t'.getLast?.map Token.kind = some last.kind := by
      rw [← List.getLast?_map, hkinds, List.getLast?_map, hlast, Option.map_some]
    obtain ⟨last', hlast', hsame⟩ := Option.map_eq_some_iff.mp hends
    exact .inr ⟨last', hlast', hsame.trans hkind⟩

/-- The mirror of tokens in the places of others, which counts the failures only. -/
def replacingMirror (h : Replaces R S) (found : String → Option Stmt) : Mirror where
  place := R
  token := S
  failure _ _ := True
  failures reported reported' := reported.length = reported'.length
  found := found
  replaces := h
  failure_of_token _ _ := trivial
  failure_of_place _ _ := trivial
  report h _ := by simp [h]

def supply (found : String → Option Stmt) (token : Token) (name : String) : Read Stmt :=
  fun reading => ((found name).elim (.error ⟨some token, .unexpectedPrimary⟩) .ok, reading)

lemma supply_ok {name : String} {s : Stmt} {token : Token} {reading after : Reading} :
    supply found token name reading = (.ok s, after) ↔ found name = some s ∧ reading = after := by
  unfold supply
  cases found name <;> simp

lemma loads_supply : Loads (supply found) :=
  fun _ _ _ => ⟨rfl, List.prefix_refl _⟩

lemma loading_supply
    (hmodules : ∀ name s, found name = some s → ∃ token name' body, s = .module token name' body)
    (h : Replaces R S) : (replacingMirror h found).Loading t (supply found) := by
  intro keyword keyword' name _ _ r r' hr
  refine ⟨?_, hr, List.suffix_refl _⟩
  unfold supply
  cases hfound : found name.lexeme with
  | none => exact .error trivial
  | some s =>
    obtain ⟨_, _, _, rfl⟩ := hmodules _ _ hfound
    exact .ok (.imported hfound) trivial

/-- New tokens in the places of those of a program make the same program with the new tokens. -/
lemma builds_moved (h : Replaces R S)
    (hmodules : ∀ name s, found name = some s → ∃ token name' body, s = .module token name' body)
    {statements : List Stmt} (hbuilds : Builds found .block t statements)
    (ht : List.Forall₂ R t t') :
    ∃ statements', Builds found .block t' statements' ∧
      List.Forall₂ (Stmt.Moved S found) statements statements' := by
  have hclosed : Closed t' := (builds_ends hbuilds).moved h ht
  have hsupplies : Supplies (supply found) found :=
    fun _ _ hfound _ _ _ log => ⟨log, supply_ok.mpr ⟨hfound, rfl⟩⟩
  have hdelivers : Delivers (supply found) found :=
    fun _ _ _ _ _ hload => (supply_ok.mp hload).1
  obtain ⟨log, hread⟩ := block_of_builds (knot loads_supply) hsupplies hbuilds [] []
  have hreported : (replacingMirror h found).failures [] [] := rfl
  obtain ⟨hmoved, hfailures⟩ :=
    mirrors_program loads_supply (loading_supply hmodules h) ht hreported [] []
  have hprogram : Read.program (supply found) ⟨t, [], []⟩ = _ := hread
  rw [hprogram] at hmoved hfailures
  refine ⟨_, builds_of_block (knot loads_supply) hdelivers hclosed rfl ?_, hmoved⟩
  exact List.eq_nil_of_length_eq_zero hfailures.symm

end Replacement

end Proofs

end XBase
