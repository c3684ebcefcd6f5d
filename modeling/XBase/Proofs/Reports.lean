import XBase.Proofs.Chunks
import XBase.Proofs.Cycles
import XBase.Proofs.Places

/-!
# Errors come in source order

The errors of a text are those of its scan and then those of its grammar, each in the order of
their places. Errors are reported in blocks before the statement around the blocks fails, and some
point back to a token that was read before. So the invariant of reading relates all failures that
were reported to the tokens that are left: each stands at a token that was passed since the one
before it, and recovery passes the token of the failure that it reports.
-/

namespace XBase

def Position.Before (p q : Position) : Prop :=
  p.line < q.line ∨ p.line = q.line ∧ p.column < q.column

instance (p q : Position) : Decidable (p.Before q) :=
  inferInstanceAs (Decidable (_ ∨ _))

lemma Position.Before.trans {p q r : Position} (h : p.Before q) (h' : q.Before r) :
    p.Before r := by
  unfold Position.Before at *
  omega

namespace Proofs

open SourceUnit (importVerdict)

section Places

lemma before_next (p : Position) (c : Char) : p.Before (p.next c) := by
  unfold Position.Before Position.next
  split
  · exact .inl (Nat.lt_succ_self _)
  · exact .inr ⟨rfl, Nat.lt_succ_self _⟩

lemma before_after (p : Position) {cs : List Char} (h : cs ≠ []) : p.Before (p.after cs) := by
  induction cs generalizing p with
  | nil => exact absurd rfl h
  | cons c cs ih =>
    have hnext := before_next p c
    change p.Before ((p.next c).after cs)
    cases cs with
    | nil => exact hnext
    | cons d cs => exact hnext.trans (ih (p.next c) (List.cons_ne_nil _ _))

def itemPlace : Except ScanError Token → Position
  | .ok token => token.position
  | .error e => e.position

lemma itemPlace_of_read {piece : Piece} {afterToken : Bool} {p : Position}
    {item : Except ScanError Token} (h : piece.read afterToken p = some item) :
    itemPlace item = p := by
  unfold Piece.read at h
  grind [itemPlace]

/-- Pieces are read at places that follow each other, from the first one on. -/
lemma readAll_ordered (pieces : List Piece) (hne : ∀ piece ∈ pieces, piece.text ≠ [])
    (afterToken : Bool) (p : Position) :
    ((Piece.readAll afterToken p pieces).Pairwise fun a b =>
      (itemPlace a).Before (itemPlace b)) ∧
    ∀ item ∈ Piece.readAll afterToken p pieces, (p = itemPlace item ∨ p.Before (itemPlace item)) ∧
      (itemPlace item).Before (p.after (pieces.flatMap Piece.text)) := by
  induction pieces generalizing afterToken p with
  | nil => exact ⟨.nil, by simp [Piece.readAll]⟩
  | cons piece pieces ih =>
    obtain ⟨hpiece, hpieces⟩ := List.forall_mem_cons.mp hne
    have hstep := before_after p hpiece
    have hlater (afterToken : Bool) :
        ∀ item ∈ Piece.readAll afterToken (p.after piece.text) pieces,
          p.Before (itemPlace item) ∧
            (itemPlace item).Before (p.after ((piece :: pieces).flatMap Piece.text)) := by
      intro item hitem
      obtain ⟨hfirst, hlast⟩ := (ih hpieces afterToken (p.after piece.text)).2 item hitem
      rw [List.flatMap_cons, after_append]
      rcases hfirst with hfirst | hfirst
      · exact ⟨hfirst ▸ hstep, hlast⟩
      · exact ⟨hstep.trans hfirst, hlast⟩
    -- What a piece gives stands at the start of the piece, and all other pieces start behind it.
    have hgiven {item : Except ScanError Token} (hread : piece.read afterToken p = some item)
        (afterToken : Bool) :
        ((item :: Piece.readAll afterToken (p.after piece.text) pieces).Pairwise fun a b =>
          (itemPlace a).Before (itemPlace b)) ∧
        ∀ other ∈ item :: Piece.readAll afterToken (p.after piece.text) pieces,
          (p = itemPlace other ∨ p.Before (itemPlace other)) ∧
            (itemPlace other).Before (p.after ((piece :: pieces).flatMap Piece.text)) := by
      have hplace := itemPlace_of_read hread
      have hnonempty : (piece :: pieces).flatMap Piece.text ≠ [] := by simp [hpiece]
      refine ⟨List.pairwise_cons.mpr ⟨?_, (ih hpieces _ _).1⟩, List.forall_mem_cons.mpr ⟨?_, ?_⟩⟩
      · intro other hother
        rw [hplace]
        exact (hlater _ other hother).1
      · rw [hplace]
        exact ⟨.inl rfl, before_after p hnonempty⟩
      · intro other hother
        exact ⟨.inr (hlater _ other hother).1, (hlater _ other hother).2⟩
    unfold Piece.readAll
    rcases hread : piece.read afterToken p with _ | e | token
    · refine ⟨(ih hpieces _ _).1, ?_⟩
      intro item hitem
      exact ⟨.inr (hlater _ item hitem).1, (hlater _ item hitem).2⟩
    · exact hgiven hread _
    · exact hgiven hread _

lemma scan_ordered (source : String) :
    ((scan source).tokens.Pairwise fun a b => a.position.Before b.position) ∧
    ((scan source).errors.Pairwise fun a b => a.position.Before b.position) ∧
    ∀ token ∈ (scan source).tokens, token.position.Before (scan source).finish := by
  obtain ⟨hpairs, hends⟩ := readAll_ordered (Piece.cut (endLine source.toList))
    (fun _ => text_ne_nil) false .start
  rw [cut_text] at hends
  refine ⟨List.pairwise_filterMap.mpr (hpairs.imp ?_), List.pairwise_filterMap.mpr (hpairs.imp ?_), ?_⟩
  · rintro (_ | a) (_ | b) hbefore _ ⟨⟩ _ ⟨⟩
    exact hbefore
  · rintro (a | _) (b | _) hbefore _ ⟨⟩ _ ⟨⟩
    exact hbefore
  · intro token htoken
    obtain ⟨item, hitem, hok⟩ := List.mem_filterMap.mp htoken
    cases item with
    | error => cases hok
    | ok =>
      cases hok
      exact (hends _ hitem).2

end Places

section Invariant

variable {verdict : String → Except (List SyntaxCause) Stmt} {whole mid left : List Token}
  {failures more : List Failure} {e : Failure}

/-- The failures that were reported while the tokens of a text were passed one after the other, as
far as some are left. A token has one failure at most, the keyword of an import has all those of
the import, and only at the end of the text any number can follow each other. -/
inductive Reported (verdict : String → Except (List SyntaxCause) Stmt) (whole : List Token) :
    List Token → List Failure → Prop
  | start : Reported verdict whole whole []
  | pass {token : Token} {left : List Token} {failures : List Failure}
      (h : Reported verdict whole (token :: left) failures) : Reported verdict whole left failures
  | report {token : Token} {left : List Token} {failures : List Failure}
      (h : Reported verdict whole (token :: left) failures) (cause : SyntaxCause) :
      Reported verdict whole left (failures ++ [⟨some token, cause⟩])
  | imported {keyword name : Token} {left : List Token} {failures : List Failure}
      {causes : List SyntaxCause}
      (h : Reported verdict whole (keyword :: name :: left) failures)
      (hkeyword : keyword.kind = .keyword .importWord) (hname : name.kind = .name)
      (hverdict : verdict name.lexeme = .error causes) :
      Reported verdict whole left (failures ++ causes.map fun cause => ⟨some keyword, cause⟩)
  | finish {failures : List Failure} (h : Reported verdict whole [] failures)
      (cause : SyntaxCause) : Reported verdict whole [] (failures ++ [⟨none, cause⟩])

/-- A failure that is not reported yet. It comes behind those that were reported before; it may
point back to a token that was passed since then. -/
inductive Failing (verdict : String → Except (List SyntaxCause) Stmt) (whole : List Token) :
    List Token → List Failure → Failure → Prop
  | place {there left : List Token} {failures : List Failure} {e : Failure}
      (h : Reported verdict whole there failures) (hleft : left <:+ there)
      (hplace : e.place = there.head?) : Failing verdict whole left failures e
  | imported {keyword name : Token} {there left : List Token} {failures : List Failure}
      {causes : List SyntaxCause} {cause : SyntaxCause}
      (h : Reported verdict whole (keyword :: name :: there) failures) (hleft : left <:+ there)
      (hkeyword : keyword.kind = .keyword .importWord) (hname : name.kind = .name)
      (hverdict : verdict name.lexeme = .error (causes ++ [cause])) :
      Failing verdict whole left (failures ++ causes.map fun cause => ⟨some keyword, cause⟩)
        ⟨some keyword, cause⟩

lemma Reported.skip (h : Reported verdict whole mid failures) (hleft : left <:+ mid) :
    Reported verdict whole left failures := by
  obtain ⟨used, rfl⟩ := hleft
  induction used with
  | nil => exact h
  | cons token used ih => exact ih h.pass

lemma Reported.suffix (h : Reported verdict whole left failures) : left <:+ whole := by
  induction h with
  | start => exact List.suffix_refl _
  | pass _ ih => exact (List.suffix_cons _ _).trans ih
  | report _ _ ih => exact (List.suffix_cons _ _).trans ih
  | imported _ _ _ _ ih => exact ((List.suffix_cons _ _).trans (List.suffix_cons _ _)).trans ih
  | finish _ _ ih => exact ih

lemma Reported.trans (h : Reported verdict whole mid failures)
    (h' : Reported verdict mid left more) : Reported verdict whole left (failures ++ more) := by
  induction h' with
  | start => rwa [List.append_nil]
  | pass _ ih => exact ih.pass
  | report _ cause ih =>
    rw [← List.append_assoc]
    exact ih.report cause
  | imported _ hkeyword hname hverdict ih =>
    rw [← List.append_assoc]
    exact ih.imported hkeyword hname hverdict
  | finish _ cause ih =>
    rw [← List.append_assoc]
    exact ih.finish cause

lemma Failing.after (h : Reported verdict whole mid failures) (h' : Failing verdict mid left more e) :
    Failing verdict whole left (failures ++ more) e := by
  cases h' with
  | place hmore hleft hplace => exact .place (h.trans hmore) hleft hplace
  | imported hmore hleft hkeyword hname hverdict =>
    rw [← List.append_assoc]
    exact .imported (h.trans hmore) hleft hkeyword hname hverdict

/-- Recovery passes the token of the failure that it reports. -/
lemma Failing.recover (h : Failing verdict whole left failures e) :
    Reported verdict whole (resume left) (failures ++ [e]) := by
  have hresume := resume_suffix left
  cases h with
  | @place there _ _ e h hleft hplace =>
    obtain ⟨place, cause⟩ := e
    cases there with
    | nil =>
      obtain rfl := List.suffix_nil.mp hleft
      obtain rfl : place = none := hplace
      exact h.finish cause
    | cons token there =>
      obtain rfl : place = some token := hplace
      have htail : left.tail <:+ there := by
        rcases List.suffix_cons_iff.mp hleft with rfl | hleft
        · exact List.suffix_refl _
        · exact (List.tail_suffix left).trans hleft
      exact (h.report cause).skip (hresume.trans htail)
  | @imported keyword name there _ failures causes cause h hleft hkeyword hname hverdict =>
    have hall : failures ++ (causes.map fun cause => (⟨some keyword, cause⟩ : Failure)) ++
        [⟨some keyword, cause⟩] =
        failures ++ (causes ++ [cause]).map fun cause => (⟨some keyword, cause⟩ : Failure) := by
      simp
    rw [hall]
    exact (h.imported hkeyword hname hverdict).skip
      (hresume.trans ((List.tail_suffix left).trans hleft))

end Invariant

section Readers

variable {verdict : String → Except (List SyntaxCause) Stmt} {α β : Type} {bound : Nat}

/-- Reading reported failures in order and can go on. -/
def Proceeds (verdict : String → Except (List SyntaxCause) Stmt) (reading after : Reading) : Prop :=
  ∃ new, after.failures = reading.failures ++ new ∧
    Reported verdict reading.tokens after.tokens new

/-- Reading reported failures in order and fails. -/
def Breaks (verdict : String → Except (List SyntaxCause) Stmt) (reading after : Reading)
    (e : Failure) : Prop :=
  ∃ new, after.failures = reading.failures ++ new ∧
    Failing verdict reading.tokens after.tokens new e

lemma proceeds_refl (reading : Reading) : Proceeds verdict reading reading :=
  ⟨[], (List.append_nil _).symm, .start⟩

lemma proceeds_of_suffix {reading : Reading} {rest : List Token} (h : rest <:+ reading.tokens) :
    Proceeds verdict reading { reading with tokens := rest } :=
  ⟨[], (List.append_nil _).symm, Reported.start.skip h⟩

lemma Proceeds.trans {reading after final : Reading} (h : Proceeds verdict reading after)
    (h' : Proceeds verdict after final) : Proceeds verdict reading final := by
  obtain ⟨new, hnew, hreported⟩ := h
  obtain ⟨more, hmore, hreported'⟩ := h'
  exact ⟨new ++ more, by rw [hmore, hnew, List.append_assoc], hreported.trans hreported'⟩

lemma Proceeds.length_le {reading after : Reading} (h : Proceeds verdict reading after) :
    after.tokens.length ≤ reading.tokens.length := by
  obtain ⟨_, _, hreported⟩ := h
  exact hreported.suffix.length_le

lemma Proceeds.breaks {reading after final : Reading} {e : Failure}
    (h : Proceeds verdict reading after) (h' : Breaks verdict after final e) :
    Breaks verdict reading final e := by
  obtain ⟨new, hnew, hreported⟩ := h
  obtain ⟨more, hmore, hfailing⟩ := h'
  exact ⟨new ++ more, by rw [hmore, hnew, List.append_assoc], .after hreported hfailing⟩

/-- The course on which failures are reported in order. A grammar fails at a token that it has
passed, or at the next one. -/
def orderly (verdict : String → Except (List SyntaxCause) Stmt) : Course where
  goes := Proceeds verdict
  fails := Breaks verdict
  refl := proceeds_refl
  trans := Proceeds.trans
  trans_fails := Proceeds.breaks
  length_le := Proceeds.length_le
  drop := proceeds_of_suffix
  point {reading used rest e} hused hplace := by
    refine ⟨[], (List.append_nil _).symm, ?_⟩
    rcases hplace with hnext | ⟨token, htoken, hplace⟩
    · exact .place (Reported.start.skip ⟨used, hused.symm⟩) (List.suffix_refl _) hnext
    · -- The failure points back to a token among those that were used.
      obtain ⟨before, behind, rfl⟩ := List.append_of_mem htoken
      have hthere : token :: behind ++ rest <:+ reading.tokens := by
        rw [hused]
        exact ⟨before, by simp⟩
      exact .place (Reported.start.skip hthere) (List.suffix_append _ _) hplace
  recover {reading after e} h := by
    obtain ⟨new, hnew, hfailing⟩ := h
    refine ⟨new ++ [e], ?_, hfailing.recover⟩
    dsimp only
    rw [hnew, List.append_assoc]

/-- A reader and what follows it, where failures count from an `origin` before both. -/
lemma ends_bind {course : Course} {p : Read α} {f : α → Read β} {origin reading : Reading}
    (h : course.Ends origin (p reading))
    (hf : ∀ a after, p reading = (.ok a, after) → course.goes origin after →
      course.Ends origin (f a after)) : course.Ends origin ((p >>= f) reading) := by
  rcases hp : p reading with ⟨e | a, after⟩
  all_goals rw [hp] at h
  · rw [read_bind_error hp]
    exact h
  · rw [read_bind_ok hp]
    exact hf a after hp h

/-- An import fails at the token where its line goes wrong, or at its keyword for all causes that
the module has. -/
lemma imports_orderly {load : Token → String → Read Stmt}
    (hload : ∀ token name reading, Concludes token reading (verdict name) (load token name reading)) :
    (orderly verdict).Imports load := by
  intro reading token rest htokens hkind
  have hbehind : (orderly verdict).goes reading { reading with tokens := rest } :=
    Course.behind htokens
  have hexpect := (@follow_lift _ (rest.length + 1) (orderly verdict) _
    (alike_expect .name "Expect import name.") { reading with tokens := rest }
    (Nat.lt_succ_self _)).2
  refine ends_bind (Course.trans_ends hbehind hexpect) fun name mid hname hmid => ?_
  obtain ⟨behind, hread, rfl⟩ := lift_eq_ok.mp hname
  obtain ⟨hrest, hkindName⟩ := expect_eq_ok.mp hread
  obtain rfl : rest = name :: behind := hrest
  have hended := (@follow_lift _ (behind.length + 1) (orderly verdict) _
    (alike_endOfStatement "Expect new line after import name.")
    { reading with tokens := behind } (Nat.lt_succ_self _)).2
  refine ends_bind (Course.trans_ends hmid hended) fun _ after hend hafter => ?_
  obtain ⟨left, hread, rfl⟩ := lift_eq_ok.mp hend
  have hleft : left <:+ behind :=
    alike_left (@alike_endOfStatement [] _ "Expect new line after import name.")
      (Nat.lt_succ_self _) hread
  have hconcludes := hload token name.lexeme { reading with tokens := left }
  generalize hverdict : verdict name.lexeme = found,
    load token name.lexeme { reading with tokens := left } = result at hconcludes ⊢
  cases hconcludes with
  | ok => exact Proceeds.trans hafter ⟨[], (List.append_nil _).symm, .start⟩
  | error =>
    have hstart : Reported verdict reading.tokens (token :: name :: behind) [] := by
      rw [htokens]
      exact .start
    exact ⟨_, rfl, .imported hstart hleft hkind hkindName hverdict⟩

end Readers

section Order

variable {verdict : String → Except (List SyntaxCause) Stmt} {tokens left : List Token}
  {failures : List Failure}

structure IsImport (tokens : List Token) (keyword name : Token) : Prop where
  adjacent : [keyword, name] <:+: tokens
  keyword : keyword.kind = .keyword .importWord
  name : name.kind = .name

/-- An error that an import comes to, which stands at its keyword. -/
structure StemsFrom (verdict : String → Except (List SyntaxCause) Stmt) (keyword name : Token)
    (e : SyntaxError) : Prop where
  position : e.position = keyword.position
  lexeme : e.lexeme = some keyword.lexeme
  cause : ∃ causes, verdict name.lexeme = .error causes ∧ e.cause ∈ causes

structure AtEnd (finish : Position) (e : SyntaxError) : Prop where
  position : e.position = finish
  lexeme : e.lexeme = none

/-- The first of two failures that a text can have after each other. -/
inductive Precedes (verdict : String → Except (List SyntaxCause) Stmt) (tokens : List Token) :
    Failure → Failure → Prop
  | tokens {a b : Token} (h : [a, b].Sublist tokens) (cause cause' : SyntaxCause) :
      Precedes verdict tokens ⟨some a, cause⟩ ⟨some b, cause'⟩
  | toEnd {a : Token} (h : a ∈ tokens) (cause cause' : SyntaxCause) :
      Precedes verdict tokens ⟨some a, cause⟩ ⟨none, cause'⟩
  | atEnd (cause cause' : SyntaxCause) : Precedes verdict tokens ⟨none, cause⟩ ⟨none, cause'⟩
  | imported {keyword name : Token} {causes : List SyntaxCause} {cause cause' : SyntaxCause}
      (himport : IsImport tokens keyword name) (hverdict : verdict name.lexeme = .error causes)
      (h : cause ∈ causes) (h' : cause' ∈ causes) :
      Precedes verdict tokens ⟨some keyword, cause⟩ ⟨some keyword, cause'⟩

/-- A failure at a token that was passed, or at the end of the text. -/
def Passed (used left : List Token) (e : Failure) : Prop :=
  (∃ token ∈ used, e.place = some token) ∨ e.place = none ∧ left = []

lemma Passed.precedes {used : List Token} {token : Token} {e : Failure}
    (h : Passed used (token :: left) e) (cause : SyntaxCause) :
    Precedes verdict (used ++ token :: left) e ⟨some token, cause⟩ := by
  obtain ⟨place, cause'⟩ := e
  obtain ⟨earlier, hearlier, hplace⟩ | ⟨-, hnil⟩ := h
  · obtain rfl : place = some earlier := hplace
    have hsublist : [earlier, token].Sublist (used ++ token :: left) :=
      (List.singleton_sublist.mpr hearlier).append
        (List.singleton_sublist.mpr List.mem_cons_self)
    exact .tokens hsublist cause' cause
  · cases hnil

lemma Passed.mono {used more rest : List Token} {token : Token} {e : Failure}
    (h : Passed used (token :: rest) e) : Passed (used ++ token :: more) left e := by
  obtain ⟨earlier, hearlier, hplace⟩ | ⟨-, hnil⟩ := h
  · exact .inl ⟨earlier, List.mem_append_left _ hearlier, hplace⟩
  · cases hnil

lemma Reported.pairwise (h : Reported verdict tokens left failures) :
    ∃ used, tokens = used ++ left ∧ (∀ e ∈ failures, Passed used left e) ∧
      failures.Pairwise (Precedes verdict tokens) := by
  induction h with
  | start => exact ⟨[], rfl, by simp, .nil⟩
  | @pass token left failures _ ih =>
    obtain ⟨used, rfl, hpassed, hpairs⟩ := ih
    refine ⟨used ++ [token], by simp, ?_, hpairs⟩
    exact fun e he => (hpassed e he).mono
  | @report token left failures _ cause ih =>
    obtain ⟨used, rfl, hpassed, hpairs⟩ := ih
    refine ⟨used ++ [token], by simp, ?_, ?_⟩
    · intro e he
      rcases List.mem_append.mp he with he | he
      · exact (hpassed e he).mono
      · obtain rfl := List.mem_singleton.mp he
        exact .inl ⟨token, by simp, rfl⟩
    · refine List.pairwise_append.mpr ⟨hpairs, List.pairwise_singleton _ _, ?_⟩
      intro e he last hlast
      obtain rfl := List.mem_singleton.mp hlast
      exact (hpassed e he).precedes cause
  | @imported keyword name left failures causes _ hkeyword hname hverdict ih =>
    obtain ⟨used, rfl, hpassed, hpairs⟩ := ih
    have himport : IsImport (used ++ keyword :: name :: left) keyword name :=
      ⟨⟨used, left, by simp⟩, hkeyword, hname⟩
    refine ⟨used ++ [keyword, name], by simp, ?_, ?_⟩
    · intro e he
      rcases List.mem_append.mp he with he | he
      · exact (hpassed e he).mono
      · obtain ⟨cause, -, rfl⟩ := List.mem_map.mp he
        exact .inl ⟨keyword, by simp, rfl⟩
    · refine List.pairwise_append.mpr ⟨hpairs, List.pairwise_map.mpr ?_, ?_⟩
      · apply List.pairwise_of_forall_mem_list
        intro cause hcause cause' hcause'
        exact .imported himport hverdict hcause hcause'
      · intro e he last hlast
        obtain ⟨cause, -, rfl⟩ := List.mem_map.mp hlast
        exact (hpassed e he).precedes cause
  | @finish failures _ cause ih =>
    obtain ⟨used, rfl, hpassed, hpairs⟩ := ih
    refine ⟨used, rfl, ?_, ?_⟩
    · intro e he
      rcases List.mem_append.mp he with he | he
      · exact hpassed e he
      · obtain rfl := List.mem_singleton.mp he
        exact .inr ⟨rfl, rfl⟩
    · refine List.pairwise_append.mpr ⟨hpairs, List.pairwise_singleton _ _, ?_⟩
      rintro ⟨place, cause'⟩ he last hlast
      obtain rfl := List.mem_singleton.mp hlast
      obtain ⟨token, htoken, hplace⟩ | ⟨hplace, -⟩ := hpassed _ he
      · obtain rfl : place = some token := hplace
        exact .toEnd (List.mem_append_left _ htoken) cause' cause
      · obtain rfl : place = none := hplace
        exact .atEnd cause' cause

lemma Precedes.errors {finish : Position} {a b : Failure} (h : Precedes verdict tokens a b)
    (hpairs : tokens.Pairwise fun s t => s.position.Before t.position)
    (hends : ∀ token ∈ tokens, token.position.Before finish) :
    (a.toError finish).position.Before (b.toError finish).position ∨
      (a.toError finish).position = (b.toError finish).position ∧
        (AtEnd finish (a.toError finish) ∧ AtEnd finish (b.toError finish) ∨
          ∃ keyword name, IsImport tokens keyword name ∧
            StemsFrom verdict keyword name (a.toError finish) ∧
            StemsFrom verdict keyword name (b.toError finish)) := by
  cases h with
  | tokens hsublist =>
    have hbefore := List.pairwise_pair.mp (hpairs.sublist hsublist)
    exact .inl hbefore
  | toEnd hmem => exact .inl (hends _ hmem)
  | atEnd => exact .inr ⟨rfl, .inl ⟨⟨rfl, rfl⟩, ⟨rfl, rfl⟩⟩⟩
  | imported himport hverdict h h' =>
    exact .inr ⟨rfl, .inr ⟨_, _, himport, ⟨rfl, rfl, _, hverdict, h⟩, ⟨rfl, rfl, _, hverdict, h'⟩⟩⟩

/-- No import fails because of a piece of text that is no token of the importing text. -/
lemma verdict_ne_scan {library : Library} {importing : List String}
    {parse : Option (List String → String → SourceUnit)} {name : String}
    {causes : List SyntaxCause} (h : importVerdict library importing parse name = .error causes) :
    ∀ cause ∈ causes, ∀ scanned, cause ≠ .scan scanned := by
  unfold importVerdict at h
  split at h
  · cases h
    simp
  · cases hsource : library.resolve name with
    | error reason =>
      rw [hsource] at h
      cases h
      simp
    | ok source =>
      rw [hsource] at h
      cases parse with
      | none =>
        cases h
        simp
      | some parse =>
        simp only [SourceUnit.verdict] at h
        split at h
        · cases h
        · cases h
          simp
        · cases h
          intro cause hcause
          obtain ⟨e, -, rfl⟩ := List.mem_map.mp hcause
          intro scanned h
          cases h

lemma program_pairwise (library : Library) (depth : Nat) (importing : List String)
    (tokens : List Token) (log : List Record) :
    (Read.program (SourceUnit.loader library depth importing) ⟨tokens, [], log⟩).2.failures.Pairwise
      (Precedes (importVerdict library importing (SourceUnit.deeper library depth)) tokens) := by
  have hknot := knot (loads_loader library importing depth)
  have hload (token : Token) (name : String) (reading : Reading) :=
    importModule_concludes library importing (SourceUnit.deeper library depth) token name reading
  obtain ⟨failures, hfailures, hreported⟩ := (advance_block
    (hknot.follows (imports_orderly hload) _).1 (fun _ => false) ⟨tokens, [], log⟩
    (Nat.lt_succ_self _)).2
  obtain ⟨_, _, _, hpairs⟩ := hreported.pairwise
  have hall : (Read.program (SourceUnit.loader library depth importing)
      ⟨tokens, [], log⟩).2.failures = failures := hfailures
  rw [hall]
  exact hpairs

end Order

/-- The errors of a text, which may be imported by others and import others itself: those of the
scan at places that follow each other, and then those of the grammar. A later one of these stands
behind an earlier one, unless both stand at the end of the text or come from one import. -/
theorem errors_in_source_order (library : Library) (depth : Nat) (importing : List String)
    (source : String) :
    let verdict := importVerdict library importing (SourceUnit.deeper library depth)
    ∃ own : List SyntaxError,
      (SourceUnit.parseWithin library depth importing source).errors =
        (scan source).errors.map SyntaxError.ofScan ++ own ∧
      ((scan source).errors.Pairwise fun a b => a.position.Before b.position) ∧
      (∀ e ∈ own, ∀ cause, e.cause ≠ .scan cause) ∧
      own.Pairwise fun a b => a.position.Before b.position ∨
        a.position = b.position ∧
          (AtEnd (scan source).finish a ∧ AtEnd (scan source).finish b ∨
            ∃ keyword name, IsImport (scan source).tokens keyword name ∧
              StemsFrom verdict keyword name a ∧ StemsFrom verdict keyword name b) := by
  intro verdict
  obtain ⟨htokens, herrors, hends⟩ := scan_ordered source
  rw [parseWithin_eq]
  refine ⟨_, rfl, herrors, ?_, ?_⟩
  · intro e he
    obtain ⟨failure, hfailure, rfl⟩ := List.mem_map.mp he
    have hcause := causes_satisfy (P := fun cause => ∀ scanned, cause ≠ .scan scanned)
      (by rintro (_ | _) <;> simp [SyntaxCause.ofGrammar])
      (fun _ _ _ _ hverdict => verdict_ne_scan hverdict) _ failure hfailure
    obtain ⟨_ | token, cause⟩ := failure <;> exact hcause
  · rw [List.pairwise_map]
    exact (program_pairwise library depth importing _ _).imp fun h => h.errors htokens hends

end Proofs

end XBase
