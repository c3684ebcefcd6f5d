import Mathlib
import XBase.Token.Scan

/-!
# Texts put together

Scanning a text that is put together of parts finds the pieces of the parts, as long as no piece
crosses a seam. A part that ends its last line keeps its pieces whatever follows, but for two
things: more line ends make its last separator longer, and what follows must not close a quoted text
or a comment that the part leaves open.
-/

namespace XBase.Proofs

open Pattern (span)

/-- A text that ends its last line. -/
def Ended (cs : List Char) : Prop :=
  cs.getLast? = some '\n'

/-- A text that closes neither a quoted text nor a comment. -/
def Inert (tail : List Char) : Prop :=
  ∀ c ∈ tail, c ≠ '"' ∧ c ≠ Pattern.apostrophe ∧ c ≠ Pattern.backtick ∧ c ≠ '*'

lemma Ended.behind {c : Char} {cs : List Char} (h : Ended (c :: cs)) (hc : c ≠ '\n') :
    Ended cs := by
  cases cs with
  | nil => exact absurd (by simpa [Ended] using h) hc
  | cons d ds => exact h

variable {cs w rest : List Char} {n : Nat} {pattern : Pattern} {p : Char → Bool} {c quote : Char}
  {letters : String}

lemma Ended.suffix {ds : List Char} (h : Ended cs) (hsuffix : ds <:+ cs) (hne : ds ≠ []) :
    Ended ds := by
  obtain ⟨t, rfl⟩ := hsuffix
  rw [Ended, List.getLast?_append_of_ne_nil t hne] at h
  exact h

lemma Ended.drop (h : Ended cs) (hn : n < cs.length) : Ended (cs.drop n) := by
  refine h.suffix (List.drop_suffix n cs) fun hnil => ?_
  have hle := List.drop_eq_nil_iff.mp hnil
  omega

lemma Ended.ne_nil (h : Ended cs) : cs ≠ [] := by
  rintro rfl
  cases h

lemma Ended.mem (h : Ended cs) : '\n' ∈ cs :=
  List.mem_of_getLast? h

section Patterns

/-- A pattern whose match in a text that ends its last line stops before the last line end and does
not depend on what follows. -/
def Inner (pattern : Pattern) : Prop :=
  ∀ cs tail, Ended cs → Inert tail →
    pattern (cs ++ tail) = pattern cs ∧ ∀ n ∈ pattern cs, n < cs.length

/-- A pattern whose match in a text that ends its last line stops before the last line end, whatever
follows the text. -/
def Firm (pattern : Pattern) : Prop :=
  ∀ cs tail, Ended cs → pattern (cs ++ tail) = pattern cs ∧ ∀ n ∈ pattern cs, n < cs.length

lemma span_append (tail : List Char) (hc : c ∈ cs) (hp : p c = false) :
    span p (cs ++ tail) = span p cs ∧ span p cs < cs.length := by
  induction cs with
  | nil => cases hc
  | cons d cs ih =>
    cases hd : p d with
    | false => simp [span, hd]
    | true =>
      have hc : c ∈ cs := by
        rcases List.mem_cons.mp hc with rfl | hc
        · simp [hp] at hd
        · exact hc
      obtain ⟨heq, hlt⟩ := ih hc
      unfold span at heq hlt ⊢
      simp [hd, heq, hlt]

/-- Only the matches at characters within a line have to be looked at. -/
lemma stops_of_cons {tail : List Char} (hline : ∀ cs, pattern ('\n' :: cs) = none)
    (h : ∀ c cs, Ended cs →
      pattern (c :: (cs ++ tail)) = pattern (c :: cs) ∧ ∀ n ∈ pattern (c :: cs), n ≤ cs.length)
    (hcs : Ended cs) : pattern (cs ++ tail) = pattern cs ∧ ∀ n ∈ pattern cs, n < cs.length := by
  cases cs with
  | nil => exact absurd rfl hcs.ne_nil
  | cons c cs =>
    by_cases hc : c = '\n'
    · subst hc
      simp [hline]
    · obtain ⟨heq, hle⟩ := h c cs (hcs.behind hc)
      exact ⟨heq, fun n hn => Nat.lt_succ_of_le (hle n hn)⟩

lemma firm_of_cons (hline : ∀ cs, pattern ('\n' :: cs) = none)
    (h : ∀ c cs tail, Ended cs →
      pattern (c :: (cs ++ tail)) = pattern (c :: cs) ∧ ∀ n ∈ pattern (c :: cs), n ≤ cs.length) :
    Firm pattern :=
  fun _ tail hcs => stops_of_cons hline (fun c cs hcs => h c cs tail hcs) hcs

lemma inner_of_cons (hline : ∀ cs, pattern ('\n' :: cs) = none)
    (h : ∀ c cs tail, Ended cs → Inert tail →
      pattern (c :: (cs ++ tail)) = pattern (c :: cs) ∧ ∀ n ∈ pattern (c :: cs), n ≤ cs.length) :
    Inner pattern :=
  fun _ tail hcs htail => stops_of_cons hline (fun c cs hcs => h c cs tail hcs htail) hcs

lemma Ended.pos (h : Ended cs) : 0 < cs.length :=
  List.length_pos_of_ne_nil h.ne_nil

lemma Ended.head_append (h : Ended cs) (tail : List Char) : (cs ++ tail).head? = cs.head? := by
  cases cs with
  | nil => exact absurd rfl h.ne_nil
  | cons => rfl

lemma firm_one (hp : p '\n' = false) : Firm (Pattern.one p) := by
  refine firm_of_cons (fun cs => by simp [Pattern.one, hp]) fun c cs tail hcs => ?_
  refine ⟨rfl, fun n hn => ?_⟩
  have hpos := hcs.pos
  grind [Pattern.one]

lemma firm_many (hp : p '\n' = false) : Firm (Pattern.many p) := by
  intro cs tail hcs
  obtain ⟨heq, hlt⟩ := span_append tail hcs.mem hp
  unfold Pattern.many
  rw [heq]
  exact ⟨rfl, fun n hn => by grind⟩

lemma withEquals_cons (p : Char → Bool) (c : Char) (cs : List Char) :
    Pattern.withEquals p (c :: cs) = if cs.head? = some '=' ∧ p c then some 2 else none := by
  unfold Pattern.withEquals
  cases cs <;> grind

lemma Ended.two_le (h : Ended cs) (hc : cs.head? = some c) (hline : c ≠ '\n') : 2 ≤ cs.length := by
  cases cs with
  | nil => cases hc
  | cons d cs =>
    obtain rfl : d = c := by simpa using hc
    have hpos := (h.behind hline).pos
    simpa using Nat.succ_le_of_lt hpos

lemma firm_withEquals (hp : p '\n' = false) : Firm (Pattern.withEquals p) := by
  refine firm_of_cons (fun cs => by simp [withEquals_cons, hp]) fun c cs tail hcs => ?_
  rw [withEquals_cons, withEquals_cons, hcs.head_append]
  refine ⟨rfl, fun n hn => ?_⟩
  split at hn
  · next h =>
    cases hn
    exact hcs.two_le h.1 (by decide)
  · cases hn

lemma firm_either {p q : Pattern} (hp : Firm p) (hq : Firm q) : Firm (Pattern.either p q) := by
  intro cs tail hcs
  obtain ⟨hp, hlt⟩ := hp cs tail hcs
  obtain ⟨hq, hlt'⟩ := hq cs tail hcs
  unfold Pattern.either
  rw [hp, hq]
  refine ⟨rfl, fun n hn => ?_⟩
  rcases Option.or_eq_some_iff.mp hn with hn | ⟨-, hn⟩
  · exact hlt n hn
  · exact hlt' n hn

lemma lineComment_cons (c : Char) (cs : List Char) :
    Pattern.lineComment (c :: cs) =
      if c = '/' ∧ cs.head? = some '/' then some (2 + span (· != '\n') cs.tail) else none := by
  unfold Pattern.lineComment
  cases cs <;> grind

lemma firm_lineComment : Firm Pattern.lineComment := by
  refine firm_of_cons (fun cs => by simp [lineComment_cons]) fun c cs tail hcs => ?_
  rw [lineComment_cons, lineComment_cons, hcs.head_append]
  split
  · next h =>
    obtain ⟨ds, rfl⟩ := List.head?_eq_some_iff.mp h.2
    have hds := hcs.behind (by decide)
    obtain ⟨heq, hlt⟩ := span_append tail hds.mem (p := (· != '\n')) rfl
    rw [List.cons_append, List.tail_cons, List.tail_cons, heq]
    refine ⟨rfl, fun n hn => ?_⟩
    cases hn
    simp only [List.length_cons]
    omega
  · simp

lemma inert_nil : Inert [] :=
  fun c hc => by cases hc

lemma Inert.tail {tail : List Char} (h : Inert (c :: tail)) : Inert tail :=
  fun d hd => h d (List.mem_cons_of_mem c hd)

lemma commentEnd_cons (c : Char) (cs : List Char) :
    Pattern.commentEnd (c :: cs) =
      if c = '*' ∧ cs.head? = some '/' then some 2 else (Pattern.commentEnd cs).map (· + 1) := by
  by_cases h : c = '*' ∧ cs.head? = some '/'
  · obtain ⟨rfl, hslash⟩ := h
    obtain ⟨ds, rfl⟩ := List.head?_eq_some_iff.mp hslash
    simp [Pattern.commentEnd]
  · rw [if_neg h, Pattern.commentEnd]
    rintro ds rfl rfl
    exact h ⟨rfl, rfl⟩

lemma commentEnd_inert {tail : List Char} (h : Inert tail) : Pattern.commentEnd tail = none := by
  induction tail with
  | nil => rfl
  | cons c tail ih =>
    have hc : c ≠ '*' := (h c List.mem_cons_self).2.2.2
    rw [commentEnd_cons, if_neg fun hstar => hc hstar.1, ih h.tail]
    rfl

lemma commentEnd_append {tail : List Char} (hcs : Ended cs) (htail : Inert tail) :
    Pattern.commentEnd (cs ++ tail) = Pattern.commentEnd cs ∧
      ∀ n ∈ Pattern.commentEnd cs, n < cs.length := by
  induction cs with
  | nil => exact absurd rfl hcs.ne_nil
  | cons c cs ih =>
    simp only [List.cons_append, commentEnd_cons, List.length_cons]
    rcases cs with _ | ⟨d, ds⟩
    · -- A comment that is open at the end of the text stays open.
      obtain rfl : c = '\n' := by simpa [Ended] using hcs
      simp [commentEnd_inert htail, Pattern.commentEnd]
    · have hcs : Ended (d :: ds) := hcs
      obtain ⟨heq, hlt⟩ := ih hcs
      rw [hcs.head_append, heq]
      refine ⟨rfl, fun n hn => ?_⟩
      split at hn
      · next h =>
        cases hn
        exact Nat.lt_succ_of_le (hcs.two_le h.2 (by decide))
      · obtain ⟨m, hm, rfl⟩ := Option.map_eq_some_iff.mp hn
        exact Nat.succ_lt_succ (hlt m hm)

lemma blockComment_cons (c : Char) (cs : List Char) :
    Pattern.blockComment (c :: cs) =
      if c = '/' ∧ cs.head? = some '*' then (Pattern.commentEnd cs.tail).map (· + 2) else none := by
  unfold Pattern.blockComment
  cases cs <;> grind

lemma inner_blockComment : Inner Pattern.blockComment := by
  refine inner_of_cons (fun cs => by simp [blockComment_cons]) fun c cs tail hcs htail => ?_
  rw [blockComment_cons, blockComment_cons, hcs.head_append]
  split
  · next h =>
    obtain ⟨ds, rfl⟩ := List.head?_eq_some_iff.mp h.2
    obtain ⟨heq, hlt⟩ := commentEnd_append (hcs.behind (by decide)) htail
    rw [List.cons_append, List.tail_cons, List.tail_cons, heq]
    refine ⟨rfl, fun n hn => ?_⟩
    obtain ⟨m, hm, rfl⟩ := Option.map_eq_some_iff.mp hn
    exact Nat.succ_lt_succ (hlt m hm)
  · simp

lemma firm_number : Firm Pattern.number := by
  refine firm_of_cons (fun cs => by simp [Pattern.number]) fun c cs tail hcs => ?_
  simp only [Pattern.number]
  split
  · obtain ⟨heq, hlt⟩ :=
      span_append tail hcs.mem (p := fun d => d.isDigit || d == '.' || d == '_') rfl
    rw [heq]
    refine ⟨rfl, fun n hn => ?_⟩
    cases hn
    omega
  · simp

lemma closingQuote_inert {tail : List Char} (h : ∀ c ∈ tail, c ≠ quote) :
    Pattern.closingQuote quote tail = none := by
  fun_induction Pattern.closingQuote quote tail with
  | case1 => rfl
  | case2 c cs ih => simp [ih fun d hd => h d (by simp [hd])]
  | case3 cs => exact absurd rfl (h quote List.mem_cons_self)
  | case4 c cs _ _ ih => simp [ih fun d hd => h d (by simp [hd])]

lemma closingQuote_append {tail : List Char} (hcs : Ended cs) (hquote : quote ≠ '\n')
    (htail : ∀ c ∈ tail, c ≠ quote) :
    Pattern.closingQuote quote (cs ++ tail) = Pattern.closingQuote quote cs ∧
      ∀ n ∈ Pattern.closingQuote quote cs, n < cs.length := by
  fun_induction Pattern.closingQuote quote cs with
  | case1 => exact absurd rfl hcs.ne_nil
  | case2 c cs ih =>
    rw [List.cons_append, List.cons_append, Pattern.closingQuote]
    rcases cs with _ | ⟨d, ds⟩
    · -- A backslash may hide the last line end, but no quote follows it.
      simp [closingQuote_inert htail, Pattern.closingQuote]
    · obtain ⟨heq, hlt⟩ := ih hcs
      rw [heq]
      refine ⟨rfl, fun n hn => ?_⟩
      obtain ⟨m, hm, rfl⟩ := Option.map_eq_some_iff.mp hn
      exact Nat.add_lt_add_right (hlt m hm) 2
  | case3 cs hplain =>
    have hcs := hcs.behind hquote
    have hplain : quote ≠ '\\' := by
      obtain ⟨d, ds, rfl⟩ := List.exists_cons_of_ne_nil hcs.ne_nil
      exact fun h => hplain d ds h rfl
    refine ⟨by simp [Pattern.closingQuote, hplain], fun n hn => ?_⟩
    obtain rfl : 1 = n := Option.some.inj hn
    exact Nat.succ_lt_succ hcs.pos
  | case4 c cs hplain hc ih =>
    have hslash : c ≠ '\\' := by
      rintro rfl
      obtain ⟨d, ds, rfl⟩ := List.exists_cons_of_ne_nil (hcs.behind (by decide)).ne_nil
      exact hplain d ds rfl rfl
    rcases cs with _ | ⟨d, ds⟩
    · simp [Pattern.closingQuote, closingQuote_inert htail, hslash, hc]
    · obtain ⟨heq, hlt⟩ := ih hcs
      rw [List.cons_append, Pattern.closingQuote, if_neg hc, heq]
      · refine ⟨rfl, fun n hn => ?_⟩
        obtain ⟨m, hm, rfl⟩ := Option.map_eq_some_iff.mp hn
        exact Nat.succ_lt_succ (hlt m hm)
      · exact fun _ _ h _ => hslash h

lemma inner_quoted (hquote : quote ≠ '\n') (hinert : ∀ tail, Inert tail → ∀ c ∈ tail, c ≠ quote) :
    Inner (Pattern.quoted quote) := by
  have hline : ∀ cs, Pattern.quoted quote ('\n' :: cs) = none := by
    simp [Pattern.quoted, hquote.symm]
  refine inner_of_cons hline fun c cs tail hcs htail => ?_
  simp only [Pattern.quoted]
  split
  · obtain ⟨heq, hlt⟩ := closingQuote_append hcs hquote (hinert tail htail)
    rw [heq]
    refine ⟨rfl, fun n hn => ?_⟩
    obtain ⟨m, hm, rfl⟩ := Option.map_eq_some_iff.mp hn
    exact hlt m hm
  · simp

lemma inner_raw : Inner Pattern.raw := by
  have hline : ∀ cs, Pattern.raw ('\n' :: cs) = none := by
    simp [Pattern.raw, Pattern.backtick]
  refine inner_of_cons hline fun c cs tail hcs htail => ?_
  simp only [Pattern.raw]
  split
  · by_cases hclosed : Pattern.backtick ∈ cs
    · obtain ⟨heq, hlt⟩ := span_append tail hclosed (p := (· != Pattern.backtick)) (by simp)
      rw [heq, if_pos hlt, if_pos (by rw [List.length_append]; omega)]
      refine ⟨rfl, fun n hn => ?_⟩
      -- The closing backtick stands before the last character of the text.
      obtain ⟨ds, rfl⟩ := List.getLast?_eq_some_iff.mp hcs
      have hclosed : Pattern.backtick ∈ ds := by simpa [Pattern.backtick] using hclosed
      obtain ⟨heq', hlt'⟩ := span_append ['\n'] hclosed (p := (· != Pattern.backtick)) (by simp)
      cases hn
      rw [heq', List.length_append, List.length_singleton]
      omega
    · have hspan : ∀ ds, Pattern.backtick ∉ ds → span (· != Pattern.backtick) ds = ds.length := by
        intro ds hds
        unfold span
        rw [List.takeWhile_eq_self_iff.mpr]
        intro d hd
        simpa using ne_of_mem_of_not_mem hd hds
      have hclosed' : Pattern.backtick ∉ cs ++ tail := by
        simpa [hclosed] using fun h => (htail _ h).2.2.1 rfl
      simp [hspan _ hclosed, hspan _ hclosed']
  · simp

lemma firm_comparison : Firm Pattern.comparison := by
  refine firm_of_cons (fun cs => by simp [Pattern.comparison]) fun c cs tail hcs => ?_
  simp only [Pattern.comparison, hcs.head_append]
  refine ⟨trivial, fun n hn => ?_⟩
  have hpos := hcs.pos
  have htwo := hcs.two_le (c := '=')
  grind

lemma spells_append {letters : List Char} (tail : List Char) (hcs : Ended cs)
    (hletters : ∀ letter ∈ letters, Pattern.folds letter '\n' = false) :
    Pattern.spells letters (cs ++ tail) = Pattern.spells letters cs ∧
      (Pattern.spells letters cs → letters.length < cs.length) := by
  induction letters generalizing cs with
  | nil => simp [Pattern.spells, hcs.pos]
  | cons letter letters ih =>
    simp only [List.forall_mem_cons] at hletters
    rcases cs with _ | ⟨c, cs⟩
    · exact absurd rfl hcs.ne_nil
    by_cases hc : c = '\n'
    · simp [Pattern.spells, hc, hletters.1]
    · obtain ⟨heq, hlt⟩ := ih (hcs.behind hc) hletters.2
      simp only [List.cons_append, Pattern.spells, heq, true_and, Bool.and_eq_true]
      exact fun h => Nat.succ_lt_succ (hlt h.2)

lemma firm_spelling (hletters : letters.toList.any (Pattern.folds · '\n') = false) :
    Firm (Pattern.spelling letters) := by
  intro cs tail hcs
  obtain ⟨heq, hlt⟩ := spells_append tail hcs
    fun c hc => Bool.eq_false_iff.mpr (List.any_eq_false.mp hletters c hc)
  simp only [Pattern.spelling, heq]
  exact ⟨trivial, fun n hn => by grind⟩

lemma firm_word (hletters : ∀ letter ∈ letters.toList, Pattern.folds letter '\n' = false) :
    Firm (Pattern.word letters) := by
  intro cs tail hcs
  obtain ⟨heq, hlt⟩ := spells_append tail hcs hletters
  simp only [Pattern.word, heq]
  refine ⟨?_, fun n hn => by grind⟩
  cases hspells : Pattern.spells letters.toList cs with
  | false => rfl
  | true =>
    have hlt := hlt hspells
    rw [List.drop_append_of_le_length (Nat.le_of_lt hlt), (hcs.drop hlt).head_append]

/-- A pattern whose match in a text that ends its last line takes more line ends after the text if
it takes the last one, and does not depend on what follows otherwise. -/
def Stretches (pattern : Pattern) : Prop :=
  ∀ cs tail, Ended cs →
    pattern (cs ++ tail) = (pattern cs).map
      (fun n => if n = cs.length then n + span (· == '\n') tail else n) ∧
    ∀ n ∈ pattern cs, n ≤ cs.length

/-- A match that stops before the last line end is not made longer. -/
lemma map_stretch {found : Option Nat} {length : Nat} (h : ∀ n ∈ found, n < length) (more : Nat) :
    found.map (fun n => if n = length then n + more else n) = found := by
  cases found with
  | none => rfl
  | some n => simp [Nat.ne_of_lt (h n rfl)]

lemma span_lines_append (cs tail : List Char) :
    span (· == '\n') (cs ++ tail) =
      if span (· == '\n') cs = cs.length then cs.length + span (· == '\n') tail
      else span (· == '\n') cs := by
  unfold span
  rw [List.takeWhile_append]
  split <;> simp

lemma span_le (p : Char → Bool) (cs : List Char) : span p cs ≤ cs.length :=
  (List.takeWhile_sublist p).length_le

lemma stretches_lines : Stretches (Pattern.many (· == '\n')) := by
  intro cs tail hcs
  have hpos := hcs.pos
  have hle := span_le (· == '\n') cs
  unfold Pattern.many
  rw [span_lines_append]
  grind

lemma semicolonBreak_cons (c : Char) (cs : List Char) :
    Pattern.semicolonBreak (c :: cs) =
      if c = ';' then (Pattern.many (· == '\n') (cs.drop (span Pattern.isSpace cs))).map
        (1 + span Pattern.isSpace cs + ·) else none := by
  unfold Pattern.semicolonBreak Pattern.many
  grind

lemma stretches_semicolonBreak : Stretches Pattern.semicolonBreak := by
  intro cs tail hcs
  rcases cs with _ | ⟨c, cs⟩
  · exact absurd rfl hcs.ne_nil
  rw [List.cons_append, semicolonBreak_cons, semicolonBreak_cons]
  split
  · next hc =>
    have hcs := hcs.behind (by rw [hc]; decide)
    obtain ⟨heq, hlt⟩ := span_append tail hcs.mem (p := Pattern.isSpace) rfl
    obtain ⟨hlines, hle⟩ := stretches_lines _ tail (hcs.drop hlt)
    rw [heq, List.drop_append_of_le_length (Nat.le_of_lt hlt), hlines]
    cases hn : Pattern.many (· == '\n') (cs.drop (span Pattern.isSpace cs)) with
    | none => simp
    | some n =>
      have hle := hle n hn
      simp only [List.length_drop, Option.map_some, List.length_cons] at hle ⊢
      grind
  · simp

end Patterns

section Words

/-- Word characters, of which there is one, and the first is no digit. -/
structure Wordy (w : List Char) : Prop where
  ne_nil : w ≠ []
  head {c : Char} (h : w.head? = some c) : c.isDigit = false
  isWord {c : Char} (h : c ∈ w) : Text.isWord c = true

/-- A text that does not go on with a word character. -/
def Apart (rest : List Char) : Prop :=
  rest.head?.any Text.isWord = false

/-- A pattern whose match at a word does not depend on what follows the word. -/
def Fixed (pattern : Pattern) : Prop :=
  ∀ w rest, Wordy w → Apart rest → pattern (w ++ rest) = pattern w

lemma ne_of_isWord {d : Char} (hc : Text.isWord c = true) (hd : Text.isWord d = false) : c ≠ d := by
  rintro rfl
  simp [hd] at hc

lemma fixed_of_none
    (h : ∀ c cs, Text.isWord c = true → c.isDigit = false → pattern (c :: cs) = none) :
    Fixed pattern := by
  intro w rest hw _
  obtain ⟨c, cs, rfl⟩ := List.exists_cons_of_ne_nil hw.ne_nil
  have hc := hw.isWord List.mem_cons_self
  rw [List.cons_append, h c _ hc (hw.head rfl), h c _ hc (hw.head rfl)]

lemma fixed_either {p q : Pattern} (hp : Fixed p) (hq : Fixed q) : Fixed (Pattern.either p q) := by
  intro w rest hw hrest
  rw [Pattern.either, Pattern.either, hp w rest hw hrest, hq w rest hw hrest]

variable (h : ∀ c, Text.isWord c = true → p c = false)

include h

lemma fixed_one : Fixed (Pattern.one p) :=
  fixed_of_none fun c _ hc _ => by simp [Pattern.one, h c hc]

lemma fixed_withEquals : Fixed (Pattern.withEquals p) :=
  fixed_of_none fun c cs hc _ => by simp [withEquals_cons, h c hc]

lemma fixed_many : Fixed (Pattern.many p) :=
  fixed_of_none fun c cs hc _ => by simp [Pattern.many, span, h c hc]

omit h

lemma fixed_quoted (h : Text.isWord quote = false) : Fixed (Pattern.quoted quote) := by
  refine fixed_of_none fun c cs hc _ => ?_
  have hne : c ≠ quote := ne_of_isWord hc h
  simp [Pattern.quoted, hne]

lemma not_isSpace_of_isWord (hc : Text.isWord c = true) : Pattern.isSpace c = false := by
  have hfeed : c.toNat ≠ 0x0C := by
    intro h
    exact ne_of_isWord hc (by decide) ((Char.ofNat_toNat c).symm.trans (congrArg Char.ofNat h))
  simp [Pattern.isSpace, hfeed, ne_of_isWord hc (d := ' ') (by decide),
    ne_of_isWord hc (d := '\t') (by decide), ne_of_isWord hc (d := '\r') (by decide)]

lemma not_isDigit_of_isLower (h : c.isLower = true) : c.isDigit = false := by
  simp only [Char.isLower, Char.isDigit, Bool.and_eq_true, decide_eq_true_eq, ge_iff_le,
    UInt32.le_iff_toNat_le] at h ⊢
  grind

lemma isWord_of_isAlpha (h : c.isAlpha = true) : Text.isWord c = true := by
  have hlt : c.toNat < 128 := by
    simp only [Char.isAlpha, Char.isUpper, Char.isLower, Bool.or_eq_true, Bool.and_eq_true,
      decide_eq_true_eq, ge_iff_le, UInt32.le_iff_toNat_le] at h
    rw [← Char.toNat_val]
    grind
  simp [Text.isWord, hlt, Text.isAsciiWord, Char.isAlphanum, h]

lemma wordy_of_isLower (hne : w ≠ []) (h : w.all Char.isLower = true) :
    Wordy w where
  ne_nil := hne
  head hc := not_isDigit_of_isLower (List.all_eq_true.mp h _ (List.mem_of_mem_head? hc))
  isWord hc := isWord_of_isAlpha (by simp [Char.isAlpha, List.all_eq_true.mp h _ hc])

lemma isWord_of_folds {letter : Char} (hletter : letter.isLower = true)
    (h : Pattern.folds letter c = true) : Text.isWord c = true := by
  simp only [Pattern.folds, Bool.or_eq_true, Bool.and_eq_true, beq_iff_eq] at h
  rcases h with (h | ⟨-, h⟩) | ⟨-, h⟩
  · apply isWord_of_isAlpha
    rw [← Char.isLower_toLower_eq_isAlpha, h, hletter]
  · rw [Text.isWord, h, if_neg (by decide)]
    decide +kernel
  · rw [Text.isWord, h, if_neg (by decide)]
    decide +kernel

lemma folds_line {letter : Char} (hletter : letter.isLower = true) :
    Pattern.folds letter '\n' = false := by
  have hne : '\n' ≠ letter := by
    rintro rfl
    simp at hletter
  simp [Pattern.folds, hne]

lemma spells_word {letters : List Char} (hletters : ∀ c ∈ letters, c.isLower = true)
    (hrest : Apart rest) : Pattern.spells letters (w ++ rest) = Pattern.spells letters w := by
  induction letters generalizing w with
  | nil => simp [Pattern.spells]
  | cons letter letters ih =>
    simp only [List.forall_mem_cons] at hletters
    cases w with
    | cons c w => simp [Pattern.spells, ih hletters.2]
    | nil =>
      cases rest with
      | nil => rfl
      | cons c rest =>
        have hfolds : Pattern.folds letter c = false := by
          refine Bool.eq_false_iff.mpr fun h => ?_
          have hc := isWord_of_folds hletters.1 h
          simp [Apart, hc] at hrest
        simp [Pattern.spells, hfolds]

lemma length_le_of_spells {letters : List Char} (h : Pattern.spells letters cs = true) :
    letters.length ≤ cs.length := by
  induction letters generalizing cs with
  | nil => simp
  | cons letter letters ih =>
    cases cs with
    | nil => simp [Pattern.spells] at h
    | cons c cs =>
      simp only [Pattern.spells, Bool.and_eq_true] at h
      exact Nat.succ_le_succ (ih h.2)

lemma fixed_word (hletters : letters.toList.all Char.isLower = true) :
    Fixed (Pattern.word letters) := by
  intro w rest _ hrest
  simp only [Pattern.word, spells_word (List.all_eq_true.mp hletters) hrest]
  cases hspells : Pattern.spells letters.toList w with
  | false => rfl
  | true =>
    rw [List.drop_append_of_le_length (length_le_of_spells hspells)]
    cases hdrop : w.drop letters.toList.length with
    | nil =>
      unfold Apart at hrest
      simp [hrest]
    | cons => rfl

lemma eq_point_of_folds (h : Pattern.folds '.' c = true) : c = '.' := by
  have h : c.toLower = '.' := by simpa [Pattern.folds] using h
  have hupper : c.isUpper ≠ true := by
    intro hc
    have halpha : c.toLower.isAlpha = true := by simp [Char.isAlpha, hc]
    rw [h] at halpha
    exact absurd halpha (by decide)
  rwa [Char.toLower_eq_of_not_isUpper hupper] at h

lemma spelling_none (h : letters.toList.head? = some '.') (hc : Text.isWord c = true)
    (cs : List Char) : Pattern.spelling letters (c :: cs) = none := by
  obtain ⟨rest, hletters⟩ := List.head?_eq_some_iff.mp h
  have hfolds : Pattern.folds '.' c = false :=
    Bool.eq_false_iff.mpr fun h => ne_of_isWord hc (by decide) (eq_point_of_folds h)
  simp [Pattern.spelling, hletters, Pattern.spells, hfolds]

lemma fixed_spelling (h : letters.toList.head? = some '.') : Fixed (Pattern.spelling letters) :=
  fixed_of_none fun _ cs hc _ => spelling_none h hc cs

lemma span_word (hw : ∀ c ∈ w, Text.isWord c = true) (hrest : Apart rest) :
    span Text.isWord (w ++ rest) = w.length := by
  have hall : w.takeWhile Text.isWord = w := List.takeWhile_eq_self_iff.mpr hw
  have hnone : rest.takeWhile Text.isWord = [] := by
    cases rest with
    | nil => rfl
    | cons c rest => simpa [Apart] using hrest
  simp [span, List.takeWhile_append, hall, hnone]

lemma Wordy.span (hw : Wordy w) : Pattern.span Text.isWord w = w.length := by
  have hspan : Pattern.span Text.isWord (w ++ []) = w.length := span_word (fun _ => hw.isWord) rfl
  rwa [List.append_nil] at hspan

lemma fixed_name : Fixed (Pattern.many Text.isWord) := by
  intro w rest hw hrest
  rw [Pattern.many, Pattern.many, span_word (fun _ => hw.isWord) hrest, hw.span]

end Words

section Rules

lemma keyword_of_mem : ∀ rule ∈ Rule.firstWords ++ Rule.laterWords,
    ∃ spelling word, rule = .keyword spelling word ∧ spelling.toList ≠ [] ∧
      spelling.toList.all Char.isLower = true := by
  simp only [Rule.firstWords, Rule.laterWords, List.forall_mem_append, List.forall_mem_cons,
    List.not_mem_nil, false_imp_iff, implies_true, and_true, and_assoc]
  and_intros
  all_goals exact ⟨_, _, rfl, by decide, rfl⟩

/-- Every rule of the table is one of a keyword or a rule of the other three lists. -/
lemma table_cases {P : Rule → Prop} (hleading : ∀ rule ∈ Rule.leading, P rule)
    (hkeyword : ∀ spelling word, spelling.toList ≠ [] → spelling.toList.all Char.isLower = true →
      P (.keyword spelling word))
    (hconstants : ∀ rule ∈ Rule.constants, P rule) (htrailing : ∀ rule ∈ Rule.trailing, P rule) :
    ∀ rule ∈ Rule.table, P rule := by
  have hwords : ∀ rule ∈ Rule.firstWords ++ Rule.laterWords, P rule := by
    intro rule hrule
    obtain ⟨spelling, word, rfl, hne, hletters⟩ := keyword_of_mem rule hrule
    exact hkeyword spelling word hne hletters
  unfold Rule.table
  simp only [List.forall_mem_append] at hwords ⊢
  exact ⟨⟨⟨⟨hleading, hwords.1⟩, hconstants⟩, hwords.2⟩, htrailing⟩

/-- The patterns that look for an end of what they open. -/
inductive Opener : Pattern → Prop
  | comment : Opener Pattern.blockComment
  | double : Opener (Pattern.quoted '"')
  | single : Opener (Pattern.quoted Pattern.apostrophe)
  | raw : Opener Pattern.raw

lemma Opener.inner (h : Opener pattern) : Inner pattern := by
  cases h with
  | comment => exact inner_blockComment
  | double => exact inner_quoted (by decide) fun tail h c hc => (h c hc).1
  | single => exact inner_quoted (by decide) fun tail h c hc => (h c hc).2.1
  | raw => exact inner_raw

/-- What a rule does at the end of a text. -/
inductive Conduct (rule : Rule) : Prop
  | firm (h : Firm rule.pattern)
  | stretches (h : Stretches rule.pattern) (haction : rule.action = .separator)
  | opener (h : Opener rule.pattern)

/-- Every rule stops before the last line end of a text, but for the rules of separators, and only
the rules of comments and quoted texts look at what follows. -/
lemma table_conduct : ∀ rule ∈ Rule.table, Conduct rule := by
  have hword : ∀ letters : String, letters.toList.all Char.isLower = true →
      Firm (Pattern.word letters) :=
    fun _ hletters => firm_word fun c hc => folds_line (List.all_eq_true.mp hletters c hc)
  refine table_cases ?_ (fun _ _ _ hletters => .firm (hword _ hletters)) ?_ ?_
  · simp only [Rule.leading, List.forall_mem_cons, List.not_mem_nil, false_imp_iff, implies_true,
      and_true]
    exact ⟨.firm (firm_many rfl), .firm firm_lineComment, .opener .comment,
      .stretches stretches_semicolonBreak rfl, .firm (firm_one rfl), .stretches stretches_lines rfl,
      .firm firm_number, .opener .double, .opener .single, .opener .raw, .firm firm_comparison,
      .firm (firm_withEquals rfl), .firm (firm_either (firm_spelling rfl) (hword _ rfl)),
      .firm (firm_either (firm_spelling rfl) (hword _ rfl)), .firm (firm_one rfl)⟩
  · simp only [Rule.constants, List.forall_mem_cons, List.not_mem_nil, false_imp_iff, implies_true,
      and_true]
    exact ⟨.firm (firm_either (firm_spelling rfl) (firm_either (firm_spelling rfl) (hword _ rfl))),
      .firm (firm_either (firm_spelling rfl) (firm_either (firm_spelling rfl) (hword _ rfl))),
      .firm (firm_either (firm_spelling rfl) (hword _ rfl))⟩
  · simp only [Rule.trailing, List.forall_mem_cons, List.not_mem_nil, false_imp_iff, implies_true,
      and_true]
    exact ⟨.firm (firm_one rfl), .firm (firm_withEquals rfl), .firm (firm_one rfl),
      .firm (firm_one rfl), .firm (firm_many rfl), .firm (firm_one rfl), .firm (firm_one rfl),
      .firm (firm_one rfl), .firm (firm_one rfl), .firm (firm_one rfl), .firm (firm_one rfl),
      .firm (firm_one rfl), .firm (firm_one rfl), .firm (firm_one rfl)⟩

lemma table_fixed : ∀ rule ∈ Rule.table, Fixed rule.pattern := by
  have hmark : ∀ d, Text.isWord d = false → ∀ c, Text.isWord c = true → (c == d) = false :=
    fun d hd c hc => by simpa using ne_of_isWord hc hd
  have hone : ∀ d, Text.isWord d = false → Fixed (Pattern.one (· == d)) :=
    fun d hd => fixed_one (hmark d hd)
  have hmarks : ∀ d e, Text.isWord d = false → Text.isWord e = false →
      ∀ c, Text.isWord c = true → (c == d || c == e) = false :=
    fun d e hd he c hc => by simp [hmark d hd c hc, hmark e he c hc]
  refine table_cases ?_ (fun _ _ _ hletters => fixed_word hletters) ?_ ?_
  · simp only [Rule.leading, List.forall_mem_cons, List.not_mem_nil, false_imp_iff, implies_true,
      and_true]
    refine ⟨fixed_many fun c hc => not_isSpace_of_isWord hc, fixed_of_none fun c cs hc _ => ?_,
      fixed_of_none fun c cs hc _ => ?_, fixed_of_none fun c cs hc _ => ?_, hone _ (by decide),
      fixed_many (hmark _ (by decide)), fixed_of_none fun c cs hc hdigit => ?_,
      fixed_quoted (by decide), fixed_quoted (by decide), fixed_of_none fun c cs hc _ => ?_,
      fixed_of_none fun c cs hc _ => ?_, fixed_withEquals (hmarks _ _ (by decide) (by decide)),
      fixed_either (fixed_spelling rfl) (fixed_word rfl),
      fixed_either (fixed_spelling rfl) (fixed_word rfl), hone _ (by decide)⟩
    · simp [lineComment_cons, ne_of_isWord hc (d := '/') (by decide)]
    · simp [blockComment_cons, ne_of_isWord hc (d := '/') (by decide)]
    · simp [semicolonBreak_cons, ne_of_isWord hc (d := ';') (by decide)]
    · simp [Pattern.number, hdigit]
    · simp [Pattern.raw, ne_of_isWord hc (d := Pattern.backtick) (by decide)]
    · simp [Pattern.comparison, hmarks '<' '>' (by decide) (by decide) c hc]
  · simp only [Rule.constants, List.forall_mem_cons, List.not_mem_nil, false_imp_iff, implies_true,
      and_true]
    exact ⟨fixed_either (fixed_spelling rfl) (fixed_either (fixed_spelling rfl)
        (fixed_word rfl)),
      fixed_either (fixed_spelling rfl) (fixed_either (fixed_spelling rfl)
        (fixed_word rfl)),
      fixed_either (fixed_spelling rfl) (fixed_word rfl)⟩
  · simp only [Rule.trailing, List.forall_mem_cons, List.not_mem_nil, false_imp_iff, implies_true,
      and_true]
    refine ⟨hone _ (by decide), fixed_withEquals fun c hc => ?_,
      fixed_one (hmarks _ _ (by decide) (by decide)),
      fixed_one (hmarks _ _ (by decide) (by decide)), fixed_name, hone _ (by decide),
      hone _ (by decide), hone _ (by decide), hone _ (by decide), hone _ (by decide),
      hone _ (by decide), hone _ (by decide), hone _ (by decide), hone _ (by decide)⟩
    have hterm := hmarks '+' '-' (by decide) (by decide) c hc
    have hfactor := hmarks '*' '/' (by decide) (by decide) c hc
    grind

lemma findSome?_congr {α β : Type} {f g : α → Option β} {items : List α}
    (h : ∀ item ∈ items, f item = g item) : items.findSome? f = items.findSome? g := by
  induction items with
  | nil => rfl
  | cons item items ih =>
    simp only [List.forall_mem_cons] at h
    rw [List.findSome?_cons, List.findSome?_cons, h.1, ih h.2]

/-- The rule that matches at a text that ends its last line is not changed by what follows, if no
comment and no quoted text is opened or closed by it. -/
lemma first_append_of {tail : List Char} (hcs : Ended cs)
    (hopener : ∀ pattern, Opener pattern → pattern (cs ++ tail) = pattern cs) :
    Rule.first? (cs ++ tail) = (Rule.first? cs).map fun found =>
      (found.1, if found.2 = cs.length then found.2 + span (· == '\n') tail else found.2) := by
  unfold Rule.first?
  rw [List.map_findSome?]
  refine findSome?_congr fun rule hrule => ?_
  have hstretch : rule.pattern (cs ++ tail) = (rule.pattern cs).map
      (fun n => if n = cs.length then n + span (· == '\n') tail else n) := by
    cases table_conduct rule hrule with
    | firm h =>
      obtain ⟨heq, hlt⟩ := h cs tail hcs
      rw [heq, map_stretch hlt]
    | stretches h _ => exact (h cs tail hcs).1
    | opener h => rw [hopener _ h, map_stretch (h.inner cs [] hcs inert_nil).2]
  rw [hstretch, Function.comp_apply, Option.map_map, Option.map_map]
  rfl

lemma first_append {tail : List Char} (hcs : Ended cs) (htail : Inert tail) :
    Rule.first? (cs ++ tail) = (Rule.first? cs).map fun found =>
      (found.1, if found.2 = cs.length then found.2 + span (· == '\n') tail else found.2) :=
  first_append_of hcs fun _ h => (h.inner cs tail hcs htail).1

lemma match_of_first {rule : Rule} (h : Rule.first? cs = some (rule, n)) :
    rule ∈ Rule.table ∧ rule.pattern cs = some n := by
  obtain ⟨rule', hrule, hfound⟩ := List.exists_of_findSome?_eq_some h
  obtain ⟨m, hm, heq⟩ := Option.map_eq_some_iff.mp hfound
  obtain ⟨rfl, rfl⟩ := Prod.mk.inj heq
  exact ⟨hrule, hm⟩

/-- Only a separator takes the last line end. -/
lemma separator_of_first (hcs : Ended cs) {rule : Rule} (h : Rule.first? cs = some (rule, n)) :
    n ≤ cs.length ∧ (n = cs.length → rule.action = .separator) := by
  obtain ⟨hrule, hmatch⟩ := match_of_first h
  have hbefore (hlt : n < cs.length) :
      n ≤ cs.length ∧ (n = cs.length → rule.action = .separator) :=
    ⟨Nat.le_of_lt hlt, fun h => absurd h (Nat.ne_of_lt hlt)⟩
  cases table_conduct rule hrule with
  | firm h => exact hbefore ((h cs [] hcs).2 n hmatch)
  | stretches h haction => exact ⟨(h cs [] hcs).2 n hmatch, fun _ => haction⟩
  | opener h => exact hbefore ((h.inner cs [] hcs inert_nil).2 n hmatch)

/-- The rule that matches at a word is not changed by what follows the word. -/
lemma first_word (hw : Wordy w) (hrest : Apart rest) : Rule.first? (w ++ rest) = Rule.first? w := by
  refine findSome?_congr fun rule hrule => ?_
  rw [table_fixed rule hrule w rest hw hrest]

/-- A text that is scanned as a name. -/
structure IsName (w : List Char) : Prop extends Wordy w where
  first : Rule.first? w = some (⟨.many Text.isWord, .token .name .name none⟩, w.length)

end Rules

end XBase.Proofs
