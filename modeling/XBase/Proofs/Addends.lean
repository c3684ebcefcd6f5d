import Mathlib.Data.Bool.AllAny
import Mathlib.Data.List.TakeWhile
import Mathlib.Tactic.Lemma
import XBase.Run.Operator

/-!
# What counts as a number in a sum

A number takes as its addend whatever reads as a number. The reader of decimals accepts more words
than a sum does, and the check in front of it looks at one letter only. Together they accept the
texts of one grammar: a signed decimal, or one of two words, with blanks around.
-/

namespace XBase

def IsSign (cs : List Char) : Prop :=
  cs = [] ∨ cs = ['+'] ∨ cs = ['-']

/-- Digits, of which there is at least one. -/
def IsDigits (cs : List Char) : Prop :=
  cs ≠ [] ∧ ∀ c ∈ cs, c.isDigit = true

inductive IsExponent : List Char → Prop
  | none : IsExponent []
  | some {mark : Char} {sign digits : List Char} (hmark : mark = 'e' ∨ mark = 'E')
      (hsign : IsSign sign) (hdigits : IsDigits digits) : IsExponent (mark :: (sign ++ digits))

/-- Digits with at most one point, before, between or behind them, and an optional exponent. -/
inductive IsNumeral : List Char → Prop
  | whole {digits exponent : List Char} (h : IsDigits digits) (hexponent : IsExponent exponent) :
      IsNumeral (digits ++ exponent)
  | pointed {before behind exponent : List Char} (h : IsDigits (before ++ behind))
      (hexponent : IsExponent exponent) : IsNumeral (before ++ '.' :: (behind ++ exponent))

/-- A numeral, or one of the two words for numbers that have none. -/
def IsUnsigned (cs : List Char) : Prop :=
  IsNumeral cs ∨ cs = "Infinity".toList ∨ cs = "NaN".toList

/-- A text that adds a number to a sum. -/
inductive IsAddend : List Char → Prop
  | mk {before sign unsigned behind : List Char} (hbefore : ∀ c ∈ before, Text.isBlank c = true)
      (hsign : IsSign sign) (hunsigned : IsUnsigned unsigned)
      (hbehind : ∀ c ∈ behind, Text.isBlank c = true) :
      IsAddend (before ++ (sign ++ unsigned) ++ behind)

namespace Proofs

section Blanks

lemma dropWhile_blank {before core : List Char} (hbefore : ∀ c ∈ before, Text.isBlank c = true)
    (hcore : ∀ c ∈ core.head?, Text.isBlank c = false) :
    (before ++ core).dropWhile Text.isBlank = core := by
  rw [List.dropWhile_append_of_pos hbefore]
  cases core with
  | nil => rfl
  | cons c core => rw [List.dropWhile_cons_of_neg (by simp [hcore c rfl])]

lemma trimChars_eq {before core behind : List Char} (hbefore : ∀ c ∈ before, Text.isBlank c = true)
    (hne : core ≠ []) (hcore : ∀ c ∈ core, Text.isBlank c = false)
    (hbehind : ∀ c ∈ behind, Text.isBlank c = true) :
    Text.trimChars (before ++ core ++ behind) = core := by
  have hhead : ∀ c ∈ (core ++ behind).head?, Text.isBlank c = false := by
    intro c hc
    obtain ⟨d, ds, rfl⟩ := List.exists_cons_of_ne_nil hne
    exact hcore c (List.mem_of_mem_head? hc)
  rw [Text.trimChars, List.append_assoc, dropWhile_blank hbefore hhead, List.reverse_append,
    dropWhile_blank, List.reverse_reverse]
  · simpa using hbehind
  · intro c hc
    exact hcore c (List.mem_reverse.mp (List.mem_of_mem_head? hc))

lemma trimChars_splits (cs : List Char) : ∃ before behind,
    cs = before ++ Text.trimChars cs ++ behind ∧
      (∀ c ∈ before, Text.isBlank c = true) ∧ ∀ c ∈ behind, Text.isBlank c = true := by
  have hright := congrArg List.reverse (List.takeWhile_append_dropWhile (p := Text.isBlank)
    (l := (cs.dropWhile Text.isBlank).reverse))
  rw [List.reverse_append, List.reverse_reverse] at hright
  refine ⟨cs.takeWhile Text.isBlank,
    ((cs.dropWhile Text.isBlank).reverse.takeWhile Text.isBlank).reverse, ?_, ?_, ?_⟩
  · rw [List.append_assoc, Text.trimChars, hright, List.takeWhile_append_dropWhile]
  · exact fun c => List.mem_takeWhile_imp
  · exact fun c hc => List.mem_takeWhile_imp (List.mem_reverse.mp hc)

end Blanks

variable {cs : List Char} {c : Char}

section Grammar

lemma splitSign_eq (cs : List Char) : ∃ sign, IsSign sign ∧ cs = sign ++ (Decimal.splitSign cs).2 := by
  unfold Decimal.splitSign
  split
  · exact ⟨['-'], by simp [IsSign], rfl⟩
  · exact ⟨['+'], by simp [IsSign], rfl⟩
  · exact ⟨[], by simp [IsSign], rfl⟩

/-- A sign belongs to what starts with none. -/
lemma splitSign_append {sign : List Char} (hsign : IsSign sign)
    (hcs : ∀ c ∈ cs.head?, c ≠ '+' ∧ c ≠ '-') : (Decimal.splitSign (sign ++ cs)).2 = cs := by
  rcases hsign with rfl | rfl | rfl
  · cases cs with
    | nil => rfl
    | cons c cs =>
      obtain ⟨hplus, hminus⟩ := hcs c rfl
      rw [List.nil_append, Decimal.splitSign]
      · exact fun _ h => by simp_all
      · exact fun _ h => by simp_all
  · rfl
  · rfl

lemma digits_unmarked (h : IsDigits cs) : ∀ c ∈ cs.head?, c ≠ '+' ∧ c ≠ '-' := by
  intro c hc
  have hdigit := h.2 c (List.mem_of_mem_head? hc)
  constructor <;> rintro rfl <;> cases hdigit

lemma readExponent_isSome (cs : List Char) : (Decimal.readExponent cs).isSome ↔ IsExponent cs := by
  constructor
  · intro h
    unfold Decimal.readExponent at h
    split at h
    · exact .none
    · next mark cs =>
      obtain ⟨sign, hsign, hcs⟩ := splitSign_eq cs
      generalize Decimal.splitSign cs = split at h hcs
      subst hcs
      split at h
      · next hmark =>
        refine .some (by simpa using hmark) hsign ⟨?_, ?_⟩
        all_goals simp_all
      · cases h
  · rintro (_ | ⟨hmark, hsign, hdigits⟩)
    · rfl
    · have hsplit := splitSign_append hsign (digits_unmarked hdigits)
      have hall := hdigits.2
      simp_all [Decimal.readExponent, hdigits.1]

lemma exponent_head (h : IsExponent cs) : ∀ c ∈ cs.head?, c.isDigit = false ∧ c ≠ '.' := by
  rcases h with _ | ⟨rfl | rfl, -, -⟩ <;> simp [Char.isDigit]

lemma span_digits {digits rest : List Char} (hdigits : ∀ c ∈ digits, c.isDigit = true)
    (hrest : ∀ c ∈ rest.head?, c.isDigit = false) :
    (digits ++ rest).takeWhile Char.isDigit = digits ∧
      (digits ++ rest).dropWhile Char.isDigit = rest := by
  rw [List.takeWhile_append_of_pos hdigits, List.dropWhile_append_of_pos hdigits]
  cases rest with
  | nil => simp
  | cons c rest => simp [hrest c rfl]

lemma isSome_numeral {whole fraction rest : List Char} {f : Int → Decimal.Numeral} :
    (if whole.isEmpty && fraction.isEmpty then none
      else (Decimal.readExponent rest).map f).isSome ↔
      whole ++ fraction ≠ [] ∧ IsExponent rest := by
  rw [← readExponent_isSome]
  split <;> simp_all

lemma readNumeral_pointed {behind : List Char} (h : cs.dropWhile Char.isDigit = '.' :: behind) :
    (Decimal.readNumeral cs).isSome ↔
      cs.takeWhile Char.isDigit ++ behind.takeWhile Char.isDigit ≠ [] ∧
        IsExponent (behind.dropWhile Char.isDigit) := by
  rw [Decimal.readNumeral, h]
  exact isSome_numeral

lemma readNumeral_whole (h : ∀ behind, cs.dropWhile Char.isDigit ≠ '.' :: behind) :
    (Decimal.readNumeral cs).isSome ↔
      cs.takeWhile Char.isDigit ≠ [] ∧ IsExponent (cs.dropWhile Char.isDigit) := by
  rw [Decimal.readNumeral]
  split
  next hparts =>
  split at hparts
  · next behind hbehind => exact absurd hbehind (h behind)
  · cases hparts
    rw [isSome_numeral, List.append_nil]

lemma readNumeral_isSome (cs : List Char) : (Decimal.readNumeral cs).isSome ↔ IsNumeral cs := by
  have hdigits (ds : List Char) : ∀ c ∈ ds.takeWhile Char.isDigit, c.isDigit = true :=
    fun c => List.mem_takeWhile_imp
  have hsplit (ds : List Char) := List.takeWhile_append_dropWhile (p := Char.isDigit) (l := ds)
  constructor
  · intro h
    by_cases hpoint : ∃ behind, cs.dropWhile Char.isDigit = '.' :: behind
    · obtain ⟨behind, hbehind⟩ := hpoint
      obtain ⟨hne, hexponent⟩ := (readNumeral_pointed hbehind).mp h
      rw [← hsplit cs, hbehind, ← hsplit behind]
      exact .pointed ⟨hne, List.forall_mem_append.mpr ⟨hdigits _, hdigits _⟩⟩ hexponent
    · obtain ⟨hne, hexponent⟩ := (readNumeral_whole (not_exists.mp hpoint)).mp h
      rw [← hsplit cs]
      exact .whole ⟨hne, hdigits _⟩ hexponent
  · rintro (⟨h, hexponent⟩ | ⟨h, hexponent⟩)
    · obtain ⟨htake, hdrop⟩ := span_digits h.2 fun c hc => (exponent_head hexponent c hc).1
      rw [readNumeral_whole, htake, hdrop]
      · exact ⟨h.1, hexponent⟩
      · intro behind hbehind
        rw [← hdrop, hbehind] at hexponent
        exact (exponent_head hexponent _ rfl).2 rfl
    · obtain ⟨hbefore, hbehind⟩ := List.forall_mem_append.mp h.2
      have hpoint (ds : List Char) : ∀ c ∈ ('.' :: ds).head?, c.isDigit = false := by simp
      obtain ⟨htake, hdrop⟩ := span_digits hbefore (hpoint _)
      obtain ⟨htake', hdrop'⟩ := span_digits hbehind fun c hc => (exponent_head hexponent c hc).1
      rw [readNumeral_pointed hdrop, htake, htake', hdrop']
      exact ⟨h.1, hexponent⟩

end Grammar

section Addends

/-- A character that may stand in an addend is no blank and no underscore. -/
def Solid (c : Char) : Prop :=
  Text.isBlank c = false ∧ c ≠ '_'

instance (c : Char) : Decidable (Solid c) :=
  inferInstanceAs (Decidable (_ ∧ _))

lemma solid_of_digit : ∀ n : Fin 10,
    (Char.ofNat (48 + n)).isAlpha = false ∧ Solid (Char.ofNat (48 + n)) := by
  decide

lemma digit_cases (h : c.isDigit = true) : c.isAlpha = false ∧ Solid c := by
  have hbounds : 48 ≤ c.toNat ∧ c.toNat ≤ 57 := by
    simpa [Char.isDigit, UInt32.le_iff_toNat_le] using h
  have hc := solid_of_digit ⟨c.toNat - 48, by omega⟩
  rwa [Nat.add_sub_cancel' hbounds.1, Char.ofNat_toNat] at hc

lemma solid_digits (h : ∀ c ∈ cs, c.isDigit = true) : ∀ c ∈ cs, Solid c :=
  fun c hc => (digit_cases (h c hc)).2

lemma solid_sign (h : IsSign cs) : ∀ c ∈ cs, Solid c := by
  rcases h with rfl | rfl | rfl <;> exact List.all_iff_forall_prop.mp (by decide)

lemma solid_exponent (h : IsExponent cs) : ∀ c ∈ cs, Solid c := by
  rcases h with _ | ⟨hmark, hsign, hdigits⟩
  · simp
  · refine List.forall_mem_cons.mpr ⟨?_, List.forall_mem_append.mpr
      ⟨solid_sign hsign, solid_digits hdigits.2⟩⟩
    rcases hmark with rfl | rfl <;> decide

lemma solid_unsigned (h : IsUnsigned cs) : ∀ c ∈ cs, Solid c := by
  rcases h with (⟨h, hexponent⟩ | ⟨h, hexponent⟩) | rfl | rfl
  · exact List.forall_mem_append.mpr ⟨solid_digits h.2, solid_exponent hexponent⟩
  · obtain ⟨hbefore, hbehind⟩ := List.forall_mem_append.mp h.2
    exact List.forall_mem_append.mpr ⟨solid_digits hbefore, List.forall_mem_cons.mpr
      ⟨by decide, List.forall_mem_append.mpr ⟨solid_digits hbehind, solid_exponent hexponent⟩⟩⟩
  · exact List.all_iff_forall_prop.mp (by decide)
  · exact List.all_iff_forall_prop.mp (by decide)

lemma numeral_head (h : IsNumeral cs) :
    ∃ c rest, cs = c :: rest ∧ (c = '.' ∨ c.isDigit = true) := by
  rcases h with ⟨⟨hne, hdigits⟩, -⟩ | @⟨before, behind, exponent, ⟨-, hdigits⟩, -⟩
  · obtain ⟨c, rest, rfl⟩ := List.exists_cons_of_ne_nil hne
    exact ⟨c, _, rfl, .inr (hdigits c List.mem_cons_self)⟩
  · cases before with
    | nil => exact ⟨'.', _, rfl, .inl rfl⟩
    | cons c before => exact ⟨c, _, rfl, .inr (hdigits c List.mem_cons_self)⟩

/-- Only the two words start with a letter, and nothing starts with another sign. -/
lemma unsigned_head (h : IsUnsigned cs) :
    ∃ c rest, cs = c :: rest ∧ c ≠ '+' ∧ c ≠ '-' ∧
      (c.isAlpha = true → cs = "Infinity".toList ∨ cs = "NaN".toList) := by
  rcases h with h | rfl | rfl
  · obtain ⟨c, rest, rfl, rfl | hdigit⟩ := numeral_head h
    · exact ⟨'.', rest, rfl, by decide, by decide, fun halpha => absurd halpha (by decide)⟩
    · refine ⟨c, rest, rfl, ?_, ?_, fun halpha => ?_⟩
      · rintro rfl
        cases hdigit
      · rintro rfl
        cases hdigit
      · rw [(digit_cases hdigit).1] at halpha
        cases halpha
  · exact ⟨'I', _, rfl, by decide, by decide, fun _ => .inl rfl⟩
  · exact ⟨'N', _, rfl, by decide, by decide, fun _ => .inr rfl⟩

lemma toLower_eq (h : c.isAlpha = false) : c.toLower = c := by
  refine dif_neg fun hupper => ?_
  have hc : c.isUpper = true := decide_eq_true hupper
  have hnone : c.isUpper = false := (Bool.or_eq_false_iff.mp h).1
  exact absurd hc (Bool.eq_false_iff.mp hnone)

lemma readWord_eq_none (h : c.isAlpha = false) (cs : List Char) :
    Decimal.readWord (c :: cs) = none := by
  have hne (d : Char) (ds : List Char) (hd : d.isAlpha = true) :
      (String.ofList ((c :: cs).map Char.toLower) == String.ofList (d :: ds)) = false := by
    rw [beq_eq_false_iff_ne, ne_eq, String.ofList_inj, List.map_cons, toLower_eq h, List.cons.injEq]
    rintro ⟨rfl, -⟩
    rw [hd] at h
    cases h
  have hinf := hne 'i' ['n', 'f'] rfl
  have hinfinity := hne 'i' "nfinity".toList rfl
  have hnan := hne 'n' ['a', 'n'] rfl
  rw [Decimal.readWord]
  simp_all

lemma read?_isSome (cs : List Char) : (Decimal.read? cs).isSome ↔
    (Decimal.readWord (Decimal.splitSign cs).2).isSome ∨
      (Decimal.readNumeral (Decimal.splitSign cs).2).isSome := by
  simp [Decimal.read?, Option.isSome_or]

lemma readAddend_isSome (cs : List Char) :
    (readAddend cs).isSome ↔ IsUnsigned (Decimal.splitSign (Text.trimChars cs)).2 := by
  have hread := read?_isSome (Text.trimChars cs)
  simp only [readAddend]
  generalize Text.trimChars cs = trimmed at hread ⊢
  generalize Decimal.read? trimmed = result at hread ⊢
  generalize (Decimal.splitSign trimmed).2 = unsigned at hread ⊢
  rw [readNumeral_isSome] at hread
  cases unsigned with
  | nil =>
    refine iff_of_false Bool.false_ne_true fun h => ?_
    obtain ⟨c, rest, hnil, -⟩ := unsigned_head h
    cases hnil
  | cons c rest =>
    dsimp only
    split
    case isTrue hrefused =>
      obtain ⟨⟨halpha, hinfinity⟩, hnan⟩ : (c.isAlpha = true ∧ c :: rest ≠ "Infinity".toList) ∧
          c :: rest ≠ "NaN".toList := by
        simpa only [Bool.and_eq_true, bne_iff_ne] using hrefused
      refine iff_of_false Bool.false_ne_true fun h => ?_
      obtain ⟨_, _, hcons, -, -, hwords⟩ := unsigned_head h
      cases hcons
      exact (hwords halpha).elim hinfinity hnan
    case isFalse hkept =>
      rw [hread, IsUnsigned, or_comm]
      refine or_congr_right ?_
      cases halpha : c.isAlpha with
      | false =>
        rw [readWord_eq_none halpha]
        refine iff_of_false Bool.false_ne_true fun hword => ?_
        rcases hword with hword | hword
        all_goals
          cases hword
          cases halpha
      | true =>
        have hword : c :: rest = "Infinity".toList ∨ c :: rest = "NaN".toList := by
          by_contra hother
          rw [not_or] at hother
          exact hkept (by
            simp only [halpha, bne_iff_ne.mpr hother.1, bne_iff_ne.mpr hother.2, Bool.and_self])
        refine iff_of_true ?_ hword
        rcases hword with hword | hword
        all_goals rw [hword]; rfl

lemma isAddend_iff (cs : List Char) :
    IsAddend cs ↔ IsUnsigned (Decimal.splitSign (Text.trimChars cs)).2 := by
  constructor
  · rintro ⟨hbefore, hsign, hunsigned, hbehind⟩
    obtain ⟨c, rest, hcons, hplus, hminus, -⟩ := unsigned_head hunsigned
    have hsolid := List.forall_mem_append.mpr ⟨solid_sign hsign, solid_unsigned hunsigned⟩
    rw [trimChars_eq hbefore _ (fun c hc => (hsolid c hc).1) hbehind, splitSign_append hsign]
    · exact hunsigned
    · simpa [hcons] using And.intro hplus hminus
    · simp [hcons]
  · intro h
    obtain ⟨before, behind, hcs, hbefore, hbehind⟩ := trimChars_splits cs
    obtain ⟨sign, hsign, htrimmed⟩ := splitSign_eq (Text.trimChars cs)
    rw [hcs, htrimmed]
    exact ⟨hbefore, hsign, h, hbehind⟩

lemma underscore_refused (h : '_' ∈ cs) : ¬ IsAddend cs := by
  rintro ⟨hbefore, hsign, hunsigned, hbehind⟩
  rw [List.mem_append, List.mem_append, List.mem_append] at h
  rcases h with (h | h | h) | h
  · cases hbefore _ h
  · exact (solid_sign hsign _ h).2 rfl
  · exact (solid_unsigned hunsigned _ h).2 rfl
  · cases hbehind _ h

lemma addend_text {right : Value}
    (h : (∀ n, right ≠ .number n) ∧ right ≠ .null ∧ ∀ b, right ≠ .boolean b) (heap : Heap) :
    heap.addend right = readAddend (heap.text right).toList := by
  unfold Heap.addend
  split <;> simp_all

lemma addend_eq_none_iff (heap : Heap) (right : Value) : heap.addend right = none ↔
    ((∀ n, right ≠ .number n) ∧ right ≠ .null ∧ ∀ b, right ≠ .boolean b) ∧
      ¬ IsAddend (heap.text right).toList := by
  have hread : readAddend (heap.text right).toList = none ↔ ¬ IsAddend (heap.text right).toList := by
    rw [isAddend_iff, ← readAddend_isSome, Option.not_isSome_iff_eq_none]
  unfold Heap.addend
  split <;> simp_all

end Addends

/-- A text is a number for a sum exactly if it is one of the grammar, so every other spelling of a
word, a second sign and an underscore are refused. A number on the left always has a sum: it stays
as it is exactly if the right side is no number, no null, no boolean and has no such text. Otherwise
a number is added itself, null and a boolean are added as zero or one, and else the text is read. -/
theorem sums_read_their_grammar :
    (∀ cs, (readAddend cs).isSome ↔ IsAddend cs) ∧
      (∀ cs sign c rest, Text.trimChars cs = sign ++ c :: rest → IsSign sign → c.isAlpha = true →
        c :: rest ≠ "Infinity".toList → c :: rest ≠ "NaN".toList → readAddend cs = none) ∧
      (∀ cs a b rest, Text.trimChars cs = a :: b :: rest → IsSign [a] → IsSign [b] →
        readAddend cs = none) ∧
      (∀ cs, '_' ∈ cs → readAddend cs = none) ∧
      (∀ (heap : Heap) (right : Value), heap.addend right = none ↔
        ((∀ n, right ≠ .number n) ∧ right ≠ .null ∧ ∀ b, right ≠ .boolean b) ∧
          ¬ IsAddend (heap.text right).toList) ∧
      (∀ (heap : Heap) (l : Float) (right : Value), heap.binary .plus (.number l) right =
        .ok (.number (((heap.addend right).map (l + ·)).getD l))) ∧
      ∀ heap : Heap, (∀ n, heap.addend (.number n) = some n) ∧ heap.addend .null = some 0 ∧
        (∀ b, heap.addend (.boolean b) = some (if b then 1 else 0)) ∧
        ∀ right, ((∀ n, right ≠ .number n) ∧ right ≠ .null ∧ ∀ b, right ≠ .boolean b) →
          heap.addend right = readAddend (heap.text right).toList := by
  have hgrammar (cs : List Char) : (readAddend cs).isSome ↔ IsAddend cs := by
    rw [isAddend_iff, readAddend_isSome]
  have hrefused {cs : List Char} (h : ¬ IsAddend cs) : readAddend cs = none :=
    Option.not_isSome_iff_eq_none.mp (mt (hgrammar cs).mp h)
  refine ⟨hgrammar, ?_, ?_, fun cs h => hrefused (underscore_refused h), addend_eq_none_iff, ?_, ?_⟩
  · intro cs sign c rest htrimmed hsign halpha hinfinity hnan
    refine hrefused fun h => ?_
    rw [isAddend_iff, htrimmed, splitSign_append hsign] at h
    · obtain ⟨_, _, hcons, -, -, hwords⟩ := unsigned_head h
      cases hcons
      exact (hwords halpha).elim hinfinity hnan
    · rintro _ ⟨⟩
      constructor <;> rintro rfl <;> cases halpha
  · intro cs a b rest htrimmed ha hb
    refine hrefused fun h => ?_
    rw [isAddend_iff, htrimmed] at h
    have hunsigned : IsUnsigned (b :: rest) := by
      rcases ha with ha | ha | ha <;> cases ha <;> exact h
    obtain ⟨_, _, hcons, hplus, hminus, -⟩ := unsigned_head hunsigned
    cases hcons
    rcases hb with hb | hb | hb
    · cases hb
    · exact hplus (List.head_eq_of_cons_eq hb)
    · exact hminus (List.head_eq_of_cons_eq hb)
  · intro heap l right
    rw [Heap.binary, Heap.add]
    cases heap.addend right <;> rfl
  · intro heap
    refine ⟨fun n => rfl, rfl, fun b => ?_, fun right h => addend_text h heap⟩
    cases b <;> rfl

theorem spelled_sums :
    (readAddend "\t-.5e+3 ".toList).isSome ∧ readAddend " +nan".toList = none ∧
      readAddend "+-1".toList = none ∧ readAddend "1_000".toList = none ∧
      Heap.binary ⟨#[], #[], #[], #[], #[]⟩ .plus (.number 2) (.text "1_000") = .ok (.number 2) ∧
      Heap.binary ⟨#[], #[], #[], #[], #[]⟩ .plus (.number 2) (.boolean true) =
        .ok (.number (2 + 1)) := by
  obtain ⟨hgrammar, hwords, hsigns, hunderscore, hfallback, hsum, hadded⟩ := sums_read_their_grammar
  refine ⟨(hgrammar _).mpr ?_, ?_, ?_, hunderscore _ (by decide), ?_, ?_⟩
  · have hexponent : IsExponent ('e' :: (['+'] ++ ['3'])) :=
      .some (.inl rfl) (.inr (.inl rfl)) ⟨by decide, by simp⟩
    have hnumeral : IsNumeral ([] ++ '.' :: (['5'] ++ _)) := .pointed ⟨by decide, by simp⟩ hexponent
    have haddend : IsAddend (['\t'] ++ (['-'] ++ _) ++ [' ']) :=
      ⟨by simp [Text.isBlank], .inr (.inr rfl), .inl hnumeral, by simp [Text.isBlank]⟩
    exact haddend
  · exact hwords _ ['+'] 'n' ['a', 'n'] (by decide) (.inr (.inl rfl)) rfl (by decide) (by decide)
  · exact hsigns _ '+' '-' ['1'] (by decide) (.inr (.inl rfl)) (.inr (.inr rfl))
  · rw [hsum, (hfallback _ _).mpr ⟨by simp, underscore_refused (by decide)⟩]
    rfl
  · rw [hsum, (hadded _).2.2.1]
    rfl

end Proofs

end XBase
