import Mathlib.Tactic.Lemma
import XBase.Text.Case

/-!
# Lowercase forms are settled

A lowercase form holds no capital, so that it is its own lowercase form. A chain of scopes may
therefore bring a name to lowercase once or at every scope.
-/

namespace XBase.Text

def CaseRun.image (run : CaseRun) : CaseRun :=
  ⟨(run.first + run.shift).toNat, (run.last + run.shift).toNat, run.step, 0⟩

/-- Whether two runs lie apart: one ends before the other begins, or they take turns. -/
def CaseRun.apart (run other : CaseRun) : Bool :=
  Nat.blt run.last other.first || Nat.blt other.last run.first ||
    ((run.step == 2 || run.first == run.last) && other.step == 2 &&
      (run.first + other.first) % 2 == 1)

/-- Whether a run becomes characters beyond ASCII other than the dotted capital I, or the `k` that
the Kelvin sign becomes. -/
def CaseRun.lands (run : CaseRun) : Bool :=
  (run.first == 0x212A && run.last == 0x212A && run.shift == -0x20BF) ||
    (128 ≤ run.first + run.shift && run.last + run.shift < 0x110000 &&
      (run.last + run.shift < 0xD800 || 0xDFFF < run.first + run.shift) &&
      run.image.apart ⟨0x130, 0x130, 1, 0⟩)

end XBase.Text

namespace XBase.Proofs

open Text

variable {n : Nat} {c d : Char} {before cs : List Char}

section Tables

lemma capitals_apart : ∀ run ∈ capitalsLow ++ capitalsHigh,
    ∀ other ∈ capitalsLow ++ capitalsHigh, run.image.apart other = true := by
  simp only [← List.all_eq_true]
  decide +kernel

lemma capitals_land : ∀ run ∈ capitalsLow ++ capitalsHigh, run.lands = true := by
  simp only [← List.all_eq_true]
  decide +kernel

/-- A capital becomes no character of a run that lies apart from what its own run becomes. -/
lemma not_holds_of_apart {run other : CaseRun} (hshift : 0 ≤ run.first + run.shift)
    (hn : run.holds n = true) (h : run.image.apart other = true) :
    other.holds (n + run.shift).toNat = false := by
  rw [← Bool.not_eq_true]
  intro hholds
  simp only [CaseRun.holds, CaseRun.apart, CaseRun.image, Bool.and_eq_true, Bool.or_eq_true,
    decide_eq_true_eq, beq_iff_eq, Nat.blt_eq] at hn h hholds
  obtain ⟨⟨hfirst, hlast⟩, hstep⟩ := hn
  obtain ⟨⟨hfirst', hlast'⟩, hstep'⟩ := hholds
  rcases h with (h | h) | ⟨⟨h | h, htwo⟩, hodd⟩
  · omega
  · omega
  · rw [h] at hstep
    rw [htwo] at hstep'
    omega
  · rw [htwo] at hstep'
    omega

end Tables

section Settled

/-- A character that is its own lowercase form wherever it stands. -/
def Settled (c : Char) : Prop :=
  c.toNat ≠ 0x3A3 ∧ lowerChar c = [c]

instance (c : Char) : Decidable (Settled c) :=
  inferInstanceAs (Decidable (_ ∧ _))

lemma settled_ascii : ∀ n : Fin 128, Settled (Char.ofNat n).toLower := by
  decide +kernel

lemma settled_of_find_none (hascii : ¬c.toNat < 128) (hdotted : c.toNat ≠ 0x130)
    (hnone : (capitalsLow ++ capitalsHigh).find? (·.holds c.toNat) = none) : Settled c := by
  constructor
  · intro hsigma
    rw [hsigma] at hnone
    revert hnone
    decide +kernel
  · unfold lowerChar
    rw [if_neg hascii, if_neg hdotted, hnone]

lemma toNat_ofNat (h : n.isValidChar) : (Char.ofNat n).toNat = n := by
  rw [Char.ofNat, dif_pos h]
  rfl

/-- What a capital of the tables becomes is in no run of the tables. -/
lemma settled_shifted {run : CaseRun} (hrun : run ∈ capitalsLow ++ capitalsHigh)
    (hn : run.holds n = true) : Settled (Char.ofNat (n + run.shift).toNat) := by
  have hlands := capitals_land run hrun
  simp only [CaseRun.lands, Bool.or_eq_true, Bool.and_eq_true, decide_eq_true_eq,
    beq_iff_eq] at hlands
  have hbounds := hn
  simp only [CaseRun.holds, Bool.and_eq_true, decide_eq_true_eq] at hbounds
  rcases hlands with ⟨⟨hfirst, hlast⟩, hshift⟩ | ⟨⟨⟨hlow, hhigh⟩, hsurrogate⟩, hdotted⟩
  · have hk : (n + run.shift).toNat = 0x6B := by omega
    rw [hk]
    decide +kernel
  · have hvalid : (n + run.shift).toNat.isValidChar := by
      unfold Nat.isValidChar
      omega
    have hnat := toNat_ofNat hvalid
    have hapart : ∀ other : CaseRun, run.image.apart other = true →
        other.holds (n + run.shift).toNat = false :=
      fun other => not_holds_of_apart (by omega) hn
    apply settled_of_find_none
    · omega
    · intro h
      have hdotless := hapart _ hdotted
      rw [← hnat, h] at hdotless
      exact absurd hdotless (by decide)
    · rw [List.find?_eq_none, hnat]
      intro other hother
      simp [hapart other (capitals_apart run hrun other hother)]

lemma lowerChar_cases (h : d ∈ lowerChar c) :
    (c.toNat < 128 ∧ d = c.toLower) ∨ (d = 'i' ∨ d = Char.ofNat 0x307) ∨ (Settled c ∧ d = c) ∨
      ∃ run ∈ capitalsLow ++ capitalsHigh, run.holds c.toNat = true ∧
        d = Char.ofNat (c.toNat + run.shift).toNat := by
  unfold lowerChar at h
  by_cases hascii : c.toNat < 128
  · rw [if_pos hascii, List.mem_singleton] at h
    exact .inl ⟨hascii, h⟩
  rw [if_neg hascii] at h
  by_cases hdotted : c.toNat = 0x130
  · rw [if_pos hdotted] at h
    simp only [List.mem_cons, List.not_mem_nil, or_false] at h
    exact .inr (.inl h)
  rw [if_neg hdotted] at h
  cases hfind : (capitalsLow ++ capitalsHigh).find? (·.holds c.toNat) with
  | none =>
    rw [hfind, List.mem_singleton] at h
    exact .inr (.inr (.inl ⟨settled_of_find_none hascii hdotted hfind, h⟩))
  | some run =>
    rw [hfind, List.mem_singleton] at h
    have hholds := List.find?_some hfind
    exact .inr (.inr (.inr ⟨run, List.mem_of_find?_eq_some hfind, hholds, h⟩))

lemma settled_lowerChar (h : d ∈ lowerChar c) : Settled d := by
  rcases lowerChar_cases h with ⟨hascii, rfl⟩ | (rfl | rfl) | ⟨hc, rfl⟩ | ⟨run, hrun, hholds, rfl⟩
  · have hd := settled_ascii ⟨c.toNat, hascii⟩
    rwa [Char.ofNat_toNat] at hd
  · decide +kernel
  · decide +kernel
  · exact hc
  · exact settled_shifted hrun hholds

lemma settled_lowerFrom : ∀ d ∈ lowerFrom before cs, Settled d := by
  induction cs generalizing before with
  | nil => simp [lowerFrom]
  | cons c after ih =>
    intro d hd
    rw [lowerFrom, List.mem_append] at hd
    rcases hd with hd | hd
    · by_cases hsigma : c.toNat = 0x3A3
      · rw [if_pos hsigma, List.mem_singleton] at hd
        rw [hd]
        split
        · decide +kernel
        · decide +kernel
      · rw [if_neg hsigma] at hd
        exact settled_lowerChar hd
    · exact ih d hd

lemma lowerFrom_settled (h : ∀ c ∈ cs, Settled c) : lowerFrom before cs = cs := by
  induction cs generalizing before with
  | nil => rfl
  | cons c after ih =>
    obtain ⟨hsigma, hlower⟩ := h c List.mem_cons_self
    have hafter : ∀ before, lowerFrom before after = after :=
      fun before => ih fun d hd => h d (List.mem_cons_of_mem _ hd)
    simp only [lowerFrom, if_neg hsigma, hlower, hafter, List.singleton_append]

@[simp] lemma lower_lower (s : String) : lower (lower s) = lower s := by
  unfold lower
  rw [String.toList_ofList, lowerFrom_settled settled_lowerFrom]

end Settled

section Underscore

/-- A character of ASCII comes from one, except for the two letters that others become. -/
lemma ascii_of_mem_lowerChar (h : d ∈ lowerChar c) (hd : d.toNat < 128) (hi : d ≠ 'i')
    (hk : d ≠ 'k') : c.toNat < 128 ∧ d = c.toLower := by
  rcases lowerChar_cases h with hascii | hdotted | ⟨hc, rfl⟩ | ⟨run, hrun, hholds, hshift⟩
  · exact hascii
  · rcases hdotted with rfl | rfl
    · exact absurd rfl hi
    · exact absurd hd (by decide)
  · have hlower : lowerChar d = [d.toLower] := if_pos hd
    exact ⟨hd, List.mem_singleton.mp (hlower ▸ h)⟩
  · have hlands := capitals_land run hrun
    simp only [CaseRun.lands, CaseRun.holds, Bool.or_eq_true, Bool.and_eq_true, decide_eq_true_eq,
      beq_iff_eq] at hlands hholds
    have hnat : (c.toNat + run.shift).toNat.isValidChar := by
      unfold Nat.isValidChar
      omega
    have hcode : d.toNat = (c.toNat + run.shift).toNat := by rw [← toNat_ofNat hnat, ← hshift]
    have hkelvin : d.toNat ≠ 'k'.toNat := fun heq => hk (Char.toNat_inj.mp heq)
    have : 'k'.toNat = 0x6B := rfl
    omega

lemma underscore_of_mem_lowerChar (h : '_' ∈ lowerChar c) : c = '_' := by
  obtain ⟨hascii, hlower⟩ := ascii_of_mem_lowerChar h (by decide) (by decide) (by decide)
  have hall : ∀ n : Fin 128, '_' = (Char.ofNat n).toLower → Char.ofNat n = '_' := by decide +kernel
  have hc := hall ⟨c.toNat, hascii⟩
  rw [Char.ofNat_toNat] at hc
  exact hc hlower

lemma lowerChar_ne_nil (c : Char) : lowerChar c ≠ [] := by
  unfold lowerChar
  repeat' split
  all_goals exact List.cons_ne_nil _ _

lemma lowerFrom_underscores (h : ∀ d ∈ lowerFrom before cs, d = '_') :
    lowerFrom before cs = cs := by
  induction cs generalizing before with
  | nil => rfl
  | cons c after ih =>
    rw [lowerFrom, List.forall_mem_append] at h
    have hsigma : c.toNat ≠ 0x3A3 := by
      intro hsigma
      rw [if_pos hsigma, List.forall_mem_singleton] at h
      have hfinal := h.1
      split at hfinal <;> exact absurd hfinal (by decide)
    rw [if_neg hsigma] at h
    obtain ⟨d, hd⟩ := List.exists_mem_of_ne_nil _ (lowerChar_ne_nil c)
    have hc : c = '_' := underscore_of_mem_lowerChar (h.1 d hd ▸ hd)
    rw [lowerFrom, if_neg hsigma, ih h.2, hc]
    rfl

/-- No other name has the lowercase form of the placeholder. -/
lemma eq_underscore_of_lower {s : String} (h : lower s = "_") : s = "_" := by
  have hlist : lowerFrom [] s.toList = ['_'] := by
    rw [← String.toList_ofList (l := lowerFrom [] s.toList)]
    exact congrArg String.toList h
  rw [lowerFrom_underscores (by simp [hlist])] at hlist
  exact String.toList_inj.mp hlist

end Underscore

end XBase.Proofs
