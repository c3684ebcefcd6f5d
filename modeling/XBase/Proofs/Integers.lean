import Mathlib
import XBase.Decimal.Binary64

/-!
# Integers among the numbers

A number is measured in units of the least positive one, `2 ^ -1074`, of which every finite number
is an integral multiple. The sum of two finite numbers is their exact sum, rounded: it lies on the
same side of every number as the exact sum does. So sums of integers are exact as long as they stay
below `2 ^ 53`, and comparisons with a sum that is rounded still decide on which side of an integer
the exact sum is.
-/

namespace XBase.Proofs

open Float.Model Float.Model.UnpackedFloat

variable {m k m' : Nat} {e e' u v : Int} {s : Sign} {x : Float}

section Rounding

/-- The mantissa that is left of another one when so many bits of it are rounded away. -/
def roundedAway (m k : Nat) : Nat :=
  ((⟨m, false, false⟩ : ExtendedMantissa) >>> k).roundedMantissa

lemma shift_mantissa (em : ExtendedMantissa) (k : Nat) :
    (em >>> k).mantissa = em.mantissa / 2 ^ k := by
  induction k with
  | zero => exact (Nat.div_one _).symm
  | succ k ih =>
    change (em >>> k).mantissa / 2 = _
    rw [ih, Nat.div_div_eq_div_mul, ← Nat.pow_succ]

/-- Bits that are all zero are cut off without a trace. -/
lemma shift_exact (h : 2 ^ k ∣ m) :
    (⟨m, false, false⟩ : ExtendedMantissa) >>> k = ⟨m / 2 ^ k, false, false⟩ := by
  induction k with
  | zero =>
    rw [Nat.pow_zero, Nat.div_one]
    rfl
  | succ k ih =>
    change ((⟨m, false, false⟩ : ExtendedMantissa) >>> k).shiftRightOne = _
    rw [ih ((pow_dvd_pow 2 (Nat.le_succ k)).trans h)]
    obtain ⟨q, rfl⟩ := h
    have hhalf : 2 ^ (k + 1) * q / 2 ^ k = 2 * q := by
      rw [Nat.pow_succ, Nat.mul_assoc, Nat.mul_div_cancel_left _ (Nat.two_pow_pos k)]
    have hwhole : 2 ^ (k + 1) * q / 2 ^ (k + 1) = q := Nat.mul_div_cancel_left _ (Nat.two_pow_pos _)
    rw [hhalf, hwhole]
    simp [ExtendedMantissa.shiftRightOne]

lemma roundedMantissa_bounds (em : ExtendedMantissa) :
    em.mantissa ≤ em.roundedMantissa ∧ em.roundedMantissa ≤ em.mantissa + 1 := by
  obtain ⟨m, roundBit, stickyBit⟩ := em
  cases roundBit <;> cases stickyBit <;>
    simp [ExtendedMantissa.roundedMantissa, ExtendedMantissa.accuracy, Accuracy.roundToNearestEven]
  omega

lemma le_roundedAway {p : Nat} (h : p * 2 ^ k ≤ m) : p ≤ roundedAway m k := by
  have hfloor := (roundedMantissa_bounds ((⟨m, false, false⟩ : ExtendedMantissa) >>> k)).1
  rw [shift_mantissa] at hfloor
  exact Nat.le_trans ((Nat.le_div_iff_mul_le (Nat.two_pow_pos k)).mpr h) hfloor

lemma roundedAway_le {p : Nat} (h : m ≤ p * 2 ^ k) : roundedAway m k ≤ p := by
  by_cases hexact : m = p * 2 ^ k
  · have hdvd : 2 ^ k ∣ m := hexact ▸ Nat.dvd_mul_left _ _
    rw [roundedAway, shift_exact hdvd, hexact, Nat.mul_div_cancel _ (Nat.two_pow_pos k)]
    exact Nat.le_refl p
  · have hfloor : m / 2 ^ k < p :=
      (Nat.div_lt_iff_lt_mul (Nat.two_pow_pos k)).mpr (Nat.lt_of_le_of_ne h hexact)
    have hround := (roundedMantissa_bounds ((⟨m, false, false⟩ : ExtendedMantissa) >>> k)).2
    rw [shift_mantissa] at hround
    exact Nat.le_trans hround hfloor

/-- A multiple of the unit lies on the same side of every multiple with a mantissa of 53 bits as
another one does. -/
def Near (exact rounded : Nat) : Prop :=
  ∀ p k, p < 2 ^ 53 → (p * 2 ^ k ≤ exact → p * 2 ^ k ≤ rounded) ∧
    (exact ≤ p * 2 ^ k → rounded ≤ p * 2 ^ k)

lemma near_refl (n : Nat) : Near n n :=
  fun _ _ _ => ⟨id, id⟩

/-- A mantissa with more than 53 bits is rounded to 53 of them. -/
lemma near_roundedAway (hm : 2 ^ (52 + k) ≤ m) (i : Nat) :
    Near (m * 2 ^ i) (roundedAway m k * 2 ^ (k + i)) := by
  intro p j hp
  have hi : 0 < 2 ^ i := Nat.two_pow_pos i
  have hfloor : 2 ^ 52 ≤ roundedAway m k := le_roundedAway (by rwa [← Nat.pow_add])
  by_cases hj : k + i ≤ j
  · -- The other number is a multiple of what is rounded to.
    obtain ⟨l, rfl⟩ := Nat.exists_eq_add_of_le hj
    have hsplit : p * 2 ^ (k + i + l) = p * 2 ^ l * 2 ^ k * 2 ^ i := by
      rw [Nat.pow_add, Nat.pow_add]
      ring
    have hgoal : p * 2 ^ (k + i + l) = p * 2 ^ l * 2 ^ (k + i) := by
      rw [Nat.pow_add _ (k + i)]
      ring
    constructor
    · intro h
      rw [hsplit] at h
      rw [hgoal]
      exact Nat.mul_le_mul_right _ (le_roundedAway (Nat.le_of_mul_le_mul_right h hi))
    · intro h
      rw [hsplit] at h
      rw [hgoal]
      exact Nat.mul_le_mul_right _ (roundedAway_le (Nat.le_of_mul_le_mul_right h hi))
  · -- The other number is less than both.
    have hpower : 2 ^ 53 * 2 ^ j ≤ 2 ^ 52 * 2 ^ (k + i) := by
      rw [← Nat.pow_add, ← Nat.pow_add]
      exact Nat.pow_le_pow_right (by decide) (by omega)
    have hless : p * 2 ^ j < 2 ^ 52 * 2 ^ (k + i) :=
      Nat.lt_of_lt_of_le (Nat.mul_lt_mul_of_pos_right hp (Nat.two_pow_pos j)) hpower
    constructor
    · intro _
      exact Nat.le_trans (Nat.le_of_lt hless) (Nat.mul_le_mul_right _ hfloor)
    · intro h
      have hexact : 2 ^ 52 * 2 ^ (k + i) ≤ m * 2 ^ i := by
        rw [Nat.pow_add _ k, ← Nat.mul_assoc, ← Nat.pow_add]
        exact Nat.mul_le_mul_right _ hm
      exact absurd (Nat.le_trans hexact h) (Nat.not_le_of_lt hless)

def inUnits (m : Nat) (e : Int) : Nat :=
  m * 2 ^ (e + 1074).toNat

/-- A mantissa that has 53 bits unless the exponent is the least one. -/
def Normalized (m : Nat) (e : Int) : Prop :=
  m < 2 ^ 53 ∧ -1074 ≤ e ∧ (2 ^ 52 ≤ m ∨ e = -1074)

lemma targetExponent_eq (m : Nat) (e : Int) :
    Format.binary64.targetExponent (totalExponent m e) = max (m.log2 + e - 52) (-1074) := by
  simp only [Format.targetExponent, totalExponent, Format.mantissaBits, Format.minExponent]
  omega

lemma log2_le (h : m < 2 ^ (k + 1)) : m.log2 ≤ k := by
  by_cases hzero : m = 0
  · simp [hzero]
  · exact Nat.le_of_lt_succ ((Nat.log2_lt hzero).mpr h)

lemma shiftToTarget_eq (h : (max (m.log2 + e - 52) (-1074) - e).toNat = k) :
    shiftToTargetExponent Format.binary64 m e .exact =
      ((⟨m, false, false⟩ : ExtendedMantissa) >>> k, e + k) := by
  rw [← h, ← targetExponent_eq]
  rfl

lemma shiftToTarget_none (hm : m < 2 ^ 53) (he : -1074 ≤ e) :
    shiftToTargetExponent Format.binary64 m e .exact = (⟨m, false, false⟩, e) := by
  have hlog := log2_le hm
  rw [shiftToTarget_eq (k := 0) (by omega), Int.natCast_zero, Int.add_zero]
  rfl

lemma roundWithAccuracy_eq {e₁ : Int} {em : ExtendedMantissa}
    (hfirst : shiftToTargetExponent Format.binary64 m e .exact = (em, e₁))
    (hsecond : shiftToTargetExponent Format.binary64 em.roundedMantissa e₁ .exact =
      (⟨m', false, false⟩, e')) (hpos : 0 < m') :
    roundWithAccuracy Format.binary64 s m e .exact = .finite s m' e' hpos := by
  unfold roundWithAccuracy
  simp only [hfirst, hsecond]
  exact dif_neg (Nat.ne_of_gt hpos)

/-- A longer mantissa is rounded, and is shifted once more if it has become too long again. -/
lemma roundWithAccuracy_long (s : Sign) (hlog : m.log2 = 52 + k) (he : -1074 ≤ e) :
    ∃ m' e' hpos, roundWithAccuracy Format.binary64 s m e .exact = .finite s m' e' hpos ∧
      Normalized m' e' ∧
      inUnits m' e' = roundedAway m k * 2 ^ (k + (e + 1074).toNat) := by
  have hm : m ≠ 0 := by
    rintro rfl
    simp at hlog
    omega
  obtain ⟨hlow, hhigh⟩ := (Nat.log2_eq_iff hm).mp hlog
  have hfloor : 2 ^ 52 ≤ roundedAway m k := le_roundedAway (by rwa [← Nat.pow_add])
  have hceil : roundedAway m k ≤ 2 ^ 53 := by
    apply roundedAway_le
    rw [← Nat.pow_add, show 53 + k = 52 + k + 1 by omega]
    exact Nat.le_of_lt hhigh
  have hfirst := shiftToTarget_eq (m := m) (e := e) (k := k) (by omega)
  have hsum : (e + k + 1074).toNat = k + (e + 1074).toNat := by omega
  by_cases hless : roundedAway m k < 2 ^ 53
  · have hpos : 0 < roundedAway m k := by omega
    have hsecond := shiftToTarget_none (e := e + k) hless (by omega)
    refine ⟨roundedAway m k, e + k, hpos, roundWithAccuracy_eq hfirst hsecond hpos, ?_, ?_⟩
    · exact ⟨hless, by omega, .inl hfloor⟩
    · rw [inUnits, hsum]
  · have hfull : roundedAway m k = 2 ^ 53 := by omega
    have hsecond : shiftToTargetExponent Format.binary64 (roundedAway m k) (e + k) .exact =
        (⟨2 ^ 52, false, false⟩, e + k + 1) := by
      rw [hfull, shiftToTarget_eq (k := 1) (by rw [Nat.log2_two_pow]; omega)]
      rfl
    have hpos : 0 < 2 ^ 52 := by decide
    refine ⟨2 ^ 52, e + k + 1, hpos, roundWithAccuracy_eq hfirst hsecond hpos, ?_, ?_⟩
    · exact ⟨by decide, by omega, .inl (Nat.le_refl _)⟩
    · rw [inUnits, hfull, show (e + k + 1 + 1074).toNat = 1 + (k + (e + 1074).toNat) by omega,
        Nat.pow_add 2 1, ← Nat.mul_assoc, show 2 ^ 52 * 2 ^ 1 = 2 ^ 53 by decide]

lemma log2_mul_pow (hm : 0 < m) (k : Nat) : (m * 2 ^ k).log2 = m.log2 + k := by
  induction k with
  | zero => rw [Nat.pow_zero, Nat.mul_one, Nat.add_zero]
  | succ k ih =>
    have hne : m * 2 ^ k ≠ 0 := Nat.ne_of_gt (Nat.mul_pos hm (Nat.two_pow_pos k))
    rw [Nat.pow_succ, ← Nat.mul_assoc, Nat.mul_comm _ 2, Nat.log2_two_mul hne, ih, Nat.add_assoc]

/-- Rounding gives a number that is near, and none below the unit has to be rounded. -/
lemma round_near (s : Sign) (hpos : 0 < m) (he : -1074 ≤ e) :
    ∃ m' e' hpos, UnpackedFloat.round Format.binary64 s m e = .finite s m' e' hpos ∧
      Normalized m' e' ∧ Near (inUnits m e) (inUnits m' e') := by
  unfold UnpackedFloat.round decreaseExponent
  simp only [targetExponent_eq]
  by_cases hlong : 52 < m.log2
  · obtain ⟨k, hlog⟩ := Nat.exists_eq_add_of_le (Nat.le_of_lt hlong)
    have hshift : (e - max (m.log2 + e - 52) (-1074)).toNat = 0 := by omega
    rw [hshift, Nat.shiftLeft_zero, Int.natCast_zero, Int.sub_zero]
    obtain ⟨m', e', hpos', hround, hcanonical, hunits⟩ := roundWithAccuracy_long s hlog he
    refine ⟨m', e', hpos', hround, hcanonical, ?_⟩
    rw [hunits]
    apply near_roundedAway
    rw [← hlog]
    exact Nat.log2_self_le (Nat.ne_of_gt hpos)
  · -- There is room for all bits, so the mantissa is scaled up to 53 bits as far as possible.
    obtain ⟨j, hj⟩ : ∃ j : Nat, (e - max (m.log2 + e - 52) (-1074)).toNat = j := ⟨_, rfl⟩
    rw [hj, Nat.shiftLeft_eq]
    have hpos' : 0 < m * 2 ^ j := Nat.mul_pos hpos (Nat.two_pow_pos j)
    have hlog := log2_mul_pow hpos j
    have hm : m * 2 ^ j < 2 ^ 53 := (Nat.log2_lt (Nat.ne_of_gt hpos')).mp (by omega)
    have hshift := shiftToTarget_none (e := e - j) hm (by omega)
    refine ⟨m * 2 ^ j, e - j, hpos', roundWithAccuracy_eq hshift hshift hpos', ?_, ?_⟩
    · refine ⟨hm, by omega, ?_⟩
      by_cases hleast : e - j = -1074
      · exact .inr hleast
      · left
        apply (Nat.le_log2 (Nat.ne_of_gt hpos')).mp
        omega
    · have hsame : inUnits m e = inUnits (m * 2 ^ j) (e - j) := by
        rw [inUnits, inUnits, Nat.mul_assoc, ← Nat.pow_add]
        congr 2
        omega
      rw [hsame]
      exact near_refl _

end Rounding

section Storage

lemma ofBitVec_unpackSign (s : Sign) (exponent : BitVec 11) (mantissa : BitVec 52) :
    Sign.ofBitVec (unpackSign (packComponents Format.binary64 s exponent mantissa)) = s := by
  simp only [unpackSign, packComponents, BitVec.extractLsb]
  rw [BitVec.extractLsb'_append_eq_of_le (by omega), BitVec.extractLsb'_append_eq_of_le (by omega)]
  cases s <;> rfl

lemma toNat_one_append (v : BitVec 52) : (1#1 ++ v).toNat = 2 ^ 52 + v.toNat := by
  rw [BitVec.toNat_append, ← Nat.shiftLeft_add_eq_or_of_lt v.isLt]
  rfl

def pattern (x : Float) : BitVec Format.binary64.numBits :=
  x.toBits.toBitVec

lemma toNat_unpackExponent (x : Float) :
    (unpackExponent (pattern x)).toNat = Decimal.exponentBits x := by
  have hmask := Nat.and_two_pow_sub_one_eq_mod (x.toBits.toNat >>> 52) 11
  simp only [unpackExponent, BitVec.toNat_cast, BitVec.extractLsb_toNat, Decimal.exponentBits,
    UInt64.toNat_and, UInt64.toNat_shiftRight]
  exact hmask.symm

lemma toNat_unpackMantissa (x : Float) :
    (unpackMantissa (pattern x)).toNat = Decimal.fractionBits x := by
  have hmask := Nat.and_two_pow_sub_one_eq_mod x.toBits.toNat 52
  simp only [unpackMantissa, BitVec.toNat_cast, BitVec.extractLsb_toNat, Decimal.fractionBits,
    UInt64.toNat_and]
  exact hmask.symm

def signOf (x : Float) : Sign :=
  if Decimal.isNegative x then .negative else .positive

lemma ofBitVec_pattern (x : Float) : Sign.ofBitVec (unpackSign (pattern x)) = signOf x := by
  have hbit : (unpackSign (pattern x)).toNat = x.toBits.toNat / 2 ^ 63 := by
    have hlt : x.toBits.toNat < 2 ^ 64 := x.toBits.toNat_lt
    simp only [unpackSign, BitVec.toNat_cast, BitVec.extractLsb_toNat, Nat.shiftRight_eq_div_pow]
    exact Nat.mod_eq_of_lt (by change x.toBits.toNat / 2 ^ 63 < 2 ^ 1; omega)
  have hsign : Decimal.isNegative x = true ↔ x.toBits.toNat / 2 ^ 63 ≠ 0 := by
    rw [Decimal.isNegative, bne_iff_ne, ne_eq, ← UInt64.toNat_inj, UInt64.toNat_shiftRight,
      Nat.shiftRight_eq_div_pow]
    rfl
  have hzero : unpackSign (pattern x) = 0#1 ↔ x.toBits.toNat / 2 ^ 63 = 0 := by
    rw [← hbit]
    exact BitVec.toNat_inj.symm
  unfold Sign.ofBitVec signOf
  by_cases h : x.toBits.toNat / 2 ^ 63 = 0
  · rw [if_pos (hzero.mpr h), if_neg fun hneg => hsign.mp hneg h]
  · rw [if_neg fun hpos => h (hzero.mp hpos), if_pos (hsign.mpr h)]

/-- What a number is, by its bits. -/
lemma unpack_cases (x : Float) :
    (Decimal.exponentBits x = 2047 ∧ Decimal.fractionBits x ≠ 0 ∧ x.toModel.unpack = .notANumber) ∨
    (Decimal.exponentBits x = 2047 ∧ Decimal.fractionBits x = 0 ∧
      x.toModel.unpack = .infinity (signOf x)) ∨
    (Decimal.exponentBits x = 0 ∧ Decimal.fractionBits x = 0 ∧
      x.toModel.unpack = .zero (signOf x)) ∨
    (Decimal.exponentBits x = 0 ∧ ∃ hpos,
      x.toModel.unpack = .finite (signOf x) (Decimal.fractionBits x) (-1074) hpos) ∨
    (0 < Decimal.exponentBits x ∧ Decimal.exponentBits x < 2047 ∧ ∃ hpos, x.toModel.unpack =
      .finite (signOf x) (2 ^ 52 + Decimal.fractionBits x) (Decimal.exponentBits x - 1075)
        hpos) := by
  have hexponent : ∀ v : BitVec 11, unpackExponent (pattern x) = v ↔
      Decimal.exponentBits x = v.toNat := by
    intro v
    rw [← toNat_unpackExponent]
    exact BitVec.toNat_inj.symm
  have hfraction : unpackMantissa (pattern x) = 0#52 ↔ Decimal.fractionBits x = 0 := by
    rw [← toNat_unpackMantissa]
    exact BitVec.toNat_inj.symm
  have hlt := (unpackExponent (pattern x)).isLt
  rw [toNat_unpackExponent] at hlt
  change _ < 2 ^ 11 at hlt
  have hbias : ((Format.binary64.exponentBias : Nat) : Int) = 1023 := rfl
  have hu : x.toModel.unpack = UnpackedFloat.unpack Format.binary64 (pattern x) := rfl
  unfold UnpackedFloat.unpack at hu
  dsimp only at hu
  simp only [ofBitVec_pattern, toNat_unpackMantissa, toNat_unpackExponent, toNat_one_append,
    hbias] at hu
  split at hu
  · next hlast =>
    have he : Decimal.exponentBits x = 2047 := (hexponent _).mp hlast
    split at hu
    · next hf => exact .inr (.inl ⟨he, hfraction.mp hf, hu⟩)
    · next hf => exact .inl ⟨he, fun h => hf (hfraction.mpr h), hu⟩
  · next hlast =>
    have he : Decimal.exponentBits x ≠ 2047 := fun h => hlast ((hexponent _).mpr h)
    split at hu
    · next hfirst =>
      have he : Decimal.exponentBits x = 0 := (hexponent _).mp hfirst
      split at hu
      · next hf => exact .inr (.inr (.inl ⟨he, hfraction.mp hf, hu⟩))
      · next hf =>
        rw [he] at hu
        exact .inr (.inr (.inr (.inl ⟨he, _, hu⟩)))
    · next hfirst =>
      have he' : Decimal.exponentBits x ≠ 0 := fun h => hfirst ((hexponent _).mpr h)
      exact .inr (.inr (.inr (.inr ⟨by omega, by omega, _, hu⟩)))

/-- The magnitude of a number in units. An infinite one counts as the first magnitude that is too
large. -/
def magnitude (x : Float) : Nat :=
  inUnits (Decimal.Binary64.ofFloat x).mantissa (Decimal.Binary64.ofFloat x).exponent

def units? : UnpackedFloat → Option Int
  | .notANumber => none
  | .infinity s => some (s.apply (inUnits (2 ^ 52) 972))
  | .zero _ => some 0
  | .finite s m e _ => some (s.apply (inUnits m e))

def Storable : UnpackedFloat → Prop
  | .finite _ m e _ => Normalized m e ∧ e ≤ 971
  | _ => True

lemma fractionBits_lt (x : Float) : Decimal.fractionBits x < 2 ^ 52 := by
  rw [← toNat_unpackMantissa]
  exact (unpackMantissa (pattern x)).isLt

lemma storable_unpack (x : Float) : Storable x.toModel.unpack := by
  have hlt := fractionBits_lt x
  rcases unpack_cases x with ⟨-, -, h⟩ | ⟨-, -, h⟩ | ⟨-, -, h⟩ | ⟨-, hpos, h⟩ | ⟨he, he', hpos, h⟩
  · rw [h]
    trivial
  · rw [h]
    trivial
  · rw [h]
    trivial
  · rw [h]
    exact ⟨⟨by omega, by omega, .inr rfl⟩, by decide⟩
  · rw [h]
    exact ⟨⟨by omega, by omega, .inl (Nat.le_add_right _ _)⟩, by omega⟩

lemma units?_unpack (h : x.toModel.unpack ≠ .notANumber) :
    units? x.toModel.unpack = some ((signOf x).apply (magnitude x)) := by
  rcases unpack_cases x with ⟨-, -, hu⟩ | ⟨he, hf, hu⟩ | ⟨he, hf, hu⟩ | ⟨he, _, hu⟩ | ⟨he, -, _, hu⟩
  · exact absurd hu h
  · rw [hu, magnitude, Decimal.Binary64.ofFloat, he, hf]
    rfl
  · rw [hu, magnitude, Decimal.Binary64.ofFloat, he, hf]
    cases signOf x <;> rfl
  · rw [hu, magnitude, Decimal.Binary64.ofFloat, he]
    rfl
  · have hofFloat : Decimal.Binary64.ofFloat x = _ := if_neg (by simpa using Nat.ne_of_gt he)
    rw [hu, magnitude, hofFloat]
    rfl

end Storage

section Order

lemma inUnits_lt (hm : m < 2 ^ 53) (he : -1074 ≤ e) (hm' : 2 ^ 52 ≤ m') (h : e < e') :
    inUnits m e < inUnits m' e' := by
  have hpower : 2 ^ 53 * 2 ^ (e + 1074).toNat ≤ 2 ^ 52 * 2 ^ (e' + 1074).toNat := by
    rw [← Nat.pow_add, ← Nat.pow_add]
    exact Nat.pow_le_pow_right (by decide) (by omega)
  calc inUnits m e < 2 ^ 53 * 2 ^ (e + 1074).toNat :=
        Nat.mul_lt_mul_of_pos_right hm (Nat.two_pow_pos _)
    _ ≤ 2 ^ 52 * 2 ^ (e' + 1074).toNat := hpower
    _ ≤ inUnits m' e' := Nat.mul_le_mul_right _ hm'

/-- Mantissas and exponents that are stored are compared as the magnitudes are. -/
lemma then_compare (hm : Normalized m e) (hm' : Normalized m' e') :
    (compare e e').then (compare m m') = compare (inUnits m e) (inUnits m' e') := by
  obtain ⟨hm, he, hleast⟩ := hm
  obtain ⟨hm', he', hleast'⟩ := hm'
  rcases lt_trichotomy e e' with hlt | rfl | hgt
  · rw [compare_lt_iff_lt.mpr hlt, compare_lt_iff_lt.mpr (inUnits_lt hm he (by omega) hlt)]
    rfl
  · have hpos := Nat.two_pow_pos (e + 1074).toNat
    rw [compare_eq_iff_eq.mpr rfl, inUnits, inUnits]
    change compare m m' = _
    rcases lt_trichotomy m m' with hlt | rfl | hgt
    · rw [compare_lt_iff_lt.mpr hlt, compare_lt_iff_lt.mpr (Nat.mul_lt_mul_of_pos_right hlt hpos)]
    · rw [compare_eq_iff_eq.mpr rfl, compare_eq_iff_eq.mpr rfl]
    · rw [compare_gt_iff_gt.mpr hgt, compare_gt_iff_gt.mpr (Nat.mul_lt_mul_of_pos_right hgt hpos)]
  · rw [compare_gt_iff_gt.mpr hgt, compare_gt_iff_gt.mpr (inUnits_lt hm' he' (by omega) hgt)]
    rfl

lemma compare_natCast (p q : Nat) : compare (p : Int) (q : Int) = compare p q := by
  rcases lt_trichotomy p q with h | rfl | h
  · rw [compare_lt_iff_lt.mpr h, compare_lt_iff_lt.mpr (Int.ofNat_lt.mpr h)]
  · rw [compare_eq_iff_eq.mpr rfl, compare_eq_iff_eq.mpr rfl]
  · rw [compare_gt_iff_gt.mpr h, compare_gt_iff_gt.mpr (Int.ofNat_lt.mpr h)]

lemma compare_neg (p q : Nat) : compare (-p : Int) (-q : Int) = (compare p q).swap := by
  rcases lt_trichotomy p q with h | rfl | h
  · rw [compare_lt_iff_lt.mpr h, compare_gt_iff_gt.mpr (by omega)]
    rfl
  · rw [compare_eq_iff_eq.mpr rfl, compare_eq_iff_eq.mpr rfl]
    rfl
  · rw [compare_gt_iff_gt.mpr h, compare_lt_iff_lt.mpr (by omega)]
    rfl

lemma inUnits_pos (hm : 0 < m) (e : Int) : 0 < inUnits m e :=
  Nat.mul_pos hm (Nat.two_pow_pos _)

lemma inUnits_lt_infinity (h : Normalized m e ∧ e ≤ 971) : inUnits m e < inUnits (2 ^ 52) 972 :=
  inUnits_lt h.1.1 h.1.2.1 (Nat.le_refl _) (by omega)

lemma some_lt (h : u < v) : some Ordering.lt = some (compare u v) :=
  congrArg some (compare_lt_iff_lt.mpr h).symm

lemma some_gt (h : v < u) : some Ordering.gt = some (compare u v) :=
  congrArg some (compare_gt_iff_gt.mpr h).symm

lemma compare_units {a b : UnpackedFloat} (ha : Storable a) (hb : Storable b)
    (hu : units? a = some u) (hv : units? b = some v) : a.compare b = some (compare u v) := by
  have hlarge : 0 < inUnits (2 ^ 52) 972 := inUnits_pos (by decide) 972
  cases a with
  | notANumber => cases hu
  | infinity s =>
    cases hu
    cases b with
    | notANumber => cases hv
    | infinity t =>
      cases hv
      cases s <;> cases t
      · exact congrArg some (compare_eq_iff_eq.mpr rfl).symm
      · exact some_lt (by simp only [Sign.apply]; omega)
      · exact some_gt (by simp only [Sign.apply]; omega)
      · exact congrArg some (compare_eq_iff_eq.mpr rfl).symm
    | zero t =>
      cases hv
      cases s
      · exact some_lt (by simp only [Sign.apply]; omega)
      · exact some_gt (by simp only [Sign.apply]; omega)
    | finite t m e hpos =>
      cases hv
      have hless := inUnits_lt_infinity hb
      cases s
      · exact some_lt (by cases t <;> simp only [Sign.apply] <;> omega)
      · exact some_gt (by cases t <;> simp only [Sign.apply] <;> omega)
  | zero s =>
    cases hu
    cases b with
    | notANumber => cases hv
    | infinity t =>
      cases hv
      cases t
      · exact some_gt (by simp only [Sign.apply]; omega)
      · exact some_lt (by simp only [Sign.apply]; omega)
    | zero t =>
      cases hv
      rfl
    | finite t m e hpos =>
      cases hv
      have hpositive := inUnits_pos hpos e
      cases t
      · exact some_gt (by simp only [Sign.apply]; omega)
      · exact some_lt (by simp only [Sign.apply]; omega)
  | finite s m e hpos =>
    cases hu
    have hpositive := inUnits_pos hpos e
    cases b with
    | notANumber => cases hv
    | infinity t =>
      cases hv
      have hless := inUnits_lt_infinity ha
      cases t
      · exact some_gt (by cases s <;> simp only [Sign.apply] <;> omega)
      · exact some_lt (by cases s <;> simp only [Sign.apply] <;> omega)
    | zero t =>
      cases hv
      cases s
      · exact some_lt (by simp only [Sign.apply]; omega)
      · exact some_gt (by simp only [Sign.apply]; omega)
    | finite t m' e' hpos' =>
      cases hv
      have hpositive' := inUnits_pos hpos' e'
      have hcompare := then_compare ha.1 hb.1
      cases s <;> cases t
      · simp only [UnpackedFloat.compare, hcompare, Sign.apply, compare_neg]
      · exact some_lt (by simp only [Sign.apply]; omega)
      · exact some_gt (by simp only [Sign.apply]; omega)
      · simp only [UnpackedFloat.compare, hcompare, Sign.apply, compare_natCast]

end Order

section Sums

lemma unpack_pack_large (s : Sign) (hpos : 0 < m) (he : 971 < e) :
    (Float.Model.pack (.finite s m e hpos)).unpack = .infinity s := by
  have hbias : ((Format.binary64.exponentBias : Nat) : Int) = 1023 := rfl
  have hlarge : 2 ^ 11 ≤ (e + 1023 + (52 : Nat)).toNat + 1 := by omega
  unfold Float.Model.unpack Float.Model.pack
  simp only [UnpackedFloat.pack, hbias, if_pos hlarge]
  cases s <;> rfl

lemma bits_of_pattern {exponent : BitVec 11} {mantissa : BitVec 52}
    (h : pattern x = packComponents Format.binary64 s exponent mantissa) :
    Decimal.exponentBits x = exponent.toNat ∧ Decimal.fractionBits x = mantissa.toNat ∧
      signOf x = s := by
  rw [← toNat_unpackExponent, ← toNat_unpackMantissa, ← ofBitVec_pattern, h,
    unpackExponent_packComponents, unpackMantissa_packComponents, ofBitVec_unpackSign]
  exact ⟨rfl, rfl, rfl⟩

lemma finite_congr {t : Sign} {hpos : 0 < m} {hpos' : 0 < m'} (hs : s = t) (hm : m = m')
    (he : e = e') : UnpackedFloat.finite s m e hpos = .finite t m' e' hpos' := by
  subst hs hm he
  rfl

lemma unpack_pack_finite (s : Sign) (hpos : 0 < m) (h : Normalized m e) (he : e ≤ 971) :
    (Float.Model.pack (.finite s m e hpos)).unpack = .finite s m e hpos := by
  obtain ⟨hm, hleast, hbits⟩ := h
  let x : Float := .ofModel (.pack (.finite s m e hpos))
  have hbias : ((Format.binary64.exponentBias : Nat) : Int) = 1023 := rfl
  have hmantissa : Format.binary64.mantissaBits = 53 := rfl
  have hsmall : ¬ 2 ^ 11 ≤ (e + 1023 + (52 : Nat)).toNat + 1 := by omega
  have hpack : pattern x = UnpackedFloat.pack Format.binary64 (.finite s m e hpos) := rfl
  simp only [UnpackedFloat.pack, hbias, hmantissa, if_neg hsmall] at hpack
  change x.toModel.unpack = _
  by_cases hlong : 2 ^ 52 ≤ m
  · have hlog : m.log2 = 52 := (Nat.log2_eq_iff (Nat.ne_of_gt hpos)).mpr ⟨hlong, hm⟩
    rw [hlog, if_pos (by decide)] at hpack
    obtain ⟨hexponent, hfraction, hsign⟩ := bits_of_pattern hpack
    rw [BitVec.toNat_ofNat] at hexponent hfraction
    rcases unpack_cases x with
      ⟨h, -⟩ | ⟨h, -⟩ | ⟨h, -⟩ | ⟨h, -⟩ | ⟨-, -, _, hu⟩
    · omega
    · omega
    · omega
    · omega
    · rw [hu]
      exact finite_congr hsign (by omega) (by omega)
  · have hlog : ¬ m.log2 + 1 = 53 := by
      have := (Nat.log2_lt (Nat.ne_of_gt hpos)).mpr (Nat.lt_of_not_le hlong)
      omega
    rw [if_neg hlog] at hpack
    obtain ⟨hexponent, hfraction, hsign⟩ := bits_of_pattern hpack
    rw [BitVec.toNat_ofNat] at hexponent hfraction
    rcases unpack_cases x with
      ⟨h, -⟩ | ⟨h, -⟩ | ⟨-, h, -⟩ | ⟨-, _, hu⟩ | ⟨h, -⟩
    · omega
    · omega
    · omega
    · rw [hu]
      exact finite_congr hsign (by omega) (by omega)
    · omega

lemma units?_pack (s : Sign) (hpos : 0 < m) (h : Normalized m e) :
    units? (Float.Model.pack (.finite s m e hpos)).unpack =
      some (s.apply (min (inUnits m e) (inUnits (2 ^ 52) 972) : Nat)) := by
  by_cases he : e ≤ 971
  · have hless := inUnits_lt_infinity ⟨h, he⟩
    rw [unpack_pack_finite s hpos h he, Nat.min_eq_left (Nat.le_of_lt hless)]
    rfl
  · have hlarge : inUnits (2 ^ 52) 972 ≤ inUnits m e := by
      apply Nat.mul_le_mul
      · exact h.2.2.resolve_right (by omega)
      · exact Nat.pow_le_pow_right (by decide) (by omega)
    rw [unpack_pack_large s hpos (by omega), Nat.min_eq_right hlarge]
    rfl

def Representable (bound : Int) : Prop :=
  ∃ p k, p < 2 ^ 53 ∧ bound.natAbs = p * 2 ^ k ∧ bound.natAbs < inUnits (2 ^ 52) 972

/-- Of every finite number, one number of units is on the same side as another one. -/
def SameSide (exact rounded : Int) : Prop :=
  ∀ bound, Representable bound →
    (exact ≤ bound → rounded ≤ bound) ∧ (bound ≤ exact → bound ≤ rounded)

lemma sameSide_refl (n : Int) : SameSide n n :=
  fun _ _ => ⟨id, id⟩

lemma SameSide.eq {n w : Int} (h : SameSide n w) (hn : Representable n) : w = n :=
  Int.le_antisymm ((h n hn).1 (Int.le_refl n)) ((h n hn).2 (Int.le_refl n))

lemma sameSide_neg {n w : Int} (h : SameSide n w) : SameSide (-n) (-w) := by
  intro bound hbound
  have hneg : Representable (-bound) := by rwa [Representable, Int.natAbs_neg]
  obtain ⟨hle, hge⟩ := h (-bound) hneg
  constructor
  · intro hn
    have := hge (by omega)
    omega
  · intro hn
    have := hle (by omega)
    omega

lemma sameSide_of_near {n w : Nat} (h : Near n w) :
    SameSide n (min w (inUnits (2 ^ 52) 972) : Nat) := by
  rintro bound ⟨p, k, hp, heq, hless⟩
  obtain ⟨hle, hge⟩ := h p k hp
  rw [← heq] at hle hge
  constructor
  · intro hn
    have := hge (by omega)
    omega
  · intro hn
    by_cases hsign : bound < 0
    · omega
    · have := hle (by omega)
      omega

/-- Whatever is rounded stays on its side of every number. -/
lemma normalize_sameSide (n : Int) (he : -1074 ≤ e) (zeroSign : Sign) :
    ∃ w, units? (Float.Model.pack (UnpackedFloat.normalize Format.binary64 n e zeroSign)).unpack =
      some w ∧ SameSide (n * 2 ^ (e + 1074).toNat) w := by
  have hpositive : ∀ (s : Sign) (m : Nat), 0 < m →
      ∃ w : Nat, units? (Float.Model.pack (UnpackedFloat.round Format.binary64 s m e)).unpack =
        some (s.apply w) ∧ SameSide (m * 2 ^ (e + 1074).toNat) w := by
    intro s m hm
    obtain ⟨m', e', hpos, hround, hnormalized, hnear⟩ := round_near s hm he
    rw [hround]
    refine ⟨_, units?_pack s hpos hnormalized, ?_⟩
    have hside := sameSide_of_near hnear
    rwa [inUnits, Nat.cast_mul, Nat.cast_pow] at hside
  unfold UnpackedFloat.normalize
  rcases lt_trichotomy n 0 with hneg | rfl | hpos
  · rw [compare_lt_iff_lt.mpr hneg]
    obtain ⟨w, hw, hside⟩ := hpositive .negative (-n).toNat (by omega)
    refine ⟨_, hw, ?_⟩
    have hcast : ((-n).toNat : Int) = -n := Int.toNat_of_nonneg (by omega)
    rw [hcast, Int.neg_mul] at hside
    have hboth := sameSide_neg hside
    rwa [Int.neg_neg] at hboth
  · refine ⟨0, ?_, ?_⟩
    · rw [compare_eq_iff_eq.mpr rfl]
      change units? (Float.Model.pack (.zero zeroSign)).unpack = some 0
      cases zeroSign <;> rfl
    · rw [Int.zero_mul]
      exact sameSide_refl 0
  · rw [compare_gt_iff_gt.mpr hpos]
    obtain ⟨w, hw, hside⟩ := hpositive .positive n.toNat (by omega)
    refine ⟨_, hw, ?_⟩
    rwa [Int.toNat_of_nonneg (by omega)] at hside

lemma apply_mul (s : Sign) (n k : Int) : s.apply (n * k) = s.apply n * k := by
  cases s
  · exact (Int.neg_mul n k).symm
  · rfl

lemma aligned_units (s : Sign) (m : Nat) {t : Int} (ht : t ≤ e) (hleast : -1074 ≤ t) :
    s.apply (decreaseExponent m e t).1 * 2 ^ (t + 1074).toNat = s.apply (inUnits m e) := by
  have hsum : (e + 1074).toNat = (e - t).toNat + (t + 1074).toNat := by omega
  rw [decreaseExponent, Nat.shiftLeft_eq, inUnits, hsum, Nat.pow_add, ← Nat.mul_assoc]
  rw [Nat.cast_mul _ (2 ^ (t + 1074).toNat), apply_mul, Nat.cast_pow, Nat.cast_two]

lemma ne_infinity {a : UnpackedFloat} (h : units? a = some u) (hu : u.natAbs < inUnits (2 ^ 52) 972)
    (s : Sign) : a ≠ .infinity s := by
  rintro rfl
  cases h
  cases s <;> simp only [Sign.apply] at hu <;> omega

/-- A sum of finite numbers is on the same side of every finite number as the exact sum. -/
lemma add_sameSide {y : Float} (hx : units? x.toModel.unpack = some u)
    (hy : units? y.toModel.unpack = some v) (hu : u.natAbs < inUnits (2 ^ 52) 972)
    (hv : v.natAbs < inUnits (2 ^ 52) 972) :
    ∃ w, units? (x + y).toModel.unpack = some w ∧ SameSide (u + v) w := by
  have hadd : (x + y).toModel =
      Float.Model.pack (UnpackedFloat.add Format.binary64 x.toModel.unpack y.toModel.unpack) := rfl
  have hxs := storable_unpack x
  have hys := storable_unpack y
  have hxi := ne_infinity hx hu
  have hyi := ne_infinity hy hv
  rw [hadd]
  generalize x.toModel.unpack = a at *
  generalize y.toModel.unpack = b at *
  cases a with
  | notANumber => cases hx
  | infinity s => exact absurd rfl (hxi s)
  | zero s =>
    cases hx
    rw [Int.zero_add]
    cases b with
    | notANumber => cases hy
    | infinity t => exact absurd rfl (hyi t)
    | zero t =>
      cases hy
      refine ⟨0, ?_, sameSide_refl 0⟩
      cases s <;> cases t <;> rfl
    | finite t m e hpos =>
      refine ⟨v, ?_, sameSide_refl v⟩
      exact (congrArg units? (unpack_pack_finite t hpos hys.1 hys.2)).trans hy
  | finite s m e hpos =>
    cases b with
    | notANumber => cases hy
    | infinity t => exact absurd rfl (hyi t)
    | zero t =>
      cases hy
      rw [Int.add_zero]
      refine ⟨u, ?_, sameSide_refl u⟩
      exact (congrArg units? (unpack_pack_finite s hpos hxs.1 hxs.2)).trans hx
    | finite t m' e' hpos' =>
      cases hx
      cases hy
      have hleast : -1074 ≤ min e e' := Int.le_min.mpr ⟨hxs.1.2.1, hys.1.2.1⟩
      rw [← aligned_units s m (Int.min_le_left e e') hleast,
        ← aligned_units t m' (Int.min_le_right e e') hleast, ← Int.add_mul]
      exact normalize_sameSide _ hleast .positive

end Sums

section Values

variable {x y z : Float} {m n p u v : Int}

def perOne : Nat :=
  2 ^ 1074

lemma perOne_pos : 0 < perOne := by
  unfold perOne
  positivity

/-- A number that is an integer. -/
structure IsInteger (x : Float) (n : Int) : Prop where
  integral : Decimal.isIntegral x = true
  part : Decimal.integerPart x = n

lemma ofFloat_exponent (x : Float) : -1074 ≤ (Decimal.Binary64.ofFloat x).exponent := by
  unfold Decimal.Binary64.ofFloat
  dsimp only
  split
  · exact Int.le_refl _
  · next h =>
    have hpos : Decimal.exponentBits x ≠ 0 := by simpa using h
    dsimp only
    omega

/-- The fraction that stands for a number is its magnitude over the units of one. -/
lemma inUnits_scaled {b : Decimal.Binary64} (h : -1074 ≤ b.exponent) :
    ∃ k, inUnits b.mantissa b.exponent = b.numerator * 2 ^ k ∧ perOne = b.denominator * 2 ^ k := by
  unfold inUnits perOne Decimal.Binary64.numerator Decimal.Binary64.denominator
  refine ⟨min 1074 (b.exponent + 1074).toNat, ?_, ?_⟩
  · change _ = b.mantissa * 2 ^ _ * 2 ^ _
    rw [Nat.mul_assoc, ← Nat.pow_add]
    congr 2
    omega
  · change _ = 2 ^ _ * 2 ^ _
    rw [← Nat.pow_add]
    congr 1
    omega

lemma integerPart_eq (x : Float) :
    Decimal.integerPart x = (signOf x).apply (magnitude x / perOne : Nat) := by
  obtain ⟨k, hnumerator, hdenominator⟩ := inUnits_scaled (ofFloat_exponent x)
  have hquotient : magnitude x / perOne =
      (Decimal.Binary64.ofFloat x).numerator / (Decimal.Binary64.ofFloat x).denominator := by
    rw [magnitude, hnumerator, hdenominator, Nat.mul_div_mul_right _ _ (Nat.two_pow_pos k)]
  rw [hquotient, signOf, Decimal.integerPart]
  split <;> rfl

lemma isIntegral_iff (x : Float) :
    Decimal.isIntegral x = true ↔ Decimal.isFinite x = true ∧ perOne ∣ magnitude x := by
  obtain ⟨k, hnumerator, hdenominator⟩ := inUnits_scaled (ofFloat_exponent x)
  rw [Decimal.isIntegral, Bool.and_eq_true, beq_iff_eq, magnitude, hnumerator, hdenominator,
    Nat.mul_dvd_mul_iff_right (Nat.two_pow_pos k), Nat.dvd_iff_mod_eq_zero]

lemma natAbs_apply (s : Sign) (k : Nat) : (s.apply k).natAbs = k := by
  cases s
  · exact Int.natAbs_neg k
  · rfl

lemma units_eq (h : units? x.toModel.unpack = some u) : u = (signOf x).apply (magnitude x) := by
  have hnumber : x.toModel.unpack ≠ .notANumber := by
    intro hnan
    rw [hnan] at h
    cases h
  rw [units?_unpack hnumber] at h
  exact (Option.some.inj h).symm

lemma units_of_finite (h : Decimal.isFinite x = true) :
    units? x.toModel.unpack = some ((signOf x).apply (magnitude x)) ∧
      Representable ((signOf x).apply (magnitude x)) := by
  have hbits : Decimal.exponentBits x ≠ 2047 := by simpa [Decimal.isFinite] using h
  have hstorable := storable_unpack x
  rcases unpack_cases x with ⟨h, -⟩ | ⟨h, -⟩ | ⟨-, -, hu⟩ | ⟨-, _, hu⟩ | ⟨-, -, _, hu⟩
  · exact absurd h hbits
  · exact absurd h hbits
  all_goals
    have hunits := units?_unpack (x := x) (by rw [hu]; simp)
    refine ⟨hunits, ?_⟩
    rw [hu] at hunits hstorable
    rw [← Option.some.inj hunits]
  · exact ⟨0, 0, by decide, by simp, inUnits_pos (by decide) 972⟩
  · refine ⟨_, _, hstorable.1.1, natAbs_apply _ _, ?_⟩
    rw [natAbs_apply]
    exact inUnits_lt_infinity hstorable
  · refine ⟨_, _, hstorable.1.1, natAbs_apply _ _, ?_⟩
    rw [natAbs_apply]
    exact inUnits_lt_infinity hstorable

lemma IsInteger.units (h : IsInteger x n) :
    units? x.toModel.unpack = some (n * perOne) ∧ Representable (n * perOne) := by
  obtain ⟨hfinite, k, hk⟩ := (isIntegral_iff x).mp h.integral
  have hsame : (signOf x).apply (magnitude x) = n * perOne := by
    rw [← h.part, integerPart_eq, hk, Nat.mul_div_cancel_left _ perOne_pos, Nat.mul_comm,
      Nat.cast_mul, apply_mul]
  have hunits := units_of_finite hfinite
  rwa [hsame] at hunits

lemma isInteger_of_units (h : units? x.toModel.unpack = some (n * perOne))
    (hless : (n * perOne).natAbs < inUnits (2 ^ 52) 972) : IsInteger x n := by
  have hsame := units_eq h
  have hmagnitude : magnitude x = n.natAbs * perOne := by
    rw [← natAbs_apply (signOf x) (magnitude x), ← hsame, Int.natAbs_mul, Int.natAbs_natCast]
  have hfinite : Decimal.isFinite x = true := by
    by_contra hinfinite
    have hbits : Decimal.exponentBits x = 2047 := by simpa [Decimal.isFinite] using hinfinite
    rcases unpack_cases x with ⟨-, -, hu⟩ | ⟨-, -, hu⟩ | ⟨hbits', -⟩ | ⟨hbits', -⟩ | ⟨-, hbits', -⟩
    · rw [hu] at h
      cases h
    · exact ne_infinity h hless _ hu
    all_goals omega
  refine ⟨(isIntegral_iff x).mpr ⟨hfinite, ?_⟩, ?_⟩
  · rw [hmagnitude]
    exact Nat.dvd_mul_left _ _
  · have hone : (perOne : Int) ≠ 0 := Int.natCast_ne_zero.mpr (Nat.ne_of_gt perOne_pos)
    apply Int.eq_of_mul_eq_mul_right hone
    rw [integerPart_eq, ← apply_mul, hsame, hmagnitude, Nat.mul_div_cancel _ perOne_pos,
      Nat.cast_mul]

lemma lt_iff_compare : x < y ↔ x.toModel.unpack.compare y.toModel.unpack = some .lt := by
  change decide (x.toModel < y.toModel) = true ↔ _
  rw [decide_eq_true_iff]
  exact beq_iff_eq

lemma beq_iff_compare :
    (x == y) = true ↔ x.toModel.unpack.compare y.toModel.unpack = some .eq := by
  change (x.toModel.unpack.compare y.toModel.unpack == some .eq) = true ↔ _
  exact beq_iff_eq

lemma lt_iff_units (hx : units? x.toModel.unpack = some u) (hy : units? y.toModel.unpack = some v) :
    x < y ↔ u < v := by
  rw [lt_iff_compare, compare_units (storable_unpack x) (storable_unpack y) hx hy, Option.some_inj,
    compare_lt_iff_lt]

lemma IsInteger.lt_iff (hx : IsInteger x m) (hy : IsInteger y n) : x < y ↔ m < n := by
  rw [lt_iff_units hx.units.1 hy.units.1]
  exact Int.mul_lt_mul_right (Int.natCast_pos.mpr perOne_pos)

lemma isInteger_zero : IsInteger 0 0 :=
  ⟨by decide +kernel, by decide +kernel⟩

lemma IsInteger.beq_zero (hx : IsInteger x n) : (x == 0) = true ↔ n = 0 := by
  have hcompare := compare_units (storable_unpack x) (storable_unpack 0) hx.units.1
    isInteger_zero.units.1
  rw [beq_iff_compare, hcompare, Option.some_inj, compare_eq_iff_eq, Int.zero_mul, Int.mul_eq_zero]
  exact or_iff_left (Int.natCast_ne_zero.mpr (Nat.ne_of_gt perOne_pos))

lemma representable_small (h : n.natAbs ≤ 2 ^ 53) : Representable (n * perOne) := by
  have habs : (n * perOne).natAbs = n.natAbs * perOne := by
    rw [Int.natAbs_mul, Int.natAbs_natCast]
  -- The exponents are kept from being evaluated.
  obtain ⟨k, hk, hone⟩ : ∃ k, k = 1074 ∧ perOne = 2 ^ k := ⟨1074, rfl, rfl⟩
  have hless : (n * perOne).natAbs < inUnits (2 ^ 52) 972 := by
    rw [habs, hone, inUnits, ← Nat.pow_add]
    calc n.natAbs * 2 ^ k ≤ 2 ^ 53 * 2 ^ k := Nat.mul_le_mul_right _ h
      _ = 2 ^ (53 + k) := (Nat.pow_add 2 53 k).symm
      _ < 2 ^ (52 + (972 + 1074 : Int).toNat) := Nat.pow_lt_pow_right (by decide) (by omega)
  by_cases hfull : n.natAbs = 2 ^ 53
  · refine ⟨2 ^ 52, 1 + k, by decide, ?_, hless⟩
    rw [habs, hfull, hone, Nat.pow_add 2 1 k, ← Nat.mul_assoc,
      show 2 ^ 52 * 2 ^ 1 = 2 ^ 53 by decide]
  · refine ⟨n.natAbs, k, Nat.lt_of_le_of_ne h hfull, ?_, hless⟩
    rw [habs, hone]

lemma isInteger_of_sameSide (hu : units? x.toModel.unpack = some u) (hside : SameSide (n * perOne) u)
    (h : n.natAbs ≤ 2 ^ 53) : IsInteger x n := by
  have hrepresentable := representable_small h
  rw [hside.eq hrepresentable] at hu
  obtain ⟨_, _, _, _, hless⟩ := hrepresentable
  exact isInteger_of_units hu hless

lemma IsInteger.sum (hx : IsInteger x m) (hy : IsInteger y n) :
    ∃ w, units? (x + y).toModel.unpack = some w ∧ SameSide ((m + n) * perOne) w := by
  obtain ⟨hxu, _, _, _, _, hxl⟩ := hx.units
  obtain ⟨hyu, _, _, _, _, hyl⟩ := hy.units
  rw [Int.add_mul]
  exact add_sameSide hxu hyu hxl hyl

/-- A sum below `2 ^ 53` is exact. -/
lemma IsInteger.add (hx : IsInteger x m) (hy : IsInteger y n) (h : (m + n).natAbs < 2 ^ 53) :
    IsInteger (x + y) (m + n) := by
  obtain ⟨w, hw, hside⟩ := hx.sum hy
  exact isInteger_of_sameSide hw hside (Nat.le_of_lt h)

/-- A sum that is not below `2 ^ 53` is not rounded to one that is. -/
lemma IsInteger.add_large (hx : IsInteger x m) (hy : IsInteger y n) (h : 2 ^ 53 ≤ (m + n).natAbs) :
    2 ^ 53 ≤ (Decimal.integerPart (x + y)).natAbs := by
  obtain ⟨w, hw, hside⟩ := hx.sum hy
  rw [integerPart_eq, natAbs_apply, Nat.le_div_iff_mul_le perOne_pos]
  rw [← natAbs_apply (signOf (x + y)) (magnitude (x + y)), ← units_eq hw]
  have hscale : 0 < (perOne : Int) := Int.natCast_pos.mpr perOne_pos
  have hsmall : ∀ k : Int, k.natAbs = 2 ^ 53 → Representable (k * perOne) :=
    fun k hk => representable_small (Nat.le_of_eq hk)
  by_cases hsign : 0 ≤ m + n
  · have hbound := (hside _ (hsmall (2 ^ 53) rfl)).2
      (Int.mul_le_mul_of_nonneg_right (by omega) (Int.le_of_lt hscale))
    zify
    exact Int.le_trans hbound (le_abs_self w)
  · have hbound := (hside _ (hsmall (-2 ^ 53) rfl)).1
      (Int.mul_le_mul_of_nonneg_right (by omega) (Int.le_of_lt hscale))
    zify
    have := neg_abs_le w
    linarith

/-- A sum that is rounded lies on the same side of an integer as the exact one. -/
lemma IsInteger.lt_of_lt_add (hx : IsInteger x m) (hy : IsInteger y n) (hz : IsInteger z p)
    (h : z < x + y) : p < m + n := by
  obtain ⟨w, hw, hside⟩ := hx.sum hy
  obtain ⟨hzu, hz⟩ := hz.units
  rw [lt_iff_units hzu hw] at h
  by_contra hle
  have hbound := (hside _ hz).1 (Int.mul_le_mul_of_nonneg_right (by omega) (Int.natCast_nonneg _))
  omega

lemma IsInteger.lt_of_add_lt (hx : IsInteger x m) (hy : IsInteger y n) (hz : IsInteger z p)
    (h : x + y < z) : m + n < p := by
  obtain ⟨w, hw, hside⟩ := hx.sum hy
  obtain ⟨hzu, hz⟩ := hz.units
  rw [lt_iff_units hw hzu] at h
  by_contra hle
  have hbound := (hside _ hz).2 (Int.mul_le_mul_of_nonneg_right (by omega) (Int.natCast_nonneg _))
  omega

end Values

end XBase.Proofs
