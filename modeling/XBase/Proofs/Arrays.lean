import XBase.Proofs.Compound
import XBase.Proofs.Guard

/-!
# The methods of an array

The methods that search an array agree on what they find, which is the first element that equals the
value. The others change the end or one place, and reading and writing a place by its index is the
same as calling a method. A call that fails changes nothing.
-/

namespace XBase

/-- No number at all, which equals nothing. -/
def Value.isNaN : Value → Bool
  | .number x => Decimal.isNaN x
  | _ => false

namespace Elements

/-- The first element that equals a value, and the elements before and behind it. -/
structure Finds (elements : Elements) (value : Value) (before : List Value) (found : Value)
    (behind : List Value) : Prop where
  split : elements.toList = before ++ found :: behind
  equal : found.equals value = true
  first : ∀ other ∈ before, other.equals value = false

/-- The error of an index that is no integer inside the array. -/
def indexError (elements : Elements) (site : CallSite) (index : ArgumentValue) : RuntimeError :=
  match index.value with
  | .number x => .ofToken site.token (.indexOutOfBounds x elements.size)
  | _ => .ofToken index.token .indexNotNumber

/-- A place in the code for a call of each method. -/
structure Sites where
  add : CallSite
  remove : CallSite
  contains : CallSite
  indexOf : CallSite
  get : CallSite
  set : CallSite
  add_method : add.method = "add"
  remove_method : remove.method = "remove"
  contains_method : contains.method = "contains"
  indexOf_method : indexOf.method = "indexof"
  get_method : get.method = "get"
  set_method : set.method = "set"

end Elements

def Machine.withElements (m : Machine) (id : ArrayId) (elements : Elements) : Machine :=
  { m with heap := m.heap.setElements id elements }

namespace Proofs

open Float.Model Float.Model.UnpackedFloat

section Indices

/-- A mantissa that is written longer than it has to be is rounded all the same. -/
lemma scaled_sameSide {m : Nat} {e : Int} (hpos : 0 < m) (he : -1021 ≤ e) (k : Nat) (hk : k ≤ 1) :
    ∃ w : Nat, units? (Float.Model.pack (roundWithAccuracy Format.binary64 .positive
        (m * 2 ^ (52 + k)) (e - (52 + k : Nat)) .exact)).unpack = some ↑w ∧
      SameSide (inUnits m e) w := by
  have hlog : (m * 2 ^ (52 + k)).log2 = 52 + (m.log2 + k) := by
    rw [log2_mul_pow hpos]
    omega
  obtain ⟨m', e', hpos', hround, hnormalized, hunits⟩ :=
    roundWithAccuracy_long .positive hlog (e := e - (52 + k : Nat)) (by omega)
  have hlarge := Nat.log2_self_le (Nat.ne_of_gt (Nat.mul_pos hpos (Nat.two_pow_pos (52 + k))))
  rw [hlog] at hlarge
  have hsame : inUnits m e = m * 2 ^ (52 + k) * 2 ^ (e - (52 + k : Nat) + 1074).toNat := by
    rw [inUnits, Nat.mul_assoc, ← Nat.pow_add]
    congr 2
    omega
  rw [hround, hsame]
  refine ⟨_, units?_pack .positive hpos' hnormalized, sameSide_of_near ?_⟩
  rw [hunits]
  exact near_roundedAway hlarge _

lemma inUnits_zero (n : Nat) : (inUnits n 0 : Int) = n * perOne := by
  obtain ⟨k, hk, hone⟩ : ∃ k, k = 1074 ∧ perOne = 2 ^ k := ⟨1074, rfl, rfl⟩
  rw [inUnits, show (0 + 1074 : Int).toNat = k by omega, ← hone, Nat.cast_mul]

lemma units_toFloat {n : Nat} (h : n < 2 ^ 53) :
    units? n.toUInt64.toFloat.toModel.unpack = some (n * perOne : Int) := by
  have hround := normalize_sameSide n (e := 0) (by decide) .positive
  have hmodel : n.toUInt64.toFloat.toModel =
      Float.Model.pack (normalize Format.binary64 n.toUInt64.toNat 0 .positive) := rfl
  rw [Nat.toUInt64_eq, UInt64.toNat_ofNat_of_lt' (Nat.lt_trans h (by decide))] at hmodel
  rw [Nat.toUInt64_eq, hmodel]
  obtain ⟨w, hw, hside⟩ := hround
  have hunits : (n : Int) * 2 ^ (0 + 1074 : Int).toNat = inUnits n 0 := by
    rw [inUnits, Nat.cast_mul, Nat.cast_pow, Nat.cast_two]
  rw [hunits, inUnits_zero] at hside
  rw [hw, hside.eq (representable_small (by omega))]

lemma one_unpack : (Float.ofBits 0x3FF0000000000000).toModel.unpack =
    .finite .positive (2 ^ 52) (-52) (Nat.two_pow_pos 52) := by
  rfl

lemma ofNat_small {n : Nat} (h : n < 2 ^ 53) :
    (Float.ofNat n).toModel = Float.Model.pack (mul Format.binary64
      n.toUInt64.toFloat.toModel.unpack (.finite .positive (2 ^ 52) (-52) (Nat.two_pow_pos 52))) := by
  unfold Float.ofNat OfScientific.ofScientific instOfScientificFloat Float.ofScientific
  dsimp only
  rw [dif_pos ⟨h, Nat.zero_le 22⟩, if_neg Bool.false_ne_true, ← one_unpack]
  rfl

lemma ofNat_large {n : Nat} (h : ¬ n < 2 ^ 53) :
    (Float.ofNat n).toModel = Float.Model.pack
      (roundWithAccuracy Format.binary64 .positive (n * 2 ^ 53) (0 - 53) .exact) := by
  unfold Float.ofNat OfScientific.ofScientific instOfScientificFloat Float.ofScientific
  dsimp only
  rw [dif_neg fun hsmall => h hsmall.1]
  change Float.Model.pack (UnpackedFloat.ofScientific Format.binary64 n 0) = _
  rw [UnpackedFloat.ofScientific, dif_neg (by omega), if_neg (by decide), if_neg, if_pos (by decide)]
  · have hbits : Format.binary64.mantissaBits = 53 := rfl
    simp only [UnpackedFloat.mul, Nat.shiftLeft_eq, hbits, Int.toNat_zero, Nat.pow_zero, Nat.mul_one]
    rfl
  · have hpos : (0 : Int) < 2 ^ Format.binary64.exponentBits := by decide
    omega

/-- A natural number becomes the number that is nearest. -/
lemma ofNat_sameSide (n : Nat) :
    ∃ w : Nat, units? (Float.ofNat n).toModel.unpack = some ↑w ∧ SameSide (n * perOne) w := by
  by_cases h : n < 2 ^ 53
  · have hunits := units_toFloat h
    have hstorable := storable_unpack n.toUInt64.toFloat
    obtain ⟨_, _, _, _, hless⟩ := representable_small (n := n) (by omega)
    have hfinite := ne_infinity hunits hless
    rw [ofNat_small h]
    generalize n.toUInt64.toFloat.toModel.unpack = a at *
    cases a with
    | notANumber => cases hunits
    | infinity s => exact absurd rfl (hfinite s)
    | zero s =>
      have hzero : (0 : Int) = n * perOne := Option.some_inj.mp hunits
      refine ⟨0, ?_, hzero ▸ sameSide_refl 0⟩
      cases s <;> rfl
    | finite s m e hm =>
      have hsame : s.apply (inUnits m e) = n * perOne := Option.some_inj.mp hunits
      have hpos : 0 < inUnits m e := inUnits_pos hm e
      cases s with
      | negative =>
        have hneg : -(inUnits m e : Int) = n * perOne := hsame
        have hnonneg : (0 : Int) ≤ n * perOne := Int.mul_nonneg (by omega) (by omega)
        omega
      | positive =>
        replace hsame : (inUnits m e : Int) = n * perOne := hsame
        have hexponent : -1021 ≤ e := by
          by_contra hsmall
          obtain ⟨k, hk, hone⟩ : ∃ k, k = 1074 ∧ perOne = 2 ^ k := ⟨1074, rfl, rfl⟩
          have hless : inUnits m e < perOne := by
            calc inUnits m e ≤ 2 ^ 53 * 2 ^ 52 := Nat.mul_le_mul (Nat.le_of_lt hstorable.1.1)
                  (Nat.pow_le_pow_right (by decide) (by omega))
              _ = 2 ^ (53 + 52) := (Nat.pow_add 2 53 52).symm
              _ < 2 ^ k := Nat.pow_lt_pow_right (by decide) (by omega)
              _ = perOne := hone.symm
          have hle : perOne ≤ n * perOne := Nat.le_mul_of_pos_left _ (by
            rw [Nat.pos_iff_ne_zero]
            rintro rfl
            omega)
          omega
        rw [← hsame]
        exact scaled_sameSide hm hexponent 0 (Nat.zero_le 1)
  · rw [ofNat_large h, ← inUnits_zero]
    exact scaled_sameSide (by omega) (by decide) 1 (Nat.le_refl 1)

lemma ofNat_nonneg (n : Nat) : 0 ≤ Float.ofNat n := by
  obtain ⟨w, hw, -⟩ := ofNat_sameSide n
  rw [le_iff_units isInteger_zero.units.1 hw, Int.zero_mul]
  exact Int.natCast_nonneg w

lemma isInteger_ofNat {n : Nat} (h : n ≤ 2 ^ 53) : IsInteger (Float.ofNat n) n := by
  obtain ⟨w, hw, hside⟩ := ofNat_sameSide n
  exact isInteger_of_sameSide hw hside (by omega)

lemma beq_self_iff (x : Float) : (x == x) = true ↔ ¬ Decimal.isNaN x = true := by
  rw [beq_iff_compare]
  by_cases hnan : Decimal.isNaN x = true
  · rw [(isNaN_iff x).mp hnan]
    simp [UnpackedFloat.compare, hnan]
  · obtain ⟨u, hu⟩ := units_of_ordered hnan
    rw [compare_units (storable_unpack x) (storable_unpack x) hu hu]
    simp [hnan]

lemma beq_nan {x : Float} (h : Decimal.isNaN x = true) (y : Float) : (y == x) = false := by
  rw [Bool.eq_false_iff, ne_eq, beq_iff_compare, (isNaN_iff x).mp h]
  cases y.toModel.unpack <;> simp [UnpackedFloat.compare]

end Indices

section Elements

variable {elements : Elements} {value : Value} {site : CallSite}

lemma equals_self_iff (value : Value) : value.equals value = true ↔ value.isNaN = false := by
  cases value with
  | number x => rw [Value.equals, beq_self_iff, Value.isNaN, Bool.not_eq_true]
  | _ => simp [Value.equals, Value.isNaN]

lemma equals_nan (h : value.isNaN = true) (other : Value) : other.equals value = false := by
  cases value with
  | number x => cases other <;> simp [Value.equals, beq_nan h]
  | _ => cases h

/-- An element is found exactly if there is one that equals the value. -/
lemma place?_cases (elements : Elements) (value : Value) :
    (∃ before found behind, elements.Finds value before found behind ∧
      elements.place? value = some before.length) ∨
    (∀ other ∈ elements, other.equals value = false) ∧ elements.place? value = none := by
  cases hplace : elements.place? value with
  | none => exact .inr ⟨Array.findIdx?_eq_none_iff.mp hplace, rfl⟩
  | some place =>
    obtain ⟨hlt, hequal, hfirst⟩ := Array.findIdx?_eq_some_iff_getElem.mp hplace
    refine .inl ⟨elements.toList.take place, elements[place], elements.toList.drop (place + 1),
      ⟨?_, hequal, ?_⟩, ?_⟩
    · rw [← Array.getElem_toList, ← List.drop_eq_getElem_cons, List.take_append_drop]
    · intro other hother
      obtain ⟨i, hi, rfl⟩ := List.mem_take_iff_getElem.mp hother
      simpa using hfirst i (by omega)
    · simp [Nat.min_eq_left (Nat.le_of_lt hlt)]

lemma erase_found {before behind : List Value} {found : Value}
    (h : elements.Finds value before found behind) :
    elements.eraseIdxIfInBounds before.length = (before ++ behind).toArray := by
  obtain ⟨list⟩ := elements
  obtain rfl : list = _ := h.split
  have herase : (before ++ found :: behind).eraseIdx before.length = before ++ behind := by
    rw [List.eraseIdx_append_of_length_le (Nat.le_refl _), Nat.sub_self, List.eraseIdx_cons_zero]
  simp [Array.eraseIdxIfInBounds, herase]

lemma slot_of_isInteger {index : Float} {place : Nat} (h : IsInteger index place)
    (hlt : place < elements.size) : elements.slot index = .ok place := by
  simp [Elements.slot, h.integral, h.part, hlt]

lemma slot_outside {index : Float} (h : ∀ place < elements.size, ¬ IsInteger index place) :
    elements.slot index = .error (.indexOutOfBounds index elements.size) := by
  unfold Elements.slot
  refine if_neg fun hin => ?_
  simp only [Bool.and_eq_true, decide_eq_true_eq] at hin
  refine h (Decimal.integerPart index).toNat (by omega) ⟨hin.1.1, ?_⟩
  rw [Int.toNat_of_nonneg hin.1.2]

end Elements

section Calls

variable {invoke : Invocation} {c : Config} {m : Machine} {id : ArrayId} {site : CallSite}
  {arguments : List ArgumentValue} {elements : Elements}

lemma withElements_self (m : Machine) (id : ArrayId) :
    m.withElements id (m.heap.elements id) = m := by
  have harrays : m.heap.arrays.setIfInBounds id (m.heap.elements id) = m.heap.arrays := by
    unfold Array.setIfInBounds
    split
    · next h => simp [Heap.elements, h]
    · rfl
  unfold Machine.withElements Heap.setElements
  rw [harrays]

lemma updateElements_run {α : Type} (f : Elements → α × Elements)
    (helements : m.heap.elements id = elements) :
    Run.updateElements id f c m = (.ok (f elements).1, m.withElements id (f elements).2) := by
  rw [Run.updateElements, Run.allocate, updateElements_eq, helements]
  rfl

variable (helements : m.heap.elements id = elements)

include helements

lemma apply_array :
    Run.apply invoke (.array id) site arguments c m =
      ((elements.call site arguments).1.mapError .failure,
        m.withElements id (elements.call site arguments).2) := by
  refine (bind_ok (updateElements_run _ helements)).trans ?_
  cases (elements.call site arguments).1 <;> rfl

lemma apply_gives {value : Value} (h : elements.call site arguments = (.ok value, elements)) :
    Run.apply invoke (.array id) site arguments c m = (.ok value, m) := by
  rw [apply_array helements, h, ← helements, withElements_self]
  rfl

lemma apply_refuses {error : RuntimeError}
    (h : elements.call site arguments = (.error error, elements)) :
    Run.apply invoke (.array id) site arguments c m = (.error (.failure error), m) := by
  rw [apply_array helements, h, ← helements, withElements_self]
  rfl

lemma apply_changed {value : Value} {after : Elements}
    (h : elements.call site arguments = (.ok value, after)) :
    Run.apply invoke (.array id) site arguments c m = (.ok value, m.withElements id after) := by
  rw [apply_array helements, h]
  rfl

end Calls

section Agreement

variable (sites : Elements.Sites) (invoke : Invocation) (c : Config) (m : Machine) (id : ArrayId)
  (elements : Elements)

/-- What the methods that search for a value give: whether it was found, its index and, after it was
removed, the remaining elements. -/
structure SearchesAgree (value : ArgumentValue) (found : Bool) (index : Float)
    (remaining : Elements) : Prop where
  contains : Run.apply invoke (.array id) sites.contains [value] c m = (.ok (.boolean found), m)
  indexOf : Run.apply invoke (.array id) sites.indexOf [value] c m = (.ok (.number index), m)
  remove : Run.apply invoke (.array id) sites.remove [value] c m =
    (.ok (.boolean found), m.withElements id remaining)
  sign : found = true ↔ 0 ≤ index
  hit : found = true → ∃ before first behind, elements.Finds value.value before first behind ∧
    index = Float.ofNat before.length ∧ (before.length ≤ 2 ^ 53 → IsInteger index before.length) ∧
    remaining = (before ++ behind).toArray
  miss : found = false → (∀ other ∈ elements, other.equals value.value = false) ∧
    remaining = elements

/-- How the methods of an array work together in a machine that holds the array. -/
structure MethodsAgree : Prop where
  /-- The methods that search find the same, the first equal element. -/
  searches (value : ArgumentValue) : ∃ found index remaining,
    SearchesAgree sites invoke c m id elements value found index remaining
  /-- What is added stands at the end, and is then found unless it is no number. -/
  adds (value : ArgumentValue) :
    Run.apply invoke (.array id) sites.add [value] c m =
        (.ok (.boolean true), m.withElements id (elements.push value.value)) ∧
      Run.apply invoke (.array id) sites.contains [value] c
          (m.withElements id (elements.push value.value)) =
        (.ok (.boolean !value.value.isNaN), m.withElements id (elements.push value.value))
  /-- An integer inside the array is an index, for reading and for writing. -/
  inside {index : ArgumentValue} {x : Float} {place : Nat} {old : Value}
    (hnumber : index.value = .number x) (hinteger : IsInteger x place)
    (hold : elements[place]? = some old) (value : ArgumentValue) :
    Run.apply invoke (.array id) sites.get [index] c m = (.ok old, m) ∧
      Run.apply invoke (.array id) sites.set [index, value] c m =
        (.ok old, m.withElements id (elements.setIfInBounds place value.value))
  /-- Nothing else is. -/
  outside {index : ArgumentValue} (hindex : ∀ x place, index.value = .number x →
      IsInteger x (place : Nat) → elements.size ≤ place) (value : ArgumentValue) :
    Run.apply invoke (.array id) sites.get [index] c m =
        (.error (.failure (elements.indexError sites.get index)), m) ∧
      Run.apply invoke (.array id) sites.set [index, value] c m =
        (.error (.failure (elements.indexError sites.set index)), m)
  /-- Brackets with a number do what the methods do. -/
  brackets {index : ArgumentValue} {x : Float} (hnumber : index.value = .number x)
    (value : ArgumentValue) :
    Run.readIndex (.array id) (.number x) sites.get.token c m =
        Run.apply invoke (.array id) sites.get [index] c m ∧
      Run.writeIndex (.array id) (.number x) sites.set.token value.value c m =
        ((Run.apply invoke (.array id) sites.set [index, value] c m).1.map fun _ => (),
          (Run.apply invoke (.array id) sites.set [index, value] c m).2)
  /-- Another name is refused, and so is another number of arguments. -/
  unknown {site : CallSite} (h : Elements.arity? site.method = none)
    (arguments : List ArgumentValue) : Run.apply invoke (.array id) site arguments c m =
      (.error (.failure (.ofToken site.token .unknownMethod)), m)
  miscounted {site : CallSite} {n : Nat} (h : Elements.arity? site.method = some n)
    {arguments : List ArgumentValue} (hlength : arguments.length ≠ n) :
    Run.apply invoke (.array id) site arguments c m =
      (.error (.failure (.ofToken site.token (.arityMismatch n arguments.length))), m)
  /-- Whatever fails changes nothing. -/
  keeps {site : CallSite} {arguments : List ArgumentValue} {halt : Halt}
    (h : (Run.apply invoke (.array id) site arguments c m).1 = .error halt) :
    (Run.apply invoke (.array id) site arguments c m).2 = m

variable {m id elements}

lemma searches_agree (helements : m.heap.elements id = elements) (value : ArgumentValue) :
    ∃ found index remaining,
      SearchesAgree sites invoke c m id elements value found index remaining := by
  have hcontains : elements.call sites.contains [value] =
      (.ok (.boolean (elements.place? value.value).isSome), elements) := by
    unfold Elements.call
    simp only [sites.contains_method]
  rcases place?_cases elements value.value with
    ⟨before, first, behind, hfinds, hplace⟩ | ⟨hnone, hplace⟩
  · have hindexOf : elements.call sites.indexOf [value] =
        (.ok (.number (Float.ofNat before.length)), elements) := by
      unfold Elements.call
      simp only [sites.indexOf_method, hplace]
    have hremove : elements.call sites.remove [value] =
        (.ok (.boolean true), (before ++ behind).toArray) := by
      unfold Elements.call
      simp only [sites.remove_method, hplace, erase_found hfinds]
    rw [hplace] at hcontains
    exact ⟨true, _, _, {
      contains := apply_gives helements hcontains
      indexOf := apply_gives helements hindexOf
      remove := apply_changed helements hremove
      sign := iff_of_true rfl (ofNat_nonneg _)
      hit := fun _ => ⟨before, first, behind, hfinds, rfl, isInteger_ofNat, rfl⟩
      miss := fun h => absurd h (by decide) }⟩
  · have hindexOf : elements.call sites.indexOf [value] = (.ok (.number (-1)), elements) := by
      unfold Elements.call
      simp only [sites.indexOf_method, hplace]
    have hremove : elements.call sites.remove [value] = (.ok (.boolean false), elements) := by
      unfold Elements.call
      simp only [sites.remove_method, hplace]
    rw [hplace] at hcontains
    exact ⟨false, _, _, {
      contains := apply_gives helements hcontains
      indexOf := apply_gives helements hindexOf
      remove := apply_changed helements hremove
      sign := iff_of_false Bool.false_ne_true (by decide +kernel)
      hit := fun h => absurd h (by decide)
      miss := fun _ => ⟨hnone, rfl⟩ }⟩

lemma contains_pushed (elements : Elements) (value : Value) :
    (Elements.place? (elements.push value) value).isSome = !value.isNaN := by
  rw [Elements.place?, Array.findIdx?_isSome]
  cases hnan : value.isNaN with
  | false => simp [(equals_self_iff value).mpr hnan]
  | true => simp [equals_nan hnan]

lemma call_get {site : CallSite} (hsite : site.method = "get") {index : ArgumentValue} {x : Float}
    (hnumber : index.value = .number x) (elements : Elements) :
    elements.call site [index] = ((elements.get x).mapError (.ofToken site.token), elements) := by
  unfold Elements.call
  simp only [hsite, Elements.index, hnumber]

lemma call_set {site : CallSite} (hsite : site.method = "set") {index value : ArgumentValue}
    {x : Float} (hnumber : index.value = .number x) (elements : Elements) :
    elements.call site [index, value] =
      ((elements.set x value.value).1.mapError (.ofToken site.token),
        (elements.set x value.value).2) := by
  unfold Elements.call
  simp only [hsite, Elements.index, hnumber]

/-- The methods of an array agree with each other and with brackets, and a call that fails changes
nothing. -/
theorem array_methods_agree (hid : id < m.heap.arrays.size) :
    MethodsAgree sites invoke c m id (m.heap.elements id) where
  searches := searches_agree sites invoke c rfl
  adds value := by
    constructor
    · refine apply_changed rfl ?_
      unfold Elements.call
      simp only [sites.add_method]
    · refine apply_gives (elements_setElements_self _ hid) ?_
      unfold Elements.call
      simp only [sites.contains_method, contains_pushed]
  inside := by
    intro index x place old hnumber hinteger hold value
    have hslot := slot_of_isInteger hinteger (Array.getElem?_eq_some_iff.mp hold).1
    constructor
    · refine apply_gives rfl ?_
      rw [call_get sites.get_method hnumber, Elements.get, hslot]
      simp [Except.mapError, hold]
    · refine apply_changed rfl ?_
      rw [call_set sites.set_method hnumber, Elements.set, hslot]
      simp [Except.mapError, hold]
  outside := by
    intro index hindex value
    cases hnumber : index.value with
    | number x =>
      have hslot := slot_outside fun place hlt hinteger =>
        Nat.not_le_of_lt hlt (hindex x place hnumber hinteger)
      simp only [Elements.indexError, hnumber]
      constructor
      · refine apply_refuses rfl ?_
        rw [call_get sites.get_method hnumber, Elements.get, hslot]
        rfl
      · refine apply_refuses rfl ?_
        rw [call_set sites.set_method hnumber, Elements.set, hslot]
        rfl
    | _ =>
      simp only [Elements.indexError, hnumber]
      constructor
      all_goals
        refine apply_refuses rfl ?_
        unfold Elements.call
        simp only [sites.get_method, sites.set_method, Elements.index, hnumber]
  brackets := by
    intro index x hnumber value
    constructor
    · rw [apply_array rfl, call_get sites.get_method hnumber, withElements_self]
      change Run.lift _ _ c m = _
      cases Elements.get (m.heap.elements id) x <;> rfl
    · rw [apply_array rfl, call_set sites.set_method hnumber]
      refine (bind_ok (updateElements_run _ rfl)).trans ?_
      cases (Elements.set (m.heap.elements id) x value.value).1 <;> rfl
  unknown h arguments := apply_refuses rfl (call_unknown h _ arguments)
  miscounted h _ hlength := apply_refuses rfl (call_mismatch h hlength _)
  keeps := by
    intro site arguments halt h
    rw [apply_array rfl] at h ⊢
    generalize hcall : Elements.call (m.heap.elements id) site arguments = answer at h ⊢
    cases hcall ▸ call_answers (m.heap.elements id) site arguments with
    | refused _ _ => exact withElements_self m id
    | gave _ _ => cases h

def callOf (name : String) : CallSite :=
  ⟨nameToken name, some name⟩

def twins : Elements := #[.number 1, .text "x", .number 1]

/-- The first of two equal elements is found and removed. -/
theorem first_twin_removed :
    let sites : Elements.Sites := ⟨callOf "add", callOf "remove", callOf "contains", callOf "indexOf",
      callOf "get", callOf "set", by decide +kernel, by decide +kernel, by decide +kernel,
      by decide +kernel, by decide +kernel, by decide +kernel⟩
    let c : Config := ⟨⟨none, 2⟩, bareHost⟩
    let m := { Machine.start bareHost with heap := { Heap.empty with arrays := #[twins] } }
    0 < m.heap.arrays.size ∧ MethodsAgree sites (below 1) c m 0 twins ∧
      Run.apply (below 1) (.array 0) sites.remove [⟨nameToken "one", none, .number 1⟩] c m =
        (.ok (.boolean true), m.withElements 0 #[.text "x", .number 1]) := by
  intro sites c m
  have hagree : MethodsAgree sites (below 1) c m 0 twins := array_methods_agree _ _ _ (by decide)
  refine ⟨by decide, hagree, ?_⟩
  have hequal : Value.equals (.number 1) (.number 1) = true := by decide +kernel
  obtain ⟨found, index, remaining, hsearches⟩ := hagree.searches ⟨nameToken "one", none, .number 1⟩
  rw [hsearches.remove]
  cases found with
  | false =>
    have hunequal := (hsearches.miss rfl).1 (.number 1) (by simp [twins])
    exact absurd hequal (Bool.eq_false_iff.mp hunequal)
  | true =>
    obtain ⟨before, first, behind, hfinds, -, -, rfl⟩ := hsearches.hit rfl
    have hsplit := hfinds.split
    cases before with
    | nil =>
      cases hsplit
      rfl
    | cons other before =>
      obtain rfl : .number 1 = other := (List.cons.inj hsplit).1
      exact absurd hequal (Bool.eq_false_iff.mp (hfinds.first _ List.mem_cons_self))

end Agreement

end Proofs

end XBase
