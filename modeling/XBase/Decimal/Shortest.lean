import XBase.Decimal.Binary64

/-!
# Shortest decimal text

The text of a number has the fewest digits that read back as the same number; of two such texts
the nearer is taken, and a tie goes up. It is written out in full, never with an exponent.
-/

namespace XBase.Decimal

/-- The decimal `digits * 10 ^ scale`. -/
structure Numeral where
  digits : Nat
  scale : Int

/-- Compares `a * 10 ^ i` with `n * 2 ^ j` exactly. -/
def compareScaled (a : Nat) (i : Int) (n : Nat) (j : Int) : Ordering :=
  compare (a * Nat.pow 10 i.toNat * Nat.pow 2 (-j).toNat)
    (n * Nat.pow 2 j.toNat * Nat.pow 10 (-i).toNat)

/-- Whether `d` rounds to `b`: it lies between the midpoints to the neighbours of `b`, which
themselves round to `b` exactly when its mantissa is even. -/
def Binary64.readsBack (b : Binary64) (d : Numeral) : Bool :=
  let below := if b.narrowBelow then 4 * b.mantissa - 1 else 4 * b.mantissa - 2
  let above := 4 * b.mantissa + 2
  let low := compareScaled d.digits d.scale below (b.exponent - 2)
  let high := compareScaled d.digits d.scale above (b.exponent - 2)
  let ends := b.mantissa % 2 == 0
  (low == .gt || (ends && low == .eq)) && (high == .lt || (ends && high == .eq))

def digitCount (n : Nat) : Nat :=
  (Nat.toDigits 10 n).length

/-- The least `k` such that the value is below `10 ^ k`. -/
def Binary64.magnitude (b : Binary64) : Int :=
  let k : Int := (digitCount b.numerator : Int) - digitCount b.denominator
  if b.numerator * Nat.pow 10 (-k).toNat < b.denominator * Nat.pow 10 k.toNat then k else k + 1

/-- The decimal with steps of `10 ^ scale` that reads back as `b` and is nearest to it, if one does. -/
def Binary64.onGrid (b : Binary64) (scale : Int) : Option Numeral :=
  let num := b.numerator * Nat.pow 10 (-scale).toNat
  let den := b.denominator * Nat.pow 10 scale.toNat
  let low : Numeral := ⟨num / den, scale⟩
  let high : Numeral := ⟨num / den + 1, scale⟩
  match b.readsBack low, b.readsBack high with
  | true, true => some (if 2 * (num % den) < den then low else high)
  | true, false => some low
  | false, true => some high
  | false, false => none

def Binary64.exact (b : Binary64) : Numeral :=
  ⟨b.mantissa * Nat.pow 2 b.exponent.toNat * Nat.pow 5 (-b.exponent).toNat, min b.exponent 0⟩

/-- The decimal with the fewest digits that reads back as `b`. -/
def Binary64.shortest (b : Binary64) : Numeral :=
  let k := b.magnitude
  ((List.range 17).findSome? fun n : Nat => b.onGrid (k - (n + 1))).getD b.exact

/-- Splits the decimal point into `digits` from the right; a fraction loses its final zeros and a
whole number has no point. -/
def Numeral.layout (d : Numeral) : String :=
  let digits := Nat.toDigits 10 d.digits
  if 0 ≤ d.scale then String.ofList (digits ++ List.replicate d.scale.toNat '0')
  else
    let places := (-d.scale).toNat
    let padded := List.replicate (places + 1 - digits.length) '0' ++ digits
    let cut := padded.length - places
    let fraction := ((padded.drop cut).reverse.dropWhile (· == '0')).reverse
    String.ofList (padded.take cut ++ if fraction.isEmpty then [] else '.' :: fraction)

def text (x : Float) : String :=
  if isNaN x then "NaN"
  else
    let sign := if isNegative x then "-" else ""
    if !isFinite x then sign ++ "inf"
    else
      let b := Binary64.ofFloat x
      sign ++ if b.mantissa = 0 then "0" else b.shortest.layout

end XBase.Decimal
