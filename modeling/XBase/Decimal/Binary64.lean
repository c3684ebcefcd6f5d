/-!
# Binary numbers

A number of the language is a binary64 float. Its text and its integer part are computed exactly
from its bits: a finite number is a sign and a natural number scaled by a power of two.
-/

namespace XBase.Decimal

/-- The absolute value `mantissa * 2 ^ exponent` of a finite number. -/
structure Binary64 where
  mantissa : Nat
  exponent : Int
  /-- The gap to the value below is half the gap to the value above. -/
  narrowBelow : Bool

def exponentBits (x : Float) : Nat :=
  ((x.toBits >>> 52) &&& 0x7FF).toNat

def fractionBits (x : Float) : Nat :=
  (x.toBits &&& 0xFFFFFFFFFFFFF).toNat

def isNegative (x : Float) : Bool :=
  (x.toBits >>> 63) != 0

def isFinite (x : Float) : Bool :=
  exponentBits x != 0x7FF

def isNaN (x : Float) : Bool :=
  exponentBits x == 0x7FF && fractionBits x != 0

def Binary64.ofFloat (x : Float) : Binary64 :=
  let e := exponentBits x
  let f := fractionBits x
  if e == 0 then ⟨f, -1074, false⟩
  else ⟨Nat.pow 2 52 + f, (e : Int) - 1075, f == 0 && e > 1⟩

def Binary64.numerator (b : Binary64) : Nat :=
  b.mantissa * Nat.pow 2 b.exponent.toNat

/-- The denominator of the value as a fraction of naturals, a power of two. -/
def Binary64.denominator (b : Binary64) : Nat :=
  Nat.pow 2 (-b.exponent).toNat

/-- Whether `x` is finite and has no fractional part. -/
def isIntegral (x : Float) : Bool :=
  let b := Binary64.ofFloat x
  isFinite x && b.numerator % b.denominator == 0

/-- The integer part of a finite number, its fraction cut off. -/
def integerPart (x : Float) : Int :=
  let b := Binary64.ofFloat x
  let n : Int := (b.numerator / b.denominator : Nat)
  if isNegative x then -n else n

/-- The nearest integer of 64 signed bits to `n`. -/
def saturate64 (n : Int) : Int :=
  max (-9223372036854775808) (min 9223372036854775807 n)

end XBase.Decimal
