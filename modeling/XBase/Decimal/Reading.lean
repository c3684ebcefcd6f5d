import XBase.Decimal.Shortest

/-!
# Reading decimal text

A decimal is an optional sign, digits with at most one point among them and at least one digit,
and an optional exponent. The spelled-out values `inf`, `infinity` and `nan` are read in any case.
-/

namespace XBase.Decimal

def ofDigits (cs : List Char) : Nat :=
  cs.foldl (fun n c => 10 * n + (c.toNat - '0'.toNat)) 0

/-- The float nearest to `digits * 10 ^ scale`. Beyond the range of floats the power of ten is not
computed: the value is infinite or zero already. -/
def Numeral.toFloat (d : Numeral) : Float :=
  let top : Int := (digitCount d.digits : Int) + d.scale
  if d.digits = 0 || top < -330 then 0.0
  else if top > 310 then 1.0 / 0.0
  else Float.ofScientific d.digits (d.scale < 0) d.scale.natAbs

def splitSign : List Char → Bool × List Char
  | '-' :: cs => (true, cs)
  | '+' :: cs => (false, cs)
  | cs => (false, cs)

/-- An exponent, if one stands here and nothing follows it; no text at all is the exponent zero. -/
def readExponent : List Char → Option Int
  | [] => some 0
  | mark :: cs =>
    if mark == 'e' || mark == 'E' then
      let (negative, digits) := splitSign cs
      if digits.isEmpty || !digits.all Char.isDigit then none
      else some (if negative then -(ofDigits digits : Int) else ofDigits digits)
    else none

def readNumeral (cs : List Char) : Option Numeral :=
  let whole := cs.takeWhile Char.isDigit
  let (fraction, rest) := match cs.dropWhile Char.isDigit with
    | '.' :: after => (after.takeWhile Char.isDigit, after.dropWhile Char.isDigit)
    | after => ([], after)
  if whole.isEmpty && fraction.isEmpty then none
  else
    (readExponent rest).map fun exponent =>
      ⟨ofDigits (whole ++ fraction), exponent - fraction.length⟩

def readWord (cs : List Char) : Option Float :=
  let word := String.ofList (cs.map Char.toLower)
  if word == "inf" || word == "infinity" then some (1.0 / 0.0)
  else if word == "nan" then some (0.0 / 0.0)
  else none

def read? (cs : List Char) : Option Float :=
  let (negative, unsigned) := splitSign cs
  let value := (readWord unsigned).or ((readNumeral unsigned).map Numeral.toFloat)
  value.map fun x => if negative then -x else x

end XBase.Decimal
