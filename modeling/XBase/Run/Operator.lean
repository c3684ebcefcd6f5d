import XBase.Decimal.Reading
import XBase.Heap.Display
import XBase.Run.Fault
import XBase.Text.Class

/-!
# Operators

Arithmetic and comparison take numbers only. `+` also joins texts, and adds to a number whatever
reads as one.
-/

namespace XBase

/-- The number that a text stands for in a sum. Blanks around it are ignored, and of the words for
special numbers only `Infinity` and `NaN` count. -/
def readAddend (cs : List Char) : Option Float :=
  let trimmed := Text.trimChars cs
  let unsigned := (Decimal.splitSign trimmed).2
  match unsigned with
  | c :: _ =>
    if c.isAlpha && unsigned != "Infinity".toList && unsigned != "NaN".toList then none
    else Decimal.read? trimmed
  | [] => none

namespace Heap

def addend (heap : Heap) : Value → Option Float
  | .number n => some n
  | .null | .boolean false => some 0
  | .boolean true => some 1
  | value => readAddend (heap.text value).toList

/-- The sum of two values. A text on the left takes the text of the right, and a number that has
nothing to add stays as it is. -/
def add (heap : Heap) (left right : Value) : Except Fault Value :=
  match left with
  | .text l => .ok (.text (l ++ heap.text right))
  | .number l =>
    match heap.addend right with
    | some r => .ok (.number (l + r))
    | none => .ok (.number l)
  | _ => .error .incompatibleTypes

end Heap

def Value.numbers : Value → Value → Except Fault (Float × Float)
  | .number l, .number r => .ok (l, r)
  | _, _ => .error .operandsNotNumbers

def Heap.binary (heap : Heap) (operator : Category) (left right : Value) : Except Fault Value :=
  match operator with
  | .plus => heap.add left right
  | .minus => do
    let (l, r) ← left.numbers right
    return .number (l - r)
  | .times => do
    let (l, r) ← left.numbers right
    return .number (l * r)
  | .over => do
    let (l, r) ← left.numbers right
    if r == 0 then .error .divisionByZero else .ok (.number (l / r))
  | .greater => do
    let (l, r) ← left.numbers right
    return .boolean (r < l)
  | .greaterEq => do
    let (l, r) ← left.numbers right
    return .boolean (r ≤ l)
  | .less => do
    let (l, r) ← left.numbers right
    return .boolean (l < r)
  | .lessEq => do
    let (l, r) ← left.numbers right
    return .boolean (l ≤ r)
  | .equal => .ok (.boolean (left.equals right))
  | .notEqual => .ok (.boolean (!left.equals right))
  | _ => .error .incompatibleTypes

def Value.unary (operator : Category) (right : Value) : Except Fault Value :=
  match operator, right with
  | .bang, right => .ok (.boolean (!right.isTruthy))
  | .minus, .number n => .ok (.number (-n))
  | .plus, .number n => .ok (.number n)
  | .minus, _ | .plus, _ => .error .operandNotNumber
  | _, _ => .error .incompatibleTypes

end XBase
