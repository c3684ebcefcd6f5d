import XBase.Run.Callable

/-!
# Arrays

The methods of an array are functions of its elements. An element is found by equality, and an
index counts from zero.
-/

namespace XBase

abbrev Elements := Array Value

namespace Elements

/-- The place of an index, which has to be a whole number inside the array. -/
def slot (elements : Elements) (index : Float) : Except Fault Nat :=
  let place := Decimal.integerPart index
  if Decimal.isIntegral index && 0 ≤ place && place < elements.size then .ok place.toNat
  else .error (.indexOutOfBounds index elements.size)

def get (elements : Elements) (index : Float) : Except Fault Value := do
  return elements.getD (← elements.slot index) .null

/-- Replaces the element at an index and gives the old one. -/
def set (elements : Elements) (index : Float) (value : Value) : Except Fault Value × Elements :=
  match elements.slot index with
  | .ok place => (.ok (elements.getD place .null), elements.setIfInBounds place value)
  | .error fault => (.error fault, elements)

def place? (elements : Elements) (value : Value) : Option Nat :=
  elements.findIdx? (·.equals value)

def index (argument : ArgumentValue) : Except RuntimeError Float :=
  match argument.value with
  | .number n => .ok n
  | _ => .error (.ofToken argument.token .indexNotNumber)

/-- A call with a number of arguments that the method does not take. -/
def mismatch (site : CallSite) (expected : Nat) (arguments : List ArgumentValue) :
    Except RuntimeError Value :=
  .error (.ofToken site.token (.arityMismatch expected arguments.length))

/-- What a method of an array gives and the elements after it. A method that fails changes
nothing. -/
def call (elements : Elements) (site : CallSite) (arguments : List ArgumentValue) :
    Except RuntimeError Value × Elements :=
  match site.method, arguments with
  | "add", [argument] => (.ok (.boolean true), elements.push argument.value)
  | "add", _ => (mismatch site 1 arguments, elements)
  | "remove", [argument] =>
    match elements.place? argument.value with
    | some place => (.ok (.boolean true), elements.eraseIdxIfInBounds place)
    | none => (.ok (.boolean false), elements)
  | "remove", _ => (mismatch site 1 arguments, elements)
  | "contains", [argument] =>
    (.ok (.boolean (elements.place? argument.value).isSome), elements)
  | "contains", _ => (mismatch site 1 arguments, elements)
  | "get", [argument] =>
    match index argument with
    | .ok index => ((elements.get index).mapError (.ofToken site.token), elements)
    | .error error => (.error error, elements)
  | "get", _ => (mismatch site 1 arguments, elements)
  | "set", [argument, value] =>
    match index argument with
    | .ok index =>
      match elements.set index value.value with
      | (result, elements) => (result.mapError (.ofToken site.token), elements)
    | .error error => (.error error, elements)
  | "set", _ => (mismatch site 2 arguments, elements)
  | "len", [] => (.ok (.number (Float.ofNat elements.size)), elements)
  | "len", _ => (mismatch site 0 arguments, elements)
  | "indexof", [argument] =>
    match elements.place? argument.value with
    | some place => (.ok (.number (Float.ofNat place)), elements)
    | none => (.ok (.number (-1)), elements)
  | "indexof", _ => (mismatch site 1 arguments, elements)
  | _, _ => (.error (.ofToken site.token .unknownMethod), elements)

end Elements

namespace Run

/-- A result whose error has its place already. -/
def ofResult {α : Type} (result : Except RuntimeError α) : Run α :=
  match result with
  | .ok a => pure a
  | .error error => halt (.failure error)

def updateElements {α : Type} (id : ArrayId) (f : Elements → α × Elements) : Run α :=
  allocate fun heap => heap.updateElements id f

def callArray (id : ArrayId) (site : CallSite) (arguments : List ArgumentValue) : Run Value := do
  ofResult (← updateElements id fun elements => elements.call site arguments)

def push (id : ArrayId) (value : Value) : Run Unit :=
  updateElements id fun elements => ((), elements.push value)

end Run

end XBase
