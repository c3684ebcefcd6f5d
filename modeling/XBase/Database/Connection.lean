import XBase.Database.Driver
import XBase.Decimal.Reading
import XBase.Heap.Display
import XBase.Text.Class

/-!
# The connection object

At most one session is held at a time. Connecting again while one is held does nothing, and a
session is given up before it is asked to close, so that it receives nothing after its close.
-/

namespace XBase

/-- Reads an integer of 64 signed bits. -/
def readInteger (cs : List Char) : Option Int :=
  let (negative, digits) := Decimal.splitSign cs
  if digits.isEmpty || !digits.all Char.isDigit then none
  else
    let magnitude : Int := Decimal.ofDigits digits
    let n := if negative then -magnitude else magnitude
    if Decimal.saturate64 n == n then some n else none

namespace Registry

/-- The driver that the `provider` setting selects, a whole number or its text. -/
def select (registry : Registry) (heap : Heap) (provider : Value) : Except String Driver := do
  let unknown := "Unknown provider `" ++ heap.text provider ++ "`."
  let id ← match provider with
    | .number n =>
      if Decimal.isIntegral n then .ok (Decimal.saturate64 (Decimal.integerPart n))
      else .error unknown
    | .text s => ((readInteger (Text.trimChars s.toList)).map Except.ok).getD (.error unknown)
    | _ => .error unknown
  match registry.driver? id with
  | some driver => .ok driver
  | none => .error ("No driver registered for provider " ++ toString id ++ ".")

end Registry

/-- What a method of the connection object leaves behind: its result, the session that is held
afterwards, and its records. -/
structure ConnectionReply (α : Type) where
  result : Except String α
  held : Option DriverSession
  log : List Record

namespace Connection

def notConnected : String :=
  "The connection object is not connected."

/-- Connects with the selected driver unless a session is held. -/
def connect (choice : Except String (Driver × Settings)) (held : Option DriverSession) :
    ConnectionReply Unit :=
  match held with
  | some session => ⟨.ok (), some session, []⟩
  | none =>
    match choice with
    | .error message => ⟨.error message, none, []⟩
    | .ok (driver, settings) =>
      let record : Record := ⟨.debug, "connecting to `" ++ settings.database ++ "` on `" ++
        settings.server ++ ":" ++ settings.port ++ "`"⟩
      match driver.connect settings with
      | .error message => ⟨.error message, none, [record]⟩
      | .ok log => ⟨.ok (), some ⟨driver, settings, []⟩, record :: log⟩

def rows (table : String) (held : Option DriverSession) : ConnectionReply (List Row) :=
  match held with
  | none => ⟨.error notConnected, none, []⟩
  | some session =>
    ⟨session.driver.rows session.settings session.calls table,
      some { session with calls := session.calls ++ [.open table] },
      [⟨.debug, "opening table `" ++ table ++ "`"⟩]⟩

/-- Gives up the held session, then closes it. -/
def disconnect (held : Option DriverSession) : ConnectionReply Unit :=
  match held with
  | none => ⟨.error notConnected, none, []⟩
  | some session =>
    ⟨session.driver.close session.settings session.calls, none,
      [⟨.debug, "closing connection"⟩]⟩

/-- The settings that the connection object starts with, all empty. -/
def properties : List String :=
  ["provider", "server", "database", "user", "password", "port"]

def methods : List String :=
  ["connect", "disconnect", "open"]

/-- A setting of the connection object as text; a missing one is empty. -/
def setting (heap : Heap) (id : ScopeId) (name : String) : String :=
  match heap.lookup id name with
  | .ok value => heap.text value
  | .error _ => ""

def settings (heap : Heap) (id : ScopeId) : Settings where
  provider := setting heap id "provider"
  server := setting heap id "server"
  database := setting heap id "database"
  user := setting heap id "user"
  password := setting heap id "password"
  port := setting heap id "port"

/-- The value of the `provider` setting; a missing one is null. -/
def provider (heap : Heap) (id : ScopeId) : Value :=
  match heap.lookup id "provider" with
  | .ok value => value
  | .error _ => .null

end Connection

end XBase
