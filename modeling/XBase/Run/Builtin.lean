import XBase.Database.Connection
import XBase.Database.Cursor
import XBase.Heap.Retention
import XBase.Run.Callable

/-!
# Builtin functions, the connection object and cursors

What a program calls without having declared it.
-/

namespace XBase.Run

/-- Checks the number of arguments of a builtin. -/
def checkCount (site : CallSite) (expected : List ExpectedType)
    (arguments : List ArgumentValue) : Run Unit :=
  if arguments.length != expected.length then
    fail site.token (.argumentCount expected.length arguments.length)
  else pure ()

/-- Checks the types of the arguments of a builtin, from left to right. -/
def checkTypes : List ExpectedType → List ArgumentValue → Run Unit
  | expected :: others, argument :: arguments =>
    if expected.accepts argument.value then checkTypes others arguments
    else fail argument.token (.argumentType expected.name argument.value.typeName)
  | _, _ => pure ()

/-- The cells that hold others in place: the scopes in use, what evaluations have in hand, and the
cells of the host. -/
def roots : Run (List Cell) := do
  let m ← machine
  let hosted := (List.range (← config).host.heap.arrays.size).map Cell.array
  return ([m.globals, m.scope] ++ m.saved).map Cell.scope ++ m.held ++ hosted

/-- The driver and the settings to connect with, read from the connection object. -/
def connectionChoice : Run (Except String (Driver × Settings)) := do
  let m ← machine
  if m.heap.holds (← roots) (.scope m.connection) then
    let settings := Connection.settings m.heap m.connection
    let provider := Connection.provider m.heap m.connection
    return ((← config).host.drivers.select m.heap provider).map fun driver => (driver, settings)
  else return .error "The connection object was released."

/-- Takes over what a method of the connection object leaves behind. -/
def settle {α : Type} (site : CallSite) (reply : ConnectionReply α) : Run α := do
  modify fun m => { m with session := reply.held, log := m.log ++ reply.log }
  lift site.token (reply.result.mapError Fault.host)

def callConnection (site : CallSite) (arguments : List ArgumentValue) : Run Value := do
  let held := (← machine).session
  match site.method with
  | "connect" =>
    let choice ← holding (arguments.map ArgumentValue.value) connectionChoice
    settle site (Connection.connect choice held)
    return .boolean true
  | "disconnect" =>
    settle site (Connection.disconnect held)
    return .boolean true
  | "open" =>
    match arguments with
    | [argument] =>
      let rows ← settle site (Connection.rows (← text argument.value) held)
      return .cursor (← allocate fun heap => heap.newCursor rows)
    | _ => fail site.token (.arityMismatch 1 arguments.length)
  | _ => fail site.token .unknownMethod

def callNative (which : Native) (site : CallSite) (arguments : List ArgumentValue) :
    Run Value := do
  match which with
  | .connection => callConnection site arguments
  | .alltrim =>
    checkCount site which.expected arguments
    checkTypes which.expected arguments
    match arguments with
    | ⟨_, _, .null⟩ :: _ | [] => return .null
    | argument :: _ => return .text (Text.trim (← text argument.value))
  | .len =>
    checkCount site which.expected arguments
    match arguments with
    | ⟨_, _, .text s⟩ :: _ => return .number (Float.ofNat s.length)
    | _ => return .number 0
  | .tick =>
    checkCount site which.expected arguments
    return .number (← now)
  | .tack =>
    checkCount site which.expected arguments
    checkTypes which.expected arguments
    match arguments with
    | ⟨_, _, .number start⟩ :: _ => return .number ((← now) - start)
    | _ => return .number (← now)

def cursor (id : CursorId) : Run Cursor :=
  return ((← heap).cursors[id]?).getD ⟨[], 0, true⟩

def callCursor (id : CursorId) (site : CallSite) (arguments : List ArgumentValue) :
    Run Value := do
  if arguments.length != 0 then fail site.token (.arityMismatch 0 arguments.length)
  else
    let cursor ← cursor id
    match site.method with
    | "next" =>
      modify fun m => { m with heap := m.heap.setCursor id cursor.advance }
      return .boolean (!cursor.advance.atEnd)
    | "eof" => return .boolean cursor.atEnd
    | "close" =>
      modify fun m => { m with heap := m.heap.setCursor id { cursor with closed := true } }
      return .boolean true
    | _ => fail site.token .unknownMethod

/-- Reads a member of a cursor: a column, or the cursor itself for a method. -/
def cursorMember (id : CursorId) (property : Token) : Run Value := do
  if Cursor.isMethod property.lexeme then return .cursor id
  else lift property (((← cursor id).column property.lexeme).mapError Fault.host)

/-- Calls a class, which makes nothing yet. -/
def callClass (id : ClassId) (site : CallSite) (arguments : List ArgumentValue) : Run Value := do
  record .warn (site.token.position.text ++ " construction of class `" ++
    (← heap).className id ++ "` is not supported, " ++ toString arguments.length ++
    " argument(s) ignored")
  return .null

end XBase.Run
