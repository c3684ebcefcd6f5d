import XBase.Run.Call

/-!
# Units

A machine starts with the builtins in its global scope. A unit is a list of statements that runs
in the global scope; what it leaves there the next unit finds.
-/

namespace XBase

namespace Heap

def seedConstant (heap : Heap) (id : ScopeId) (entry : String × Value) : Heap :=
  heap.seed id entry.1 entry.2 .constant

/-- A new scope with the settings and the methods of the connection object. -/
def newConnection (heap : Heap) : ScopeId × Heap :=
  let (id, heap) := heap.newScope none
  let heap := Connection.properties.foldl
    (fun heap name => heap.seed id name (.text "") .variable) heap
  (id, (Connection.methods.map fun name => (name, Value.native .connection)).foldl
    (·.seedConstant id ·) heap)

end Heap

def Native.functions : List Native :=
  [.alltrim, .len, .tick, .tack]

namespace Machine

def startLog : List Record :=
  [⟨.info, "initializing interpreter"⟩, ⟨.info, "registering builtins"⟩] ++
    Native.functions.map fun which =>
      ⟨.debug, "defining native function '" ++ which.name ++ "'"⟩

/-- The global constants apart from the prototypes. -/
def constants : List (String × Value) :=
  [("_VERSION", .text "1.0"), ("_AUTHOR", .text "FoxDream authors"), ("_MYSQL", .number 1),
    ("_MSSQL", .number 2)] ++
    Native.functions.map fun which => (which.name, .native which)

def start (host : Host) : Machine :=
  let (globals, heap) := host.heap.newScope none
  let (blank, heap) := heap.newScope none
  let (array, heap) := heap.newArray #[]
  let (connection, heap) := heap.newConnection
  let prototypes : List (String × Value) :=
    [("empty", .scope blank), ("array", .array array), ("connection", .scope connection)]
  { heap := (constants ++ prototypes).foldl (·.seedConstant globals ·) heap
    globals
    connection
    scope := globals
    saved := []
    held := []
    depth := 0
    steps := 0
    output := ""
    log := startLog.toArray
    session := none
    readings := 0 }

end Machine

namespace Run

/-- Runs statements of a unit up to a `return`. -/
def statements (call : Invocation) : List Stmt → Run Unit
  | [] => pure ()
  | statement :: others => do
    match ← statement.exec call with
    | .normal => statements call others
    | .returned value => record .debug ("top-level return discards `" ++ (← text value) ++ "`")
    | .looped => outsideLoop statement.token "loop"
    | .exited => outsideLoop statement.token "exit"

/-- The calls that the limits allow. -/
def calls : Run Invocation :=
  return invoke (← config).limits.maxDepth

def unit (program : List Stmt) : Run Unit := do
  record .debug ("interpreting " ++ toString program.length ++ " statements")
  modify fun m => { m with steps := 0, depth := 0, scope := m.globals, saved := [], held := [] }
  statements (← calls) program

def value (expression : Expr) : Run Value := do
  expression.eval (← calls)

end Run

end XBase
