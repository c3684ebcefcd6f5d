import XBase.Database.Driver
import XBase.Heap.Display
import XBase.Heap.Retention
import XBase.Run.Fault

/-!
# The machine and its actions

A machine is the whole state of a session: the heap, the current scope, the counters and what has
been printed. An action reads the configuration, changes the machine and gives a value or halts;
when it halts, the machine that it left behind is kept.
-/

namespace XBase

/-- How far a unit may go. -/
structure Limits where
  /-- Statements and rounds of loops that a unit may take; without one there is no bound. -/
  maxSteps : Option Nat
  /-- Calls of functions that may be nested. -/
  maxDepth : Nat
deriving DecidableEq, Repr

def Limits.standard : Limits :=
  ⟨none, 64⟩

/-- What a program finds outside of itself. -/
structure Host where
  drivers : Registry
  /-- The cells that the tables of the drivers refer to. -/
  heap : Heap
  /-- The time in seconds at the first, second, ... reading of the clock. -/
  clock : Nat → Float
  /-- Why nothing can be printed, if nothing can. -/
  outputFailure : Option String

/-- What stays the same during a session. -/
structure Config where
  limits : Limits
  host : Host

structure Machine where
  heap : Heap
  globals : ScopeId
  connection : ScopeId
  scope : ScopeId
  /-- The scopes to which enclosing blocks and calls go back. -/
  saved : List ScopeId
  /-- The cells that evaluations under way have in hand. -/
  held : List Cell
  depth : Nat
  steps : Nat
  output : String
  log : Array Record
  session : Option DriverSession
  readings : Nat

/-- Why an action gives no value. -/
inductive Halt where
  | failure (error : RuntimeError)
  /-- A loop took more rounds than any budget allows. -/
  | exhausted

def Run (α : Type) : Type :=
  Config → Machine → Except Halt α × Machine

namespace Run

variable {α β : Type}

@[inline] protected def pure (a : α) : Run α :=
  fun _ m => (.ok a, m)

@[inline] protected def bind (action : Run α) (next : α → Run β) : Run β :=
  fun config m =>
    match action config m with
    | (.ok a, m) => next a config m
    | (.error halt, m) => (.error halt, m)

@[always_inline]
instance : Monad Run where
  pure := Run.pure
  bind := Run.bind

@[inline] def halt (why : Halt) : Run α :=
  fun _ m => (.error why, m)

@[inline] def fail (token : Token) (fault : Fault) : Run α :=
  halt (.failure (.ofToken token fault))

@[inline] def config : Run Config :=
  fun config m => (.ok config, m)

@[inline] def machine : Run Machine :=
  fun _ m => (.ok m, m)

@[inline] def modify (f : Machine → Machine) : Run Unit :=
  fun _ m => (.ok (), f m)

@[inline] def heap : Run Heap :=
  fun _ m => (.ok m.heap, m)

@[inline] def scope : Run ScopeId :=
  fun _ m => (.ok m.scope, m)

/-- Changes the heap and gives what the change made. -/
@[inline] def allocate (f : Heap → α × Heap) : Run α :=
  fun _ m => match f m.heap with
    | (a, heap) => (.ok a, { m with heap })

/-- A result whose fault stands at a token. -/
@[inline] def lift (token : Token) (result : Except Fault α) : Run α :=
  match result with
  | .ok a => pure a
  | .error fault => fail token fault

def text (value : Value) : Run String :=
  return (← heap).text value

def record (level : Level) (text : String) : Run Unit :=
  modify fun m => { m with log := m.log.push ⟨level, text⟩ }

/-- The value of a name, as seen from a scope. -/
def lookup (id : ScopeId) (name : String) (token : Token) : Run Value := do
  lift token (((← heap).lookup id name).mapError Fault.scope)

/-- Changes the names of scopes; a refusal fails at a token. -/
def rebind (token : Token) (f : Heap → Except ScopeError Unit × Heap) : Run Unit := do
  lift token ((← allocate f).mapError Fault.scope)

def define (id : ScopeId) (name : Token) (value : Value) (kind : BindingKind) : Run Unit :=
  rebind name fun heap => heap.define id name.lexeme value kind

/-- Counts a step, or fails when none is left. -/
def step (token : Token) : Run Unit := do
  modify fun m => { m with steps := m.steps + 1 }
  match (← config).limits.maxSteps with
  | some budget =>
    if budget < (← machine).steps then fail token (.stepBudgetExceeded budget) else pure ()
  | none => pure ()

/-- Runs an action in a scope and goes back, whatever happens. -/
def within (id : ScopeId) (action : Run α) : Run α :=
  fun config m =>
    match action config { m with scope := id, saved := m.scope :: m.saved } with
    | (result, after) => (result, { after with scope := m.scope, saved := m.saved })

/-- Runs an action with some cells in hand and lets go of them afterwards. -/
def holdingCells (cells : List Cell) (action : Run α) : Run α :=
  fun config m =>
    match action config { m with held := cells ++ m.held } with
    | (result, after) => (result, { after with held := m.held })

def holding (values : List Value) (action : Run α) : Run α :=
  holdingCells (values.filterMap Value.cell?) action

/-- Runs an action one call deeper, or fails at the deepest level. -/
def deeper (token : Token) (action : Run α) : Run α :=
  fun config m =>
    if config.limits.maxDepth ≤ m.depth then
      (.error (.failure (.ofToken token (.callDepthExceeded config.limits.maxDepth))), m)
    else
      match action config { m with depth := m.depth + 1 } with
      | (result, after) => (result, { after with depth := after.depth - 1 })

def print (token : Token) (line : String) : Run Unit := do
  match (← config).host.outputFailure with
  | some reason => fail token (.host ("Failed write output: " ++ reason))
  | none => modify fun m => { m with output := m.output ++ line ++ "\n" }

def now : Run Float := do
  let reading := (← machine).readings
  modify fun m => { m with readings := reading + 1 }
  return (← config).host.clock reading

end Run

end XBase
