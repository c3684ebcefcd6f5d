import XBase.Run.Expr

/-!
# Execution of statements

A statement ends with a signal, by which `return`, `loop` and `exit` reach the call or the loop
that they belong to. Blocks of compound statements have a scope of their own unless they are
empty; all rounds of a counting loop share one scope.
-/

namespace XBase

inductive Signal where
  | normal
  /-- `return`, for the nearest call. -/
  | returned (value : Value)
  /-- `loop`, for the next round of the nearest loop. -/
  | looped
  /-- `exit`, for the end of the nearest loop. -/
  | exited

/-- Rounds after which a loop gives up; no budget of steps allows as many. -/
def Signal.maxRounds : Nat :=
  Nat.pow 2 64 + 1

def Declarator.initialValue (declarator : Declarator) : Value :=
  match declarator.type.map fun type => Text.lower type.lexeme with
  | some "string" => .text ""
  | some "number" => .number 0
  | some "boolean" => .boolean false
  | _ => .null

namespace Run

/-- Runs a block in a scope of its own; an empty block needs none. -/
def nested (body : List Stmt) (action : Run Signal) : Run Signal := do
  if body.isEmpty then return .normal
  else
    let around ← scope
    within (← allocate fun heap => heap.newScope (some around)) action

/-- Repeats a round as long as a test holds before it. -/
def whileLoop (token : Token) (test : Run Value) (round : Run Signal) : Nat → Run Signal
  | 0 => halt .exhausted
  | rounds + 1 => do
    if (← test).isTruthy then
      step token
      match ← round with
      | .normal | .looped => whileLoop token test round rounds
      | .exited => return .normal
      | .returned value => return .returned value
    else return .normal

/-- Repeats a round as long as a test holds after it. -/
def doLoop (token : Token) (test : Run Value) (round : Run Signal) : Nat → Run Signal
  | 0 => halt .exhausted
  | rounds + 1 => do
    step token
    match ← round with
    | .normal | .looped =>
      if (← test).isTruthy then doLoop token test round rounds else return .normal
    | .exited => return .normal
    | .returned value => return .returned value

structure Range where
  finish : Float
  increment : Float

/-- Whether a counter is past the end. An unordered counter never is. -/
def Range.isPast (range : Range) (counter : Float) : Bool :=
  (range.increment > 0 && counter > range.finish) ||
    (range.increment < 0 && counter < range.finish)

/-- Moves the counter on from the value that the round left in it. -/
def advance (token counter : Token) (id : ScopeId) (range : Range) : Run Float := do
  match ← lookup id counter.lexeme counter with
  | .number n =>
    let next := n + range.increment
    rebind counter fun heap => heap.assign id counter.lexeme (.number next)
    return next
  | _ => fail token .forBounds

def forLoop (token counter : Token) (id : ScopeId) (range : Range) (round : Run Signal) :
    Nat → Float → Run Signal
  | 0, _ => halt .exhausted
  | rounds + 1, current => do
    if range.isPast current then return .normal
    else
      step token
      match ← within id round with
      | .normal | .looped =>
        forLoop token counter id range round rounds (← advance token counter id range)
      | .exited => return .normal
      | .returned value => return .returned value

def checkCounts (token : Token) (targets values : Nat) : Run Unit :=
  if targets < values then fail token (.wrongNumberOfVariables targets values)
  else if values < targets then fail token (.wrongNumberOfValues targets values)
  else pure ()

def target (extent : Extent) : Run ScopeId := do
  match extent with
  | .local => scope
  | .global => return (← machine).globals

/-- Declares names with their values; the placeholder `_` is passed over. -/
def defineAll (id : ScopeId) : List (Token × Value) → Run Unit
  | [] => pure ()
  | (name, value) :: others => do
    if name.lexeme == "_" then pure () else define id name value .variable
    defineAll id others

def superclass (declaration : ClassDecl Stmt) : Run (Option ClassId) := do
  match declaration.superclass with
  | none => return none
  | some name =>
    match ← lookup (← scope) name.lexeme name with
    | .classRef id => return some id
    | _ => fail declaration.token .superclassNotClass

def release (targets : List Token) : Run Unit := do
  let id ← scope
  modify fun m =>
    { m with heap := targets.foldl (fun heap target => heap.release id target.lexeme) m.heap }

end Run

section Execution

variable (invoke : Invocation)

/-- Prints values, each as soon as it is known. -/
def Expr.printAll (token : Token) : List Expr → Run Unit
  | [] => pure ()
  | value :: others => do
    let v ← value.eval invoke
    Run.print token (← Run.text v)
    Expr.printAll token others

/-- Whether one of some conditions holds; those after it are left alone. -/
def Expr.anyTruthy : List Expr → Run Bool
  | [] => pure false
  | condition :: others => do
    if (← condition.eval invoke).isTruthy then return true else Expr.anyTruthy others

def Declarator.declareAll (id : ScopeId) : List Declarator → Run Unit
  | [] => pure ()
  | declarator :: others => do
    let value ← match declarator.initializer with
      | some initializer => initializer.eval invoke
      | none => pure declarator.initialValue
    Run.define id declarator.name value .variable
    Declarator.declareAll id others

/-- Writes values to targets; the placeholder `_` is passed over. The values that are still to be
written stay in hand. -/
def Expr.assignAll : List (Expr × Value) → Run Unit
  | [] => pure ()
  | (target, value) :: others => do
    if target.isPlaceholder then pure ()
    else Run.holding (others.map Prod.snd) (target.assign invoke value)
    Expr.assignAll others

/-- The value that `return` gives back: several values are an array. -/
def Expr.result : List Expr → Run Value
  | [] => pure .null
  | [value] => value.eval invoke
  | values => do
    let values ← Expr.evalAll invoke values
    return .array (← Run.allocate fun heap => heap.newArray values.toArray)

/-- Prepares a counting loop and runs it. -/
def Run.countingLoop (token counter : Token) (start finish : Expr) (step : Option Expr)
    (round : Run Signal) : Run Signal := do
  let around ← Run.scope
  let id ← Run.allocate fun heap => heap.newScope (some around)
  let first ← start.eval invoke
  Run.define id counter first .variable
  match first, ← Run.holdingCells [.scope id] (finish.eval invoke) with
  | .number current, .number finish =>
    let increment ← match step with
      | none => pure 1
      | some step =>
        match ← Run.holdingCells [.scope id] (step.eval invoke) with
        | .number n => pure n
        | _ => Run.fail token .stepType
    if increment == 0 then Run.fail token .zeroStep
    else Run.forLoop token counter id ⟨finish, increment⟩ round Signal.maxRounds current
  | _, _ => Run.fail token .forBounds

mutual

def Stmt.exec (statement : Stmt) : Run Signal := do
  Run.step statement.token
  match statement with
  | .expression value =>
    let _ ← value.eval invoke
    return .normal
  | .print token values =>
    Expr.printAll invoke token values
    return .normal
  | .giveBack _ values => return .returned (← Expr.result invoke values)
  | .declare _ extent declarators =>
    Declarator.declareAll invoke (← Run.target extent) declarators
    return .normal
  | .destructure token extent names values =>
    let id ← Run.target extent
    let values ← Expr.evalSpread invoke values
    Run.checkCounts token names.length values.length
    Run.defineAll id (names.zip values)
    return .normal
  | .branch _ condition consequence alternative =>
    if (← condition.eval invoke).isTruthy then Run.nested consequence (Stmt.execAll consequence)
    else Run.nested alternative (Stmt.execAll alternative)
  | .choose _ branches otherwise => Stmt.execCases branches (Stmt.execOtherwise otherwise)
  | .whileLoop token condition body =>
    Run.whileLoop token (condition.eval invoke) (Run.nested body (Stmt.execAll body))
      Signal.maxRounds
  | .doLoop token body condition =>
    Run.doLoop token (condition.eval invoke) (Run.nested body (Stmt.execAll body))
      Signal.maxRounds
  | .forLoop token counter start finish step body =>
    Run.countingLoop invoke token counter start finish step (Stmt.execAll body)
  | .exit _ => return .exited
  | .loop _ => return .looped
  | .function declaration =>
    let id ← Run.scope
    let function ← Run.allocate fun heap => heap.newFunction ⟨declaration, id⟩
    Run.define id declaration.name (.function function) .constant
    return .normal
  | .classDef declaration =>
    let superclass ← Run.superclass declaration
    let id ← Run.scope
    let cell ← Run.allocate fun heap => heap.newClass ⟨declaration, superclass⟩
    Run.define id declaration.name (.classRef cell) .constant
    return .normal
  | .const _ name value =>
    let v ← value.eval invoke
    let id ← Run.scope
    if (← Run.heap).kindOf id name.lexeme == some .constant then
      Run.fail name (.scope (.constantRedefinition name.lexeme))
    else
      Run.define id name v .constant
      return .normal
  | .module token name body =>
    Run.record .debug ("executing module `" ++ name.lexeme ++ "`")
    let around ← Run.scope
    let id ← Run.allocate fun heap => heap.newScope (some around)
    match ← Run.within id (Stmt.execAll body) with
    | .looped => Run.fail token (.controlOutsideLoop "loop")
    | .exited => Run.fail token (.controlOutsideLoop "exit")
    | .normal | .returned _ =>
      Run.define around name (.scope id) .constant
      return .normal
  | .release _ targets =>
    Run.release targets
    return .normal
  | .defer token _ =>
    Run.record .debug (token.position.text ++ " defer outside of a function body ignored")
    return .normal
  | .assign _ target value =>
    target.assign invoke (← value.eval invoke)
    return .normal
  | .update operator target value =>
    let right ← value.eval invoke
    let left ← Run.holding [right] (target.eval invoke)
    let result ← Run.lift operator ((← Run.heap).binary operator.category left right)
    Run.holding [left, right] (target.assign invoke result)
    return .normal
  | .assignAll token targets values =>
    let values ← Expr.evalSpread invoke values
    Run.checkCounts token targets.length values.length
    Expr.assignAll invoke (targets.zip values)
    return .normal

/-- Executes statements up to the first that does not end normally. -/
def Stmt.execAll : List Stmt → Run Signal
  | [] => pure .normal
  | statement :: others => do
    match ← statement.exec with
    | .normal => Stmt.execAll others
    | signal => return signal

/-- Executes the first branch that is chosen, else `otherwise`. -/
def Stmt.execCases (branches : List (CaseBranch Stmt)) (otherwise : Run Signal) : Run Signal :=
  match branches with
  | [] => otherwise
  | ⟨conditions, body⟩ :: others => do
    if ← Expr.anyTruthy invoke conditions then Run.nested body (Stmt.execAll body)
    else Stmt.execCases others otherwise

/-- Executes the block for when no branch is chosen, if there is one. -/
def Stmt.execOtherwise : Option (List Stmt) → Run Signal
  | none => pure .normal
  | some body => Run.nested body (Stmt.execAll body)

end

end Execution

end XBase
