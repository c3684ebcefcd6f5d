import XBase.Run.Stmt

/-!
# Calls of functions

A call binds its parameters in a fresh scope inside the scope of the function: first all defaults,
then the arguments over them. After a `return` the defer blocks run, the last one first.
-/

namespace XBase

/-- Whether a label addresses a parameter, by its name or by its alias. -/
def Parameter.accepts (parameter : Parameter) (label : String) : Bool :=
  Text.sameUpToAsciiCase parameter.name.lexeme label ||
    parameter.otherName.any fun name => Text.sameUpToAsciiCase name.lexeme label

namespace Run

/-- The parameter that an argument at a position addresses. An argument without label that is null
or has no parameter addresses none. -/
def addressed (parameters : List Parameter) (position : Nat) (argument : ArgumentValue) :
    Run (Option Parameter) :=
  match argument.label with
  | none =>
    match argument.value with
    | .null => pure none
    | _ => pure parameters[position]?
  | some label =>
    match parameters.find? (·.accepts label) with
    | some parameter => pure (some parameter)
    | none => fail argument.token (.unknownArgument label)

/-- Binds the arguments from a position on over the defaults. -/
def bindArguments (id : ScopeId) (parameters : List Parameter) : Nat → List ArgumentValue → Run Unit
  | _, [] => pure ()
  | position, argument :: others => do
    match ← addressed parameters position argument with
    | none => pure ()
    | some parameter =>
      rebind argument.token fun heap =>
        heap.assignOwn id parameter.name.lexeme argument.value
    bindArguments id parameters (position + 1) others

section Call

variable (invoke : Invocation)

/-- Binds each parameter to its default, which sees the parameters before it. -/
def bindDefaults (id : ScopeId) : List Parameter → Run Unit
  | [] => pure ()
  | parameter :: others => do
    let value ← match parameter.default with
      | some default => within id (default.eval invoke)
      | none => pure .null
    define id parameter.name value .variable
    bindDefaults id others

def bindParameters (id : ScopeId) (parameters : List Parameter) (arguments : List ArgumentValue) :
    Run Unit := do
  holding (arguments.map ArgumentValue.value) (bindDefaults invoke id parameters)
  bindArguments id parameters 0 arguments

def outsideLoop {α : Type} (token : Token) (keyword : String) : Run α :=
  fail token (.controlOutsideLoop keyword)

/-- Runs defer blocks in order; what they return is dropped. -/
def runDefers (token : Token) (id : ScopeId) : List (List Stmt) → Run Unit
  | [] => pure ()
  | block :: others => do
    match ← within id (Stmt.execAll invoke block) with
    | .looped => outsideLoop token "loop"
    | .exited => outsideLoop token "exit"
    | .normal | .returned _ => runDefers token id others

def enter (closure : Closure) (site : CallSite) (arguments : List ArgumentValue) :
    Run Value := do
  let id ← allocate fun heap => heap.newScope (some closure.scope)
  bindParameters invoke id closure.declaration.parameters arguments
  match ← within id (Stmt.execAll invoke closure.declaration.body) with
  | .normal => return .null
  | .looped => outsideLoop site.token "loop"
  | .exited => outsideLoop site.token "exit"
  | .returned value =>
    holding [value] (runDefers invoke site.token id closure.declaration.defers.reverse)
    return value

/-- Calls a function, where `invoke` calls the functions that it calls. -/
def callFunction (id : FunctionId) (site : CallSite) (arguments : List ArgumentValue) :
    Run Value := do
  match (← heap).functions[id]? with
  | none => return .null
  | some closure =>
    record .trace ("call " ++ closure.declaration.name.lexeme ++ " with " ++
      toString arguments.length ++ " argument(s)")
    deeper site.token (enter invoke closure site arguments)

end Call

/-- Calls a function with so many levels of calls below it. With the levels that the limits leave,
the limit of the call depth stops a program before the levels are used up. -/
def invoke : Nat → Invocation
  | 0 => callFunction fun _ _ _ => halt .exhausted
  | levels + 1 => callFunction (invoke levels)

end Run

end XBase
