import XBase.Run.Array
import XBase.Run.Builtin
import XBase.Run.Operator

/-!
# Evaluation of expressions

Evaluation follows the expression. How a function of the program is called is a parameter, so that
evaluation needs no bound of its own. What an evaluation still needs it holds in hand while it
evaluates the rest.
-/

namespace XBase

namespace Run

def apply (invoke : Invocation) (callee : Value) (site : CallSite)
    (arguments : List ArgumentValue) : Run Value :=
  match callee with
  | .array id => callArray id site arguments
  | .function id => invoke id site arguments
  | .classRef id => callClass id site arguments
  | .native which => callNative which site arguments
  | .cursor id => callCursor id site arguments
  | _ => pure .null

/-- The signature of a callee, or a failure if it cannot be called with so many arguments. -/
def checkCallee (callee : Expr) (value : Value) (arguments : Nat) : Run Unit := do
  match (← heap).signature? value with
  | none => fail callee.token (.notCallable (callee.calleeName.getD callee.token.lexeme))
  | some signature =>
    if signature.checksArity && signature.arity != arguments then
      fail callee.token (.arityMismatch signature.arity arguments)
    else pure ()

/-- Reads `object.property`. What has no members is its own member. -/
def readMember (object : Value) (property : Token) : Run Value :=
  match object with
  | .scope id => lookup id property.lexeme property
  | .cursor id => cursorMember id property
  | _ => pure object

/-- Reads `object[key]`. What cannot be indexed gives itself. -/
def readIndex (object key : Value) (bracket : Token) : Run Value := do
  match object, key with
  | .array id, .number index => lift bracket (Elements.get ((← heap).elements id) index)
  | .scope id, .text name => lookup id name bracket
  | _, _ => return object

def writeMember (object : Value) (property : Token) (value : Value) : Run Unit :=
  match object with
  | .scope id => rebind property fun heap => heap.assignOwn id property.lexeme value
  | _ => fail property .invalidMemberTarget

def writeIndex (object key : Value) (bracket : Token) (value : Value) : Run Unit := do
  match object, key with
  | .array id, .number index =>
    let _ ← lift bracket (← updateElements id fun elements => elements.set index value)
  | .scope id, .text name => rebind bracket fun heap => heap.assignOwn id name value
  | _, _ => fail bracket .invalidMemberTarget

/-- The global value that `createobject` names. -/
def prototype (name : Token) : Run Value := do
  let key := match name.literal with
    | some (.text key) => key
    | _ => name.lexeme
  lookup (← machine).globals key name

end Run

def Expr.memberName : Expr → Option String
  | member _ property => some property.lexeme
  | _ => none

section Evaluation

variable (invoke : Invocation)

mutual

def Expr.eval : Expr → Run Value
  | .literal token => pure (.ofLiteral token.literal)
  | .name token => do Run.lookup (← Run.scope) token.lexeme token
  | .unary operator right => do Run.lift operator ((← right.eval).unary operator.category)
  | .binary left operator right => do
    let l ← left.eval
    let r ← Run.holding [l] right.eval
    Run.lift operator ((← Run.heap).binary operator.category l r)
  | .logical left operator right => do
    let l ← left.eval
    if l.isTruthy == (operator.category == .or) then return l else Run.holding [l] right.eval
  | .member object property => do Run.readMember (← object.eval) property
  | .index object bracket key => do
    let o ← object.eval
    let k ← Run.holding [o] key.eval
    Run.readIndex o k bracket
  | .call callee arguments => do
    let value ← callee.eval
    Run.checkCallee callee value arguments.length
    let values ← Run.holding [value] (Expr.evalArguments arguments)
    Run.holding [value] (Run.apply invoke value ⟨callee.token, callee.memberName⟩ values)
  | .create keyword wanted arguments => do
    let value ← Run.prototype wanted
    match value with
    | .array id =>
      Run.holding [value] (Expr.evalInto id arguments)
      let size := ((← Run.heap).elements id).size
      Run.record .debug (keyword.position.text ++ " array prototype now holds " ++
        toString size ++ " element(s)")
      return value
    | _ => return value
  | .conditional _ condition consequence alternative => do
    if (← condition.eval).isTruthy then consequence.eval else Expr.evalOption alternative
  | .this _ => pure .null
  | .substitution token => do
    Run.record .warn (token.position.text ++ " macro substitution `&" ++ token.lexeme ++
      "` is not supported")
    return .null

/-- The value of an expression that may be missing; without one it is null. -/
def Expr.evalOption : Option Expr → Run Value
  | none => pure .null
  | some value => value.eval

/-- The values of arguments from left to right. An omitted argument is null. -/
def Expr.evalArguments : List (Argument Expr) → Run (List ArgumentValue)
  | [] => pure []
  | ⟨label, value⟩ :: arguments => do
    let v ← if value.isPlaceholder then pure .null else value.eval
    let others ← Run.holding [v] (Expr.evalArguments arguments)
    return ⟨label.getD value.token, label.map Token.lexeme, v⟩ :: others

/-- Evaluates expressions and adds each value to an array before the next is evaluated. -/
def Expr.evalInto (id : ArrayId) : List Expr → Run Unit
  | [] => pure ()
  | value :: others => do
    Run.push id (← value.eval)
    Expr.evalInto id others

end

def Expr.evalAll : List Expr → Run (List Value)
  | [] => pure []
  | value :: others => do
    let v ← value.eval invoke
    return v :: (← Run.holding [v] (Expr.evalAll others))

/-- The values of expressions from left to right, arrays replaced by their elements. -/
def Expr.evalSpread : List Expr → Run (List Value)
  | [] => pure []
  | value :: others => do
    let values ← match ← value.eval invoke with
      | .array id => pure ((← Run.heap).elements id).toList
      | v => pure [v]
    return values ++ (← Run.holding values (Expr.evalSpread others))

def Expr.assign (target : Expr) (value : Value) : Run Unit := do
  match target with
  | .name token =>
    let scope ← Run.scope
    Run.rebind token fun heap => heap.assign scope token.lexeme value
  | .member object property =>
    let o ← Run.holding [value] (object.eval invoke)
    Run.writeMember o property value
  | .index object bracket key =>
    let o ← Run.holding [value] (object.eval invoke)
    let k ← Run.holding [value, o] (key.eval invoke)
    Run.writeIndex o k bracket value
  | other => Run.fail other.token .invalidMemberTarget

end Evaluation

end XBase
