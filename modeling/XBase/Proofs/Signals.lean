import XBase.Proofs.Act

/-!
# Where the signal of a statement comes from

A statement ends with the signal of a `loop`, an `exit` or a `return` only if it holds one that is
meant for something around it. A loop takes the `loop` and `exit` of its body, and nothing leaves
the body of a function or of a module.
-/

namespace XBase

/-- The statements by which a program leaves what is around them. -/
inductive Jump where
  | loop
  | exit
  | giveBack
deriving DecidableEq, Repr

def Signal.jump? : Signal → Option Jump
  | .normal => none
  | .returned _ => some .giveBack
  | .looped => some .loop
  | .exited => some .exit

mutual

/-- Whether a statement holds a jump that leaves the statement: one that no loop, function, class,
module or defer block within the statement encloses. -/
def Stmt.jumps (jump : Jump) : Stmt → Bool
  | .giveBack _ _ => jump == .giveBack
  | .exit _ => jump == .exit
  | .loop _ => jump == .loop
  | .branch _ _ consequence alternative =>
    Stmt.anyJumps jump consequence || Stmt.anyJumps jump alternative
  | .choose _ branches otherwise =>
    Stmt.casesJump jump branches || Stmt.otherwiseJumps jump otherwise
  | .whileLoop _ _ body | .doLoop _ body _ | .forLoop _ _ _ _ _ body =>
    jump == .giveBack && Stmt.anyJumps jump body
  | _ => false

/-- Whether one of some statements holds a jump that leaves it. -/
def Stmt.anyJumps (jump : Jump) : List Stmt → Bool
  | [] => false
  | statement :: others => statement.jumps jump || Stmt.anyJumps jump others

def Stmt.casesJump (jump : Jump) : List (CaseBranch Stmt) → Bool
  | [] => false
  | ⟨_, body⟩ :: others => Stmt.anyJumps jump body || Stmt.casesJump jump others

def Stmt.otherwiseJumps (jump : Jump) : Option (List Stmt) → Bool
  | none => false
  | some body => Stmt.anyJumps jump body

end

namespace Proofs

/-- Every value that an action can give has a property. -/
def Yields {α : Type} (P : α → Prop) (x : Run α) : Prop :=
  ∀ c m a, (x c m).1 = .ok a → P a

/-- A signal that stands for no jump but the given ones. -/
def Stays (jumps : Jump → Bool) (signal : Signal) : Prop :=
  ∀ jump, signal.jump? = some jump → jumps jump = true

section Rules

variable {α β : Type} {P : α → Prop} {Q : β → Prop}

lemma yields_pure {a : α} (h : P a) : Yields P (pure a) := by
  intro c m b hb
  cases hb
  exact h

lemma yields_halt (why : Halt) : Yields P (Run.halt why) := by
  intro c m a ha
  cases ha

lemma yields_bind_of {x : Run α} {f : α → Run β} (hx : Yields P x)
    (hf : ∀ a, P a → Yields Q (f a)) : Yields Q (x >>= f) := by
  intro c m b hb
  rcases h : x c m with ⟨why | a, m'⟩
  · rw [bind_error h] at hb
    cases hb
  · rw [bind_ok h] at hb
    exact hf a (hx c m a (by rw [h])) c m' b hb

lemma yields_bind {x : Run α} {f : α → Run β} (hf : ∀ a, Yields Q (f a)) : Yields Q (x >>= f) :=
  yields_bind_of (P := fun _ => True) (fun _ _ _ _ => trivial) fun a _ => hf a

lemma yields_ite {condition : Prop} [Decidable condition] {x y : Run α} (hx : Yields P x)
    (hy : Yields P y) : Yields P (if condition then x else y) := by
  split
  · exact hx
  · exact hy

lemma yields_within (id : ScopeId) {x : Run α} (hx : Yields P x) : Yields P (Run.within id x) :=
  fun c _ a ha => hx c _ a ha

end Rules

section Signals

variable {jumps : Jump → Bool}

lemma stays_normal : Stays jumps .normal := by
  intro jump h
  cases h

lemma stays_mono {more : Jump → Bool} {signal : Signal} (h : Stays jumps signal)
    (hmore : ∀ jump, jumps jump = true → more jump = true) : Stays more signal :=
  fun jump hjump => hmore jump (h jump hjump)

lemma yields_stays_mono {more : Jump → Bool} {x : Run Signal} (h : Yields (Stays jumps) x)
    (hmore : ∀ jump, jumps jump = true → more jump = true) : Yields (Stays more) x :=
  fun c m signal hsignal => stays_mono (h c m signal hsignal) hmore

/-- A signal that ends the rounds of a loop stands for a `return` at most. -/
lemma stays_returned {value : Value} (h : Stays jumps (.returned value)) :
    Stays (fun jump => jump == .giveBack && jumps jump) (.returned value) := by
  intro jump hjump
  cases hjump
  simpa using h .giveBack rfl

lemma yields_nested (body : List Stmt) {action : Run Signal} (h : Yields (Stays jumps) action) :
    Yields (Stays jumps) (Run.nested body action) :=
  yields_ite (yields_pure stays_normal)
    (yields_bind fun _ => yields_bind fun id => yields_within id h)

variable {test : Run Value} {round : Run Signal} (hround : Yields (Stays jumps) round)

include hround

lemma yields_whileLoop (token : Token) (rounds : Nat) :
    Yields (Stays fun jump => jump == .giveBack && jumps jump)
      (Run.whileLoop token test round rounds) := by
  induction rounds with
  | zero => exact yields_halt _
  | succ rounds ih =>
    refine yields_bind fun _ => yields_ite (yields_bind fun _ => ?_) (yields_pure stays_normal)
    refine yields_bind_of hround fun signal hsignal => ?_
    cases signal with
    | normal => exact ih
    | looped => exact ih
    | exited => exact yields_pure stays_normal
    | returned value => exact yields_pure (stays_returned hsignal)

lemma yields_doLoop (token : Token) (rounds : Nat) :
    Yields (Stays fun jump => jump == .giveBack && jumps jump)
      (Run.doLoop token test round rounds) := by
  induction rounds with
  | zero => exact yields_halt _
  | succ rounds ih =>
    refine yields_bind fun _ => yields_bind_of hround fun signal hsignal => ?_
    cases signal with
    | normal => exact yields_bind fun _ => yields_ite ih (yields_pure stays_normal)
    | looped => exact yields_bind fun _ => yields_ite ih (yields_pure stays_normal)
    | exited => exact yields_pure stays_normal
    | returned value => exact yields_pure (stays_returned hsignal)

lemma yields_forLoop (token counter : Token) (id : ScopeId) (range : Run.Range) (rounds : Nat)
    (current : Float) :
    Yields (Stays fun jump => jump == .giveBack && jumps jump)
      (Run.forLoop token counter id range round rounds current) := by
  induction rounds generalizing current with
  | zero => exact yields_halt _
  | succ rounds ih =>
    refine yields_ite (yields_pure stays_normal) (yields_bind fun _ => ?_)
    refine yields_bind_of (yields_within id hround) fun signal hsignal => ?_
    cases signal with
    | normal => exact yields_bind fun next => ih next
    | looped => exact yields_bind fun next => ih next
    | exited => exact yields_pure stays_normal
    | returned value => exact yields_pure (stays_returned hsignal)

lemma yields_countingLoop (invoke : Invocation) (token counter : Token) (start finish : Expr)
    (step : Option Expr) :
    Yields (Stays fun jump => jump == .giveBack && jumps jump)
      (Run.countingLoop invoke token counter start finish step round) := by
  refine yields_bind fun _ => yields_bind fun id => yields_bind fun first => yields_bind fun _ =>
    yields_bind fun last => ?_
  split
  · next current finish =>
    have hloop : ∀ increment : Float, Yields (Stays fun jump => jump == .giveBack && jumps jump)
        (if increment == 0 then Run.fail token .zeroStep
          else Run.forLoop token counter id ⟨finish, increment⟩ round Signal.maxRounds current) :=
      fun increment => yields_ite (yields_halt _) (yields_forLoop hround token counter id _ _ _)
    cases step with
    | none => exact yields_bind hloop
    | some step =>
      refine yields_bind fun value => ?_
      split
      · exact yields_bind hloop
      · exact yields_bind hloop
  · exact yields_halt _

end Signals

section Execution

variable (invoke : Invocation)

mutual

/-- The signal of a statement stands for a jump that leaves the statement. -/
lemma exec_yields : (statement : Stmt) →
    Yields (Stays fun jump => statement.jumps jump) (statement.exec invoke)
  | .expression _ | .print _ _ | .release _ _ | .defer _ _ =>
    yields_bind fun _ => yields_bind fun _ => yields_pure stays_normal
  | .giveBack _ _ => by
    refine yields_bind fun _ => yields_bind fun value => yields_pure ?_
    intro jump h
    cases h
    rfl
  | .declare _ _ _ | .assign _ _ _ =>
    yields_bind fun _ => yields_bind fun _ => yields_bind fun _ => yields_pure stays_normal
  | .destructure _ _ _ _ =>
    yields_bind fun _ => yields_bind fun _ => yields_bind fun _ => yields_bind fun _ =>
      yields_bind fun _ => yields_pure stays_normal
  | .branch _ _ consequence alternative => by
    have hthen := execAll_yields consequence
    have helse := execAll_yields alternative
    refine yields_bind fun _ => yields_bind fun _ =>
      yields_ite (yields_nested _ ?_) (yields_nested _ ?_)
    · exact yields_stays_mono hthen fun jump h => by simp [Stmt.jumps, h]
    · exact yields_stays_mono helse fun jump h => by simp [Stmt.jumps, h]
  | .choose _ branches otherwise => by
    have hotherwise := execOtherwise_yields otherwise
    refine yields_bind fun _ => ?_
    exact execCases_yields branches (yields_stays_mono hotherwise fun jump h => by
      simp [Stmt.jumps, h]) fun jump h => by simp [Stmt.jumps, h]
  | .whileLoop token _ body =>
    yields_bind fun _ => yields_whileLoop (yields_nested body (execAll_yields body)) token _
  | .doLoop token body _ =>
    yields_bind fun _ => yields_doLoop (yields_nested body (execAll_yields body)) token _
  | .forLoop token counter start finish step body =>
    yields_bind fun _ =>
      yields_countingLoop (execAll_yields body) invoke token counter start finish step
  | .exit _ | .loop _ => by
    refine yields_bind fun _ => yields_pure ?_
    intro jump h
    cases h
    rfl
  | .function _ =>
    yields_bind fun _ => yields_bind fun _ => yields_bind fun _ => yields_bind fun _ =>
      yields_pure stays_normal
  | .classDef _ =>
    yields_bind fun _ => yields_bind fun _ => yields_bind fun _ => yields_bind fun _ =>
      yields_bind fun _ => yields_pure stays_normal
  | .const _ _ _ =>
    yields_bind fun _ => yields_bind fun _ => yields_bind fun _ => yields_bind fun _ =>
      yields_ite (yields_halt _) (yields_bind fun _ => yields_pure stays_normal)
  | .module _ _ _ => by
    refine yields_bind fun _ => yields_bind fun _ => yields_bind fun _ => yields_bind fun _ =>
      yields_bind fun signal => ?_
    cases signal with
    | looped => exact yields_halt _
    | exited => exact yields_halt _
    | normal => exact yields_bind fun _ => yields_pure stays_normal
    | returned value => exact yields_bind fun _ => yields_pure stays_normal
  | .update _ _ _ =>
    yields_bind fun _ => yields_bind fun _ => yields_bind fun _ => yields_bind fun _ =>
      yields_bind fun _ => yields_bind fun _ => yields_pure stays_normal
  | .assignAll _ _ _ =>
    yields_bind fun _ => yields_bind fun _ => yields_bind fun _ => yields_bind fun _ =>
      yields_pure stays_normal

lemma execAll_yields : (body : List Stmt) →
    Yields (Stays fun jump => Stmt.anyJumps jump body) (Stmt.execAll invoke body)
  | [] => yields_pure stays_normal
  | statement :: others => by
    have hothers := execAll_yields others
    refine yields_bind_of (exec_yields statement) fun signal hsignal => ?_
    have hfirst : Stays (fun jump => Stmt.anyJumps jump (statement :: others)) signal :=
      stays_mono hsignal fun jump h => by simp [Stmt.anyJumps, h]
    cases signal with
    | normal => exact yields_stays_mono hothers fun jump h => by simp [Stmt.anyJumps, h]
    | returned value => exact yields_pure hfirst
    | looped => exact yields_pure hfirst
    | exited => exact yields_pure hfirst

lemma execCases_yields {jumps : Jump → Bool} {otherwise : Run Signal} :
    (branches : List (CaseBranch Stmt)) → Yields (Stays jumps) otherwise →
      (∀ jump, Stmt.casesJump jump branches = true → jumps jump = true) →
      Yields (Stays jumps) (Stmt.execCases invoke branches otherwise)
  | [], hotherwise, _ => hotherwise
  | ⟨_, body⟩ :: others, hotherwise, hjumps => by
    have hbody := execAll_yields body
    have hothers := execCases_yields others hotherwise fun jump h =>
      hjumps jump (by simp [Stmt.casesJump, h])
    refine yields_bind fun _ => yields_ite (yields_nested _ ?_) hothers
    exact yields_stays_mono hbody fun jump h => hjumps jump (by simp [Stmt.casesJump, h])

lemma execOtherwise_yields : (otherwise : Option (List Stmt)) →
    Yields (Stays fun jump => Stmt.otherwiseJumps jump otherwise)
      (Stmt.execOtherwise invoke otherwise)
  | none => yields_pure stays_normal
  | some body => yields_nested body (execAll_yields body)

end

end Execution

end Proofs

end XBase
