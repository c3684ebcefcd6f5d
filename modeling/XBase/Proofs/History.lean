import XBase.Proofs.Evaluation
import XBase.Session

/-!
# Histories

The moments of a call, of a unit and of a whole session. They follow one another by transitions
and end where the run ends.
-/

noncomputable section

namespace XBase.Proofs

def recorded (closure : Closure) (arguments : List ArgumentValue) (m : Machine) : Machine :=
  { m with log := m.log.push ⟨.trace, "call " ++ closure.declaration.name.lexeme ++ " with " ++
      toString arguments.length ++ " argument(s)"⟩ }

variable {closure : Closure} {c : Config} {limits : Limits} {session : Session} {source : String}

section Calls

variable {invoke : Invocation} {id : FunctionId} {site : CallSite}
  {arguments : List ArgumentValue} {c : Config} {m : Machine}

lemma callFunction_none (h : m.heap.functions[id]? = none) :
    Run.callFunction invoke id site arguments c m = (.ok .null, m) := by
  have hh : Run.heap c m = (.ok m.heap, m) := rfl
  rw [Run.callFunction, bind_ok hh, h]
  rfl

lemma callFunction_some (h : m.heap.functions[id]? = some closure) :
    Run.callFunction invoke id site arguments c m =
      Run.deeper site.token (Run.enter invoke closure site arguments) c
        (recorded closure arguments m) := by
  have hh : Run.heap c m = (.ok m.heap, m) := rfl
  have hr : Run.record .trace ("call " ++ closure.declaration.name.lexeme ++ " with " ++
      toString arguments.length ++ " argument(s)") c m =
      (.ok (), recorded closure arguments m) := rfl
  rw [Run.callFunction, bind_ok hh, h]
  exact bind_ok hr

lemma callFunction_refused (h : m.heap.functions[id]? = some closure)
    (hdepth : c.limits.maxDepth ≤ m.depth) :
    Run.callFunction invoke id site arguments c m =
      (.error (.failure (.ofToken site.token (.callDepthExceeded c.limits.maxDepth))),
        recorded closure arguments m) := by
  rw [callFunction_some h]
  exact if_pos hdepth

lemma callFunction_entered (h : m.heap.functions[id]? = some closure)
    (hdepth : m.depth < c.limits.maxDepth) :
    Run.callFunction invoke id site arguments c m =
      match Run.enter invoke closure site arguments c
        { recorded closure arguments m with depth := m.depth + 1 } with
      | (result, after) => (result, { after with depth := after.depth - 1 }) := by
  rw [callFunction_some h]
  exact if_neg (Nat.not_le_of_lt hdepth)

end Calls

/-- The moments of a call, where `calls` are those of the calls in it. -/
def callMoments (invoke : Invocation) (calls : CallTrace) : CallTrace :=
  fun id site arguments c m =>
    match m.heap.functions[id]? with
    | none => []
    | some closure =>
      ⟨.acted, recorded closure arguments m⟩ ::
        if c.limits.maxDepth ≤ m.depth then []
        else
          let inside : Machine := { recorded closure arguments m with depth := m.depth + 1 }
          ⟨.called, inside⟩ ::
            ((enterComposition closure site arguments).trace invoke calls c inside ++
              [⟨.returned, (Run.callFunction invoke id site arguments c m).2⟩])

/-- The moments of a call with so many levels of calls below it. -/
def callTrace : Nat → CallTrace
  | 0 => callMoments (fun _ _ _ => Run.halt .exhausted) fun _ _ _ _ _ => []
  | levels + 1 => callMoments (Run.invoke levels) (callTrace levels)

lemma recorded_change (closure : Closure) (arguments : List ArgumentValue) (m : Machine) :
    Change m (recorded closure arguments m) :=
  change_quiet m (recorded closure arguments m).log m.readings (talks_refl _)

variable {R : Machine → Machine → Prop}

lemma callFunction_preserves (hR : Preserved R) {invoke : Invocation}
    (hcalls : ∀ id site arguments m, R m (invoke id site arguments c m).2) (id : FunctionId)
    (site : CallSite) (arguments : List ArgumentValue) (m : Machine) :
    R m (Run.callFunction invoke id site arguments c m).2 := by
  cases h : m.heap.functions[id]? with
  | none =>
    rw [callFunction_none h]
    exact hR.refl m
  | some closure =>
    have hr := hR.change m _ (recorded_change closure arguments m)
    by_cases hdepth : c.limits.maxDepth ≤ m.depth
    · rw [callFunction_refused h hdepth]
      exact hr
    · rw [callFunction_entered h (Nat.lt_of_not_le hdepth)]
      refine hR.trans m _ _ hr (hR.deeper (recorded closure arguments m) _ ?_)
      exact composition_preserves hR hcalls (enterComposition closure site arguments) _

/-- What holds before any call and is handed on from the calls in a function to a call of the
function holds of calls with any number of levels. -/
lemma invoke_induction {P : Invocation → CallTrace → Prop}
    (hbase : P (fun _ _ _ => Run.halt .exhausted) fun _ _ _ _ _ => [])
    (hstep : ∀ invoke calls, P invoke calls →
      P (Run.callFunction invoke) (callMoments invoke calls))
    (levels : Nat) : P (Run.invoke levels) (callTrace levels) := by
  induction levels with
  | zero => exact hstep _ _ hbase
  | succ levels ih => exact hstep _ _ ih

lemma invoke_preserves (hR : Preserved R) (c : Config) (levels : Nat) (id : FunctionId)
    (site : CallSite) (arguments : List ArgumentValue) (m : Machine) :
    R m (Run.invoke levels id site arguments c m).2 := by
  revert id site arguments m
  refine invoke_induction (P := fun invoke _ =>
    ∀ id site arguments m, R m (invoke id site arguments c m).2) ?_ ?_ levels
  · intro _ _ _ m
    exact hR.refl m
  · intro invoke _ hcalls
    exact callFunction_preserves hR hcalls

/-- What a function calls when it is called with so many levels below it. -/
def below : Nat → Invocation
  | 0 => fun _ _ _ => Run.halt .exhausted
  | levels + 1 => Run.invoke levels

lemma invoke_eq (levels : Nat) : Run.invoke levels = Run.callFunction (below levels) := by
  cases levels <;> rfl

lemma below_preserves (hR : Preserved R) (c : Config) (levels : Nat) (id : FunctionId)
    (site : CallSite) (arguments : List ArgumentValue) (m : Machine) :
    R m (below levels id site arguments c m).2 := by
  cases levels with
  | zero => exact hR.refl m
  | succ levels => exact invoke_preserves hR c levels id site arguments m

lemma callMoments_leads {invoke : Invocation} {calls : CallTrace} (hlimits : Respected limits c)
    (hkept : ∀ id site arguments m, Kept m (invoke id site arguments c m).2)
    (hcalls : ∀ id site arguments m, Affordable limits m →
      Leads limits m (calls id site arguments c m) (invoke id site arguments c m)) (id : FunctionId)
    (site : CallSite) (arguments : List ArgumentValue) (m : Machine) (hm : Affordable limits m) :
    Leads limits m (callMoments invoke calls id site arguments c m)
      (Run.callFunction invoke id site arguments c m) := by
  cases h : m.heap.functions[id]? with
  | none =>
    rw [callFunction_none h]
    simp only [callMoments, h]
    exact ⟨trivial, rfl, fun _ _ => hm⟩
  | some closure =>
    have hr := recorded_change closure arguments m
    by_cases hdepth : c.limits.maxDepth ≤ m.depth
    · rw [callFunction_refused h hdepth]
      simp only [callMoments, h, if_pos hdepth]
      exact ⟨(path_singleton m _).mpr (.acted hr), rfl, fun _ h => by cases h⟩
    · have hlt := Nat.lt_of_not_le hdepth
      have hd := trace_leads hlimits hkept hcalls (enterComposition closure site arguments)
        { recorded closure arguments m with depth := m.depth + 1 } hm
      have hk := composition_preserves kept_preserved hkept
        (enterComposition closure site arguments)
        { recorded closure arguments m with depth := m.depth + 1 }
      simp only [callMoments, h, if_neg hdepth]
      rw [callFunction_entered h hlt]
      refine ⟨⟨.acted hr, .called (by rw [hlimits.depth]; exact hlt),
        (path_append _ _ _).mpr ⟨hd.path, ?_⟩⟩, ?_, hd.affordable⟩
      · rw [hd.finish_eq, path_singleton]
        exact .returned (by rw [hk.depth]; exact Nat.succ_pos _)
      · simp

lemma callTrace_leads (hlimits : Respected limits c) (levels : Nat) (id : FunctionId)
    (site : CallSite) (arguments : List ArgumentValue) (m : Machine) (hm : Affordable limits m) :
    Leads limits m (callTrace levels id site arguments c m)
      (Run.invoke levels id site arguments c m) := by
  have hall := invoke_induction (P := fun invoke calls =>
    (∀ id site arguments m, Kept m (invoke id site arguments c m).2) ∧
      ∀ id site arguments m, Affordable limits m →
        Leads limits m (calls id site arguments c m) (invoke id site arguments c m)) ?_ ?_ levels
  · exact hall.2 id site arguments m hm
  · exact ⟨fun _ _ _ m => kept_preserved.refl m,
      fun _ _ _ m hm => ⟨trivial, rfl, fun _ h => by cases h⟩⟩
  · rintro invoke calls ⟨hkept, hcalls⟩
    exact ⟨callFunction_preserves kept_preserved hkept, callMoments_leads hlimits hkept hcalls⟩

/-- What a program executes. -/
inductive Task where
  | expression (value : Expr)
  | statement (action : Stmt)
  | block (body : List Stmt)
  | call (id : FunctionId) (site : CallSite) (arguments : List ArgumentValue)

namespace Task

/-- An expression and a call give a value; a statement and a block end with a signal. -/
def Outcome : Task → Type
  | expression _ | call _ _ _ => Value
  | statement _ | block _ => Signal

def run (levels : Nat) : (task : Task) → Run task.Outcome
  | expression value => value.eval (Run.invoke levels)
  | statement action => action.exec (Run.invoke levels)
  | block body => Stmt.execAll (Run.invoke levels) body
  | call id site arguments => Run.invoke levels id site arguments

def trace (levels : Nat) (c : Config) : Task → Machine → List Moment
  | expression value =>
    (evalComposition value : Composition 0 _).trace (Run.invoke levels) (callTrace levels) c
  | statement action =>
    (execComposition action).trace (Run.invoke levels) (callTrace levels) c
  | block body => (execAllComposition body).trace (Run.invoke levels) (callTrace levels) c
  | call id site arguments => callTrace levels id site arguments c

end Task

lemma task_preserves (hR : Preserved R) (task : Task) (levels : Nat) (c : Config) (m : Machine) :
    R m (task.run levels c m).2 := by
  have hcalls := invoke_preserves hR c levels
  cases task with
  | expression value =>
    exact composition_preserves hR hcalls (evalComposition value : Composition 0 _) m
  | statement action => exact composition_preserves hR hcalls (execComposition action) m
  | block body => exact composition_preserves hR hcalls (execAllComposition body) m
  | call id site arguments => exact hcalls id site arguments m

lemma task_leads (hlimits : Respected limits c) (task : Task) (levels : Nat) (m : Machine)
    (hm : Affordable limits m) : Leads limits m (task.trace levels c m) (task.run levels c m) := by
  have hkept := invoke_preserves kept_preserved c levels
  have hcalls := callTrace_leads hlimits levels
  cases task with
  | expression value =>
    exact trace_leads hlimits hkept hcalls (evalComposition value : Composition 0 _) m hm
  | statement action => exact trace_leads hlimits hkept hcalls (execComposition action) m hm
  | block body => exact trace_leads hlimits hkept hcalls (execAllComposition body) m hm
  | call id site arguments => exact hcalls id site arguments m hm

section Units

variable (program : List Stmt) (c : Config) (m : Machine)

def begun : Machine :=
  { m with
    log := m.log.push ⟨.debug, "interpreting " ++ toString program.length ++ " statements"⟩
    steps := 0
    depth := 0
    scope := m.globals
    saved := []
    held := [] }

lemma unit_eq :
    Run.unit program c m =
      Run.statements (Run.invoke c.limits.maxDepth) program c (begun program m) := rfl

def statementsTrace : List Moment :=
  (statementsComposition program).trace (Run.invoke c.limits.maxDepth)
    (callTrace c.limits.maxDepth) c (begun program m)

def unitTrace : List Moment :=
  ⟨.began, begun program m⟩ :: statementsTrace program c m

lemma unit_preserves {R : Machine → Machine → Prop} (hR : Preserved R) :
    R (begun program m) (Run.unit program c m).2 :=
  composition_preserves hR (invoke_preserves hR c c.limits.maxDepth)
    (statementsComposition program) _

lemma statementsTrace_leads (hlimits : Respected limits c) :
    Leads limits (begun program m) (statementsTrace program c m) (Run.unit program c m) :=
  trace_leads hlimits (invoke_preserves kept_preserved c c.limits.maxDepth)
    (callTrace_leads hlimits c.limits.maxDepth) (statementsComposition program) (begun program m)
    fun budget _ => Nat.zero_le budget

lemma unitTrace_leads (hlimits : Respected limits c) :
    Leads limits m (unitTrace program c m) (Run.unit program c m) := by
  have hd := statementsTrace_leads program c m hlimits
  exact ⟨⟨.began _, hd.path⟩, hd.finish_eq, hd.affordable⟩

end Units

def current (session : Session) : Machine :=
  session.machine.getD (Machine.start session.config.host)

/-- The moments of a session that runs some source texts. A text with a syntax error adds none. -/
def history : Session → List String → List Moment
  | _, [] => []
  | session, source :: sources =>
    match (SourceUnit.parse session.library source).result with
    | .error _ => history (session.run source).2 sources
    | .ok program =>
      ⟨.cleared, session.ready⟩ ::
        (unitTrace program session.config session.ready ++ history (session.run source).2 sources)

lemma ready_follows (session : Session) (limits : Limits) :
    Transition limits (current session) .cleared session.ready := by
  obtain ⟨config, library, directory, machine⟩ := session
  cases machine with
  | none => exact .cleared _
  | some machine => exact .cleared _

lemma run_of_error {errors : List SyntaxError}
    (h : (SourceUnit.parse session.library source).result = .error errors) :
    (session.run source).2 = session := by
  unfold Session.run
  simp only [h]

lemma run_of_ok {program : List Stmt}
    (h : (SourceUnit.parse session.library source).result = .ok program) :
    (session.run source).2 =
      { session with machine := some (Run.unit program session.config session.ready).2 } := by
  unfold Session.run
  simp only [h]

lemma report_of_ok {program : List Stmt}
    (h : (SourceUnit.parse session.library source).result = .ok program) :
    (session.run source).1.error =
      Session.error? (Run.unit program session.config session.ready).1 := by
  unfold Session.run
  simp only [h]

def runAll (session : Session) (sources : List String) : Session :=
  sources.foldl (fun session source => (session.run source).2) session

/-- The history of a session is a path of transitions, whatever happens in its units, and it ends
with the machine that the session is left with. -/
lemma history_leads (session : Session) (sources : List String) :
    Path session.config.limits (current session) (history session sources) ∧
      finish (current session) (history session sources) = current (runAll session sources) := by
  induction sources generalizing session with
  | nil => exact ⟨trivial, rfl⟩
  | cons source sources ih =>
    have hs := ih (session.run source).2
    have hall : runAll session (source :: sources) = runAll (session.run source).2 sources := rfl
    rw [history, hall]
    cases h : (SourceUnit.parse session.library source).result with
    | error errors =>
      rw [run_of_error h] at hs ⊢
      exact hs
    | ok program =>
      have hu := unitTrace_leads program session.config session.ready (respected_self _)
      rw [run_of_ok h] at hs ⊢
      refine ⟨⟨ready_follows session _, (path_append _ _ _).mpr ⟨hu.path, ?_⟩⟩, ?_⟩
      · rw [hu.finish_eq]
        exact hs.1
      · rw [finish_cons, finish_append, hu.finish_eq]
        exact hs.2

lemma history_append (session : Session) (sources others : List String) :
    history session (sources ++ others) =
      history session sources ++ history (runAll session sources) others := by
  induction sources generalizing session with
  | nil => rfl
  | cons source sources ih =>
    have hall : runAll session (source :: sources) = runAll (session.run source).2 sources := rfl
    rw [List.cons_append, history, history, hall, ih]
    cases (SourceUnit.parse session.library source).result with
    | error errors => rfl
    | ok program => simp only [List.cons_append, List.append_assoc]

lemma runAll_keeps (session : Session) (sources : List String) :
    (runAll session sources).config = session.config ∧
      (runAll session sources).library = session.library := by
  induction sources generalizing session with
  | nil => exact ⟨rfl, rfl⟩
  | cons source sources ih =>
    have hrun : (session.run source).2.config = session.config ∧
        (session.run source).2.library = session.library := by
      cases h : (SourceUnit.parse session.library source).result with
      | error errors => rw [run_of_error h]; exact ⟨rfl, rfl⟩
      | ok program => rw [run_of_ok h]; exact ⟨rfl, rfl⟩
    obtain ⟨hconfig, hlibrary⟩ := ih (session.run source).2
    exact ⟨hconfig.trans hrun.1, hlibrary.trans hrun.2⟩

/-- A host without drivers whose clock stands still. -/
def bareHost : Host :=
  ⟨[], Heap.empty, fun _ => 0, none⟩

def nameToken (lexeme : String) : Token :=
  ⟨.name, .name, lexeme, none, .start⟩

/-- A function that prints itself and calls itself without end, and a call of it. -/
def runaway : List Stmt :=
  let call : Expr := .call (.name (nameToken "f")) []
  let body : List Stmt :=
    [.print (nameToken "?") [.name (nameToken "f")], .giveBack (nameToken "return") [call]]
  [.function ⟨nameToken "function", nameToken "f", [], body, []⟩, .expression call]

end XBase.Proofs

end
