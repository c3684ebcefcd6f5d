import XBase.Proofs.Composition

/-!
# Compositions of expressions, statements and calls

The evaluation of an expression, the execution of a statement and the body of a call each have a
composition, which follows the syntax. The rounds of a loop are the reason why a composition counts
rounds: a loop gives up only when a step was counted for each of them.
-/

noncomputable section

namespace XBase.Proofs

section Expressions

variable {rounds : Nat}

def applyComposition (callee : Value) (site : CallSite) (arguments : List ArgumentValue) :
    Composition rounds fun invoke => Run.apply invoke callee site arguments :=
  match callee with
  | .array id => .atom (atomic_callArray id site arguments)
  | .function id => .call id site arguments
  | .classRef id => .atom (atomic_callClass id site arguments)
  | .native which => .atom (atomic_callNative which site arguments)
  | .cursor id => .atom (atomic_callCursor id site arguments)
  | .null | .boolean _ | .number _ | .text _ | .scope _ => .atom (atomic_pure _)

mutual

def evalComposition : (e : Expr) → Composition rounds fun invoke => e.eval invoke
  | .literal _ => .atom (atomic_pure _)
  | .name _ => .bind (.atom atomic_scope) fun _ => .atom (atomic_lookup _ _ _)
  | .unary operator right =>
    .bind (evalComposition right) fun _ => .atom (atomic_lift operator _ (harmless_unary _ _))
  | .binary left operator right =>
    .bind (evalComposition left) fun _ => .bind (.holding _ (evalComposition right)) fun _ =>
      .bind (.atom atomic_heap) fun _ =>
        .atom (atomic_lift operator _ (harmless_binary _ _ _ _))
  | .logical left _ right =>
    .bind (evalComposition left) fun _ =>
      .ite (.atom (atomic_pure _)) (.holding _ (evalComposition right))
  | .member object _ => .bind (evalComposition object) fun _ => .atom (atomic_readMember _ _)
  | .index object _ key =>
    .bind (evalComposition object) fun _ => .bind (.holding _ (evalComposition key)) fun _ =>
      .atom (atomic_readIndex _ _ _)
  | .call callee arguments =>
    .bind (evalComposition callee) fun value =>
      .bind (.atom (atomic_checkCallee _ _ _)) fun _ =>
        .bind (.holding _ (argumentsComposition arguments)) fun _ =>
          .holding _ (applyComposition value _ _)
  | .create _ wanted arguments =>
    .bind (.atom (atomic_prototype wanted)) fun value =>
      match value with
      | .array id =>
        .bind (.holding _ (evalIntoComposition id arguments)) fun _ =>
          .bind (.atom atomic_heap) fun _ => .bind (.atom (atomic_record _ _)) fun _ =>
            .atom (atomic_pure _)
      | .null | .boolean _ | .number _ | .text _ | .function _ | .classRef _ | .scope _
      | .native _ | .cursor _ => .atom (atomic_pure _)
  | .conditional _ condition consequence alternative =>
    .bind (evalComposition condition) fun _ =>
      .ite (evalComposition consequence) (evalOptionComposition alternative)
  | .this _ => .atom (atomic_pure _)
  | .substitution _ => .bind (.atom (atomic_record _ _)) fun _ => .atom (atomic_pure _)

def evalOptionComposition :
    (e : Option Expr) → Composition rounds fun invoke => Expr.evalOption invoke e
  | none => .atom (atomic_pure _)
  | some value => evalComposition value

def argumentsComposition : (arguments : List (Argument Expr)) →
    Composition rounds fun invoke => Expr.evalArguments invoke arguments
  | [] => .atom (atomic_pure _)
  | ⟨_, value⟩ :: arguments =>
    .ite
      (.bind (.atom (atomic_pure _)) fun _ =>
        .bind (.holding _ (argumentsComposition arguments)) fun _ => .atom (atomic_pure _))
      (.bind (evalComposition value) fun _ =>
        .bind (.holding _ (argumentsComposition arguments)) fun _ => .atom (atomic_pure _))

def evalIntoComposition (id : ArrayId) :
    (values : List Expr) → Composition rounds fun invoke => Expr.evalInto invoke id values
  | [] => .atom (atomic_pure _)
  | value :: others =>
    .bind (evalComposition value) fun _ => .bind (.atom (atomic_push id _)) fun _ =>
      evalIntoComposition id others

end

def evalAllComposition :
    (values : List Expr) → Composition rounds fun invoke => Expr.evalAll invoke values
  | [] => .atom (atomic_pure _)
  | value :: others =>
    .bind (evalComposition value) fun _ => .bind (.holding _ (evalAllComposition others)) fun _ =>
      .atom (atomic_pure _)

def evalSpreadComposition :
    (values : List Expr) → Composition rounds fun invoke => Expr.evalSpread invoke values
  | [] => .atom (atomic_pure _)
  | value :: others =>
    let rest (values : List Value) : Composition rounds fun invoke => do
        return values ++ (← Run.holding values (Expr.evalSpread invoke others)) :=
      .bind (.holding _ (evalSpreadComposition others)) fun _ => .atom (atomic_pure _)
    .bind (evalComposition value) fun v =>
      match v with
      | .array _ =>
        .bind (.atom atomic_heap) fun _ =>
          .bind (.atom (atomic_pure _)) fun values => rest values
      | .null | .boolean _ | .number _ | .text _ | .function _ | .classRef _ | .scope _
      | .native _ | .cursor _ => .bind (.atom (atomic_pure _)) fun values => rest values

def assignComposition (target : Expr) (value : Value) :
    Composition rounds fun invoke => target.assign invoke value :=
  match target with
  | .name token =>
    .bind (.atom atomic_scope) fun id =>
      .atom (atomic_rebind token _ fun heap => edits_assign heap id token.lexeme value)
  | .member object _ =>
    .bind (.holding _ (evalComposition object)) fun _ => .atom (atomic_writeMember _ _ _)
  | .index object _ key =>
    .bind (.holding _ (evalComposition object)) fun _ =>
      .bind (.holding _ (evalComposition key)) fun _ => .atom (atomic_writeIndex _ _ _ _)
  | .literal _ | .unary _ _ | .binary _ _ _ | .logical _ _ _ | .call _ _ | .create _ _ _
  | .conditional _ _ _ _ | .this _ | .substitution _ => .atom (atomic_fail _ _ rfl)

def assignAllComposition :
    (targets : List (Expr × Value)) → Composition rounds fun invoke => Expr.assignAll invoke targets
  | [] => .atom (atomic_pure _)
  | (target, value) :: others =>
    .ite (assignAllComposition others)
      (.bind (.holding _ (assignComposition target value)) fun _ => assignAllComposition others)

def printAllComposition (token : Token) :
    (values : List Expr) → Composition rounds fun invoke => Expr.printAll invoke token values
  | [] => .atom (atomic_pure _)
  | value :: others =>
    .bind (evalComposition value) fun _ => .bind (.atom (atomic_text _)) fun _ =>
      .bind (.atom (atomic_print token _)) fun _ => printAllComposition token others

def anyTruthyComposition :
    (conditions : List Expr) → Composition rounds fun invoke => Expr.anyTruthy invoke conditions
  | [] => .atom (atomic_pure _)
  | condition :: others =>
    .bind (evalComposition condition) fun _ =>
      .ite (.atom (atomic_pure _)) (anyTruthyComposition others)

def resultComposition :
    (values : List Expr) → Composition rounds fun invoke => Expr.result invoke values
  | [] => .atom (atomic_pure _)
  | [value] => evalComposition value
  | first :: second :: others =>
    .bind (evalAllComposition (first :: second :: others)) fun values =>
      .bind (.atom (atomic_allocate _ fun heap => .single (.newArray heap values.toArray))) fun _ =>
        .atom (atomic_pure _)

end Expressions

section Statements

variable {rounds : Nat}

def defineAllComposition (id : ScopeId) :
    (names : List (Token × Value)) → Composition rounds fun _ => Run.defineAll id names
  | [] => .atom (atomic_pure _)
  | (name, value) :: others =>
    .ite (defineAllComposition id others)
      (.bind (.atom (atomic_define id name value _)) fun _ => defineAllComposition id others)

def declareAllComposition (id : ScopeId) : (declarators : List Declarator) →
    Composition rounds fun invoke => Declarator.declareAll invoke id declarators
  | [] => .atom (atomic_pure _)
  | ⟨name, _, some initializer⟩ :: others =>
    .bind (evalComposition initializer) fun value =>
      .bind (.atom (atomic_define id name value _)) fun _ => declareAllComposition id others
  | ⟨name, _, none⟩ :: others =>
    .bind (.atom (atomic_pure _)) fun value =>
      .bind (.atom (atomic_define id name value _)) fun _ => declareAllComposition id others

def newScopeComposition (around : ScopeId) :
    Composition rounds fun _ => Run.allocate fun heap => heap.newScope (some around) :=
  .atom (atomic_allocate _ fun heap => .single (.newScope heap (some around)))

def nestedComposition (body : List Stmt) {action : Invocation → Run Signal}
    (d : Composition rounds action) :
    Composition rounds fun invoke => Run.nested body (action invoke) :=
  .ite (.atom (atomic_pure _))
    (.bind (.atom atomic_scope) fun around =>
      .bind (newScopeComposition around) fun _ => .within _ d)

def countedComposition (token : Token) {α : Type} {x : Invocation → Run α}
    (d : Composition rounds x) :
    Composition rounds fun invoke => Run.step token >>= fun _ => x invoke :=
  .weaken (Nat.le_succ rounds) (.step token d)

section Loops

variable {limit : Nat} {test : Invocation → Run Value} {round : Invocation → Run Signal}

def whileLoopComposition (token : Token) (dtest : Composition limit test)
    (dround : Composition limit round) : (rounds : Nat) → rounds ≤ limit →
      Composition rounds fun invoke => Run.whileLoop token (test invoke) (round invoke) rounds
  | 0, _ => .giveUp
  | rounds + 1, h =>
    .bind (.weaken h dtest) fun _ =>
      .ite
        (.step token (.bind (.weaken (Nat.le_of_succ_le h) dround) fun signal =>
          match signal with
          | .normal | .looped =>
            whileLoopComposition token dtest dround rounds (Nat.le_of_succ_le h)
          | .exited | .returned _ => .atom (atomic_pure _)))
        (.atom (atomic_pure _))

def doLoopComposition (token : Token) (dtest : Composition limit test)
    (dround : Composition limit round) : (rounds : Nat) → rounds ≤ limit →
      Composition rounds fun invoke => Run.doLoop token (test invoke) (round invoke) rounds
  | 0, _ => .giveUp
  | rounds + 1, h =>
    .step token (.bind (.weaken (Nat.le_of_succ_le h) dround) fun signal =>
      match signal with
      | .normal | .looped =>
        .bind (.weaken (Nat.le_of_succ_le h) dtest) fun _ =>
          .ite (doLoopComposition token dtest dround rounds (Nat.le_of_succ_le h))
            (.atom (atomic_pure _))
      | .exited | .returned _ => .atom (atomic_pure _))

def forLoopComposition (token counter : Token) (id : ScopeId) (range : Run.Range)
    (dround : Composition limit round) : (rounds : Nat) → rounds ≤ limit → (current : Float) →
      Composition rounds fun invoke =>
        Run.forLoop token counter id range (round invoke) rounds current
  | 0, _, _ => .giveUp
  | rounds + 1, h, _ =>
    .ite (.atom (atomic_pure _))
      (.step token (.bind (.within id (.weaken (Nat.le_of_succ_le h) dround)) fun signal =>
        match signal with
        | .normal | .looped =>
          .bind (.atom (atomic_advance token counter id range)) fun next =>
            forLoopComposition token counter id range dround rounds (Nat.le_of_succ_le h) next
        | .exited | .returned _ => .atom (atomic_pure _)))

def countingLoopComposition (token counter : Token) (start finish : Expr) (step : Option Expr)
    (dround : Composition Signal.maxRounds round) :
    Composition Signal.maxRounds fun invoke =>
      Run.countingLoop invoke token counter start finish step (round invoke) :=
  let loop (id : ScopeId) (current finish increment : Float) :
      Composition Signal.maxRounds fun invoke =>
        if increment == 0 then Run.fail token .zeroStep
        else
          Run.forLoop token counter id ⟨finish, increment⟩ (round invoke) Signal.maxRounds current :=
    .ite (.atom (atomic_fail token _ rfl))
      (forLoopComposition token counter id _ dround Signal.maxRounds (Nat.le_refl _) current)
  .bind (.atom atomic_scope) fun around => .bind (newScopeComposition around) fun id =>
    .bind (evalComposition start) fun first =>
      .bind (.atom (atomic_define id counter first _)) fun _ =>
        .bind (.holding _ (evalComposition finish)) fun last =>
          match first, last with
          | .number current, .number finish =>
            match step with
            | none =>
              .bind (.atom (atomic_pure _)) fun increment => loop id current finish increment
            | some step =>
              .bind (.holding _ (evalComposition step)) fun value =>
                match value with
                | .number _ =>
                  .bind (.atom (atomic_pure _)) fun increment => loop id current finish increment
                | .null | .boolean _ | .text _ | .array _ | .function _ | .classRef _ | .scope _
                | .native _ | .cursor _ =>
                  .bind (.atom (atomic_fail token _ rfl)) fun increment =>
                    loop id current finish increment
          | .number _, .null | .number _, .boolean _ | .number _, .text _ | .number _, .array _
          | .number _, .function _ | .number _, .classRef _ | .number _, .scope _
          | .number _, .native _ | .number _, .cursor _ | .null, _ | .boolean _, _ | .text _, _
          | .array _, _ | .function _, _ | .classRef _, _ | .scope _, _ | .native _, _
          | .cursor _, _ => .atom (atomic_fail token _ rfl)

end Loops

mutual

def execComposition :
    (statement : Stmt) → Composition Signal.maxRounds fun invoke => statement.exec invoke
  | .expression value =>
    countedComposition _ (.bind (evalComposition value) fun _ => .atom (atomic_pure _))
  | .print token values =>
    countedComposition _ (.bind (printAllComposition token values) fun _ => .atom (atomic_pure _))
  | .giveBack _ values =>
    countedComposition _ (.bind (resultComposition values) fun _ => .atom (atomic_pure _))
  | .declare _ extent declarators =>
    countedComposition _ (.bind (.atom (atomic_target extent)) fun id =>
      .bind (declareAllComposition id declarators) fun _ => .atom (atomic_pure _))
  | .destructure token extent _ values =>
    countedComposition _ (.bind (.atom (atomic_target extent)) fun id =>
      .bind (evalSpreadComposition values) fun _ =>
        .bind (.atom (atomic_checkCounts token _ _)) fun _ =>
          .bind (defineAllComposition id _) fun _ => .atom (atomic_pure _))
  | .branch _ condition consequence alternative =>
    countedComposition _ (.bind (evalComposition condition) fun _ =>
      .ite (nestedComposition consequence (execAllComposition consequence))
        (nestedComposition alternative (execAllComposition alternative)))
  | .choose _ branches otherwise =>
    countedComposition _ (execCasesComposition branches (execOtherwiseComposition otherwise))
  | .whileLoop token condition body =>
    countedComposition _ (whileLoopComposition token (evalComposition condition)
      (nestedComposition body (execAllComposition body)) Signal.maxRounds (Nat.le_refl _))
  | .doLoop token body condition =>
    countedComposition _ (doLoopComposition token (evalComposition condition)
      (nestedComposition body (execAllComposition body)) Signal.maxRounds (Nat.le_refl _))
  | .forLoop token counter start finish step body =>
    countedComposition _
      (countingLoopComposition token counter start finish step (execAllComposition body))
  | .exit _ => countedComposition _ (.atom (atomic_pure _))
  | .loop _ => countedComposition _ (.atom (atomic_pure _))
  | .function declaration =>
    countedComposition _ (.bind (.atom atomic_scope) fun id =>
      .bind (.atom (atomic_allocate _ fun heap => .single (.newFunction heap ⟨declaration, id⟩)))
        fun _ => .bind (.atom (atomic_define _ _ _ _)) fun _ => .atom (atomic_pure _))
  | .classDef declaration =>
    countedComposition _ (.bind (.atom (atomic_superclass declaration)) fun superclass =>
      .bind (.atom atomic_scope) fun _ =>
        .bind (.atom (atomic_allocate _ fun heap =>
            .single (.newClass heap ⟨declaration, superclass⟩)))
          fun _ => .bind (.atom (atomic_define _ _ _ _)) fun _ => .atom (atomic_pure _))
  | .const _ name value =>
    countedComposition _ (.bind (evalComposition value) fun _ =>
      .bind (.atom atomic_scope) fun _ => .bind (.atom atomic_heap) fun _ =>
        .ite (.atom (atomic_fail name _ rfl))
          (.bind (.atom (atomic_define _ _ _ _)) fun _ => .atom (atomic_pure _)))
  | .module token name body =>
    countedComposition _ (.bind (.atom (atomic_record _ _)) fun _ =>
      .bind (.atom atomic_scope) fun around => .bind (newScopeComposition around) fun id =>
        .bind (.within id (execAllComposition body)) fun signal =>
          match signal with
          | .looped | .exited => .atom (atomic_fail token _ rfl)
          | .normal | .returned _ =>
            .bind (.atom (atomic_define around name _ _)) fun _ => .atom (atomic_pure _))
  | .release _ targets =>
    countedComposition _ (.bind (.release targets) fun _ => .atom (atomic_pure _))
  | .defer _ _ =>
    countedComposition _ (.bind (.atom (atomic_record _ _)) fun _ => .atom (atomic_pure _))
  | .assign _ target value =>
    countedComposition _ (.bind (evalComposition value) fun v =>
      .bind (assignComposition target v) fun _ => .atom (atomic_pure _))
  | .update operator target value =>
    countedComposition _ (.bind (evalComposition value) fun _ =>
      .bind (.holding _ (evalComposition target)) fun _ => .bind (.atom atomic_heap) fun _ =>
        .bind (.atom (atomic_lift operator _ (harmless_binary _ _ _ _))) fun result =>
          .bind (.holding _ (assignComposition target result)) fun _ => .atom (atomic_pure _))
  | .assignAll token _ values =>
    countedComposition _ (.bind (evalSpreadComposition values) fun _ =>
      .bind (.atom (atomic_checkCounts token _ _)) fun _ =>
        .bind (assignAllComposition _) fun _ => .atom (atomic_pure _))

def execAllComposition :
    (body : List Stmt) → Composition Signal.maxRounds fun invoke => Stmt.execAll invoke body
  | [] => .atom (atomic_pure _)
  | statement :: others =>
    .bind (execComposition statement) fun signal =>
      match signal with
      | .normal => execAllComposition others
      | .returned _ | .looped | .exited => .atom (atomic_pure _)

def execCasesComposition : (branches : List (CaseBranch Stmt)) →
    {otherwise : Invocation → Run Signal} → Composition Signal.maxRounds otherwise →
      Composition Signal.maxRounds fun invoke => Stmt.execCases invoke branches (otherwise invoke)
  | [], _, d => d
  | ⟨conditions, body⟩ :: others, _, d =>
    .bind (anyTruthyComposition conditions) fun _ =>
      .ite (nestedComposition body (execAllComposition body)) (execCasesComposition others d)

def execOtherwiseComposition : (otherwise : Option (List Stmt)) →
    Composition Signal.maxRounds fun invoke => Stmt.execOtherwise invoke otherwise
  | none => .atom (atomic_pure _)
  | some body => nestedComposition body (execAllComposition body)

end

def statementsComposition : (program : List Stmt) →
    Composition Signal.maxRounds fun invoke => Run.statements invoke program
  | [] => .atom (atomic_pure _)
  | statement :: others =>
    .bind (execComposition statement) fun signal =>
      match signal with
      | .normal => statementsComposition others
      | .returned value =>
        .bind (.atom (atomic_text value)) fun _ => .atom (atomic_record _ _)
      | .looped | .exited => .atom (atomic_fail _ _ rfl)

end Statements

section Calls

def bindArgumentsComposition {rounds : Nat} (id : ScopeId) (parameters : List Parameter) :
    (position : Nat) → (arguments : List ArgumentValue) →
      Composition rounds fun _ => Run.bindArguments id parameters position arguments
  | _, [] => .atom (atomic_pure _)
  | position, argument :: others =>
    .bind (.atom (atomic_addressed parameters position argument)) fun parameter =>
      match parameter with
      | none => bindArgumentsComposition id parameters (position + 1) others
      | some parameter =>
        .bind (.atom (atomic_rebind argument.token _ fun heap =>
            edits_assignOwn heap id parameter.name.lexeme argument.value))
          fun _ => bindArgumentsComposition id parameters (position + 1) others

def bindDefaultsComposition {rounds : Nat} (id : ScopeId) : (parameters : List Parameter) →
    Composition rounds fun invoke => Run.bindDefaults invoke id parameters
  | [] => .atom (atomic_pure _)
  | ⟨name, _, some default⟩ :: others =>
    .bind (.within id (evalComposition default)) fun value =>
      .bind (.atom (atomic_define id name value _)) fun _ => bindDefaultsComposition id others
  | ⟨name, _, none⟩ :: others =>
    .bind (.atom (atomic_pure _)) fun value =>
      .bind (.atom (atomic_define id name value _)) fun _ => bindDefaultsComposition id others

def runDefersComposition (token : Token) (id : ScopeId) : (blocks : List (List Stmt)) →
    Composition Signal.maxRounds fun invoke => Run.runDefers invoke token id blocks
  | [] => .atom (atomic_pure _)
  | block :: others =>
    .bind (.within id (execAllComposition block)) fun signal =>
      match signal with
      | .looped | .exited => .atom (atomic_fail token _ rfl)
      | .normal | .returned _ => runDefersComposition token id others

def enterComposition (closure : Closure) (site : CallSite) (arguments : List ArgumentValue) :
    Composition Signal.maxRounds fun invoke => Run.enter invoke closure site arguments :=
  .bind (newScopeComposition closure.scope) fun id =>
    .bind (.bind (.holding _ (bindDefaultsComposition id closure.declaration.parameters)) fun _ =>
        bindArgumentsComposition id closure.declaration.parameters 0 arguments) fun _ =>
      .bind (.within id (execAllComposition closure.declaration.body)) fun signal =>
        match signal with
        | .normal => .atom (atomic_pure _)
        | .looped | .exited => .atom (atomic_fail site.token _ rfl)
        | .returned _ =>
          .bind (.holding _ (runDefersComposition site.token id closure.declaration.defers.reverse))
            fun _ => .atom (atomic_pure _)

end Calls

end XBase.Proofs

end
