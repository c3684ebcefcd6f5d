import XBase.Proofs.History
import XBase.Proofs.Relaid

/-!
# Layout does not matter

A program does the same however it is laid out. If the tokens of two programs are the same but for
their places, both print the same, leave the same behind and end in the same way, and the error that
one of them ends with differs from the other's in its place only.
-/

namespace XBase.Proofs

section Shapes

lemma token_relaid : (e : Expr) → {e' : Expr} → Expr.Relaid e e' → e.token.Relaid e'.token
  | .literal _, _, .literal h | .name _, _, .name h | .this _, _, .this h
  | .substitution _, _, .substitution h => h
  | .unary .., _, .unary h _ | .binary .., _, .binary _ h _ | .logical .., _, .logical _ h _ => h
  | .member .., _, .member _ h | .index .., _, .index _ h _ => h
  | .call callee _, _, .call h _ => by
    have hcallee := token_relaid callee h
    exact hcallee
  | .create .., _, .create h _ _ | .conditional .., _, .conditional h _ _ _ => h

variable {e e' : Expr} (h : Expr.Relaid e e')

include h

lemma calleeName_relaid : e'.calleeName = e.calleeName := by
  cases h with
  | name h => exact congrArg some h.lexeme
  | member _ h => exact congrArg some h.lexeme
  | _ => rfl

lemma memberName_relaid : e'.memberName = e.memberName := by
  cases h with
  | member _ h => exact congrArg some h.lexeme
  | _ => rfl

lemma isPlaceholder_relaid : e'.isPlaceholder = e.isPlaceholder := by
  cases h with
  | name h => simp only [Expr.isPlaceholder, h.lexeme]
  | _ => rfl

end Shapes

section Expressions

lemma relaid_checkCallee {callee callee' : Expr} (h : Expr.Relaid callee callee') (value : Value)
    (arguments : Nat) :
    Run.Relaid Eq (Run.checkCallee callee value arguments)
      (Run.checkCallee callee' value arguments) := by
  have htoken := token_relaid callee h
  refine relaid_bind relaid_heap fun heap heap' hheap => ?_
  rw [signature?_relaid hheap, calleeName_relaid h, htoken.lexeme]
  split
  · exact relaid_fail htoken _
  · exact relaid_ite (relaid_fail htoken _) (relaid_pure rfl)

variable {invoke invoke' : Invocation}

lemma relaid_apply (hinvoke : invoke.Relaid invoke') (callee : Value) {site site' : CallSite}
    (hsite : site.Relaid site') {arguments arguments' : List ArgumentValue}
    (harguments : List.Forall₂ ArgumentValue.Relaid arguments arguments') :
    Run.Relaid Eq (Run.apply invoke callee site arguments)
      (Run.apply invoke' callee site' arguments') := by
  cases callee with
  | array id => exact relaid_callArray hsite harguments id
  | function id => exact hinvoke id site site' arguments arguments' hsite harguments
  | classRef id => exact relaid_callClass id
  | native which => exact relaid_callNative hsite harguments which
  | cursor id => exact relaid_callCursor hsite harguments id
  | _ => exact relaid_pure rfl

mutual

lemma relaid_eval (hinvoke : invoke.Relaid invoke') : (e : Expr) → {e' : Expr} → Expr.Relaid e e' →
    Run.Relaid Eq (e.eval invoke) (e'.eval invoke')
  | .literal _, _, .literal h => by
    rw [Expr.eval, Expr.eval, h.literal]
    exact relaid_pure rfl
  | .name _, _, .name h => by
    rw [Expr.eval, Expr.eval, h.lexeme]
    exact relaid_bind_same relaid_scope fun id => relaid_lookup h id _
  | .unary _ right, _, .unary h hright => by
    rw [Expr.eval, Expr.eval, h.category]
    exact relaid_bind_same (relaid_eval hinvoke right hright) fun _ => relaid_lift h _
  | .binary left _ right, _, .binary hleft h hright => by
    rw [Expr.eval, Expr.eval, h.category]
    refine relaid_bind_same (relaid_eval hinvoke left hleft) fun l =>
      relaid_bind_same (relaid_holding _ (relaid_eval hinvoke right hright)) fun r =>
        relaid_bind relaid_heap fun _ _ hheap => ?_
    rw [binary_relaid hheap]
    exact relaid_lift h _
  | .logical left _ right, _, .logical hleft h hright => by
    rw [Expr.eval, Expr.eval, h.category]
    exact relaid_bind_same (relaid_eval hinvoke left hleft) fun _ =>
      relaid_ite (relaid_pure rfl) (relaid_holding _ (relaid_eval hinvoke right hright))
  | .member object _, _, .member hobject h => by
    rw [Expr.eval, Expr.eval]
    exact relaid_bind_same (relaid_eval hinvoke object hobject) fun _ => relaid_readMember h _
  | .index object _ key, _, .index hobject h hkey => by
    rw [Expr.eval, Expr.eval]
    exact relaid_bind_same (relaid_eval hinvoke object hobject) fun _ =>
      relaid_bind_same (relaid_holding _ (relaid_eval hinvoke key hkey)) fun _ =>
        relaid_readIndex h _ _
  | .call callee arguments, _, .call hcallee harguments => by
    rw [Expr.eval, Expr.eval, ← harguments.length_eq]
    exact relaid_bind_same (relaid_eval hinvoke callee hcallee) fun value =>
      relaid_bind_same (relaid_checkCallee hcallee value _) fun _ =>
        relaid_bind (relaid_holding _ (relaid_evalArguments hinvoke arguments harguments))
          fun _ _ hvalues => relaid_holding _ (relaid_apply hinvoke value
            ⟨token_relaid callee hcallee, memberName_relaid hcallee⟩ hvalues)
  | .create _ _ arguments, _, .create _ hwanted harguments => by
    rw [Expr.eval, Expr.eval]
    refine relaid_bind_same (relaid_prototype hwanted) fun value => ?_
    split
    · next id =>
      have hinto := relaid_evalInto hinvoke id arguments harguments
      exact relaid_bind_same (relaid_holding _ hinto) fun _ =>
        relaid_bind relaid_heap fun _ _ _ =>
          relaid_bind_same (relaid_record _ _ _ _) fun _ => relaid_pure rfl
    · exact relaid_pure rfl
  | .conditional _ condition consequence alternative, _,
      .conditional _ hcondition hconsequence halternative => by
    rw [Expr.eval, Expr.eval]
    exact relaid_bind_same (relaid_eval hinvoke condition hcondition) fun _ =>
      relaid_ite (relaid_eval hinvoke consequence hconsequence)
        (relaid_evalOption hinvoke alternative halternative)
  | .this _, _, .this _ => by
    rw [Expr.eval, Expr.eval]
    exact relaid_pure rfl
  | .substitution _, _, .substitution _ => by
    rw [Expr.eval, Expr.eval]
    exact relaid_bind_same (relaid_record _ _ _ _) fun _ => relaid_pure rfl

lemma relaid_evalOption (hinvoke : invoke.Relaid invoke') : (e : Option Expr) →
    {e' : Option Expr} → Option.Rel Expr.Relaid e e' →
    Run.Relaid Eq (Expr.evalOption invoke e) (Expr.evalOption invoke' e')
  | none, _, .none => by
    rw [Expr.evalOption, Expr.evalOption]
    exact relaid_pure rfl
  | some value, _, .some h => by
    rw [Expr.evalOption, Expr.evalOption]
    exact relaid_eval hinvoke value h

lemma relaid_evalArguments (hinvoke : invoke.Relaid invoke') :
    (arguments : List (Argument Expr)) → {arguments' : List (Argument Expr)} →
    List.Forall₂ (Argument.Moved Token.Relaid Expr.Relaid) arguments arguments' →
    Run.Relaid (List.Forall₂ ArgumentValue.Relaid) (Expr.evalArguments invoke arguments)
      (Expr.evalArguments invoke' arguments')
  | [], _, .nil => by
    rw [Expr.evalArguments, Expr.evalArguments]
    exact relaid_pure .nil
  | ⟨_, value⟩ :: others, _, .cons (.mk hlabel hvalue) hothers => by
    have htoken := token_relaid value hvalue
    have hothers := relaid_evalArguments hinvoke others hothers
    rw [Expr.evalArguments, Expr.evalArguments, isPlaceholder_relaid hvalue]
    refine relaid_ite (relaid_bind_same (relaid_pure rfl) fun v => ?_)
      (relaid_bind_same (relaid_eval hinvoke value hvalue) fun v => ?_)
    all_goals
      refine relaid_bind (relaid_holding [v] hothers) fun _ _ hvalues => ?_
      cases hlabel with
      | none => exact relaid_pure (.cons ⟨htoken, rfl, rfl⟩ hvalues)
      | some h => exact relaid_pure (.cons ⟨h, congrArg some h.lexeme, rfl⟩ hvalues)

lemma relaid_evalInto (hinvoke : invoke.Relaid invoke') (id : ArrayId) : (values : List Expr) →
    {values' : List Expr} → List.Forall₂ Expr.Relaid values values' →
    Run.Relaid Eq (Expr.evalInto invoke id values) (Expr.evalInto invoke' id values')
  | [], _, .nil => by
    rw [Expr.evalInto, Expr.evalInto]
    exact relaid_pure rfl
  | value :: others, _, .cons h hothers => by
    rw [Expr.evalInto, Expr.evalInto]
    exact relaid_bind_same (relaid_eval hinvoke value h) fun _ =>
      relaid_bind_same (relaid_push id _) fun _ => relaid_evalInto hinvoke id others hothers

end

variable (hinvoke : invoke.Relaid invoke')

include hinvoke

variable {values values' : List Expr}

lemma relaid_evalAll (h : List.Forall₂ Expr.Relaid values values') :
    Run.Relaid Eq (Expr.evalAll invoke values) (Expr.evalAll invoke' values') := by
  induction h with
  | nil => exact relaid_pure rfl
  | cons hvalue _ ih =>
    exact relaid_bind_same (relaid_eval hinvoke _ hvalue) fun v =>
      relaid_bind_same (relaid_holding [v] ih) fun _ => relaid_pure rfl

lemma relaid_evalSpread (h : List.Forall₂ Expr.Relaid values values') :
    Run.Relaid Eq (Expr.evalSpread invoke values) (Expr.evalSpread invoke' values') := by
  induction h with
  | nil => exact relaid_pure rfl
  | @cons _ _ others others' hvalue _ ih =>
    have hrest (values : List Value) : Run.Relaid Eq
        (do return values ++ (← Run.holding values (Expr.evalSpread invoke others)))
        (do return values ++ (← Run.holding values (Expr.evalSpread invoke' others'))) :=
      relaid_bind_same (relaid_holding values ih) fun _ => relaid_pure rfl
    refine relaid_bind_same (relaid_eval hinvoke _ hvalue) fun v => ?_
    cases v with
    | array id =>
      refine relaid_bind relaid_heap fun heap heap' hheap => ?_
      simp only [Heap.elements, hheap.arrays]
      exact relaid_bind_same (relaid_pure rfl) hrest
    | _ => exact relaid_bind_same (relaid_pure rfl) hrest

lemma relaid_assign {target target' : Expr} (h : Expr.Relaid target target') (value : Value) :
    Run.Relaid Eq (target.assign invoke value) (target'.assign invoke' value) := by
  have htoken := token_relaid target h
  cases h with
  | name h =>
    unfold Expr.assign
    dsimp only
    rw [h.lexeme]
    exact relaid_bind_same relaid_scope fun id => relaid_rebind h (blind_assign id _ value)
  | member hobject h =>
    exact relaid_bind_same (relaid_holding _ (relaid_eval hinvoke _ hobject)) fun _ =>
      relaid_writeMember h _ _
  | index hobject h hkey =>
    exact relaid_bind_same (relaid_holding _ (relaid_eval hinvoke _ hobject)) fun _ =>
      relaid_bind_same (relaid_holding _ (relaid_eval hinvoke _ hkey)) fun _ =>
        relaid_writeIndex h _ _ _
  | _ => exact relaid_fail htoken _

lemma relaid_assignAll {targets targets' : List Expr}
    (h : List.Forall₂ Expr.Relaid targets targets') (values : List Value) :
    Run.Relaid Eq (Expr.assignAll invoke (targets.zip values))
      (Expr.assignAll invoke' (targets'.zip values)) := by
  induction h generalizing values with
  | nil => exact relaid_pure rfl
  | @cons _ _ others others' htarget hothers ih =>
    cases values with
    | nil => exact relaid_pure rfl
    | cons value values =>
      rw [List.zip_cons_cons, List.zip_cons_cons, Expr.assignAll, Expr.assignAll,
        isPlaceholder_relaid htarget, map_snd_zip hothers]
      exact relaid_ite (ih values)
        (relaid_bind_same (relaid_holding _ (relaid_assign hinvoke htarget value)) fun _ =>
          ih values)

lemma relaid_printAll {token token' : Token} (htoken : token.Relaid token')
    (h : List.Forall₂ Expr.Relaid values values') :
    Run.Relaid Eq (Expr.printAll invoke token values) (Expr.printAll invoke' token' values') := by
  induction h with
  | nil => exact relaid_pure rfl
  | cons hvalue _ ih =>
    exact relaid_bind_same (relaid_eval hinvoke _ hvalue) fun _ =>
      relaid_bind_same (relaid_text _) fun _ => relaid_bind_same (relaid_print htoken _) fun _ => ih

lemma relaid_anyTruthy {conditions conditions' : List Expr}
    (h : List.Forall₂ Expr.Relaid conditions conditions') :
    Run.Relaid Eq (Expr.anyTruthy invoke conditions) (Expr.anyTruthy invoke' conditions') := by
  induction h with
  | nil => exact relaid_pure rfl
  | cons hcondition _ ih =>
    exact relaid_bind_same (relaid_eval hinvoke _ hcondition) fun _ =>
      relaid_ite (relaid_pure rfl) ih

lemma relaid_result (h : List.Forall₂ Expr.Relaid values values') :
    Run.Relaid Eq (Expr.result invoke values) (Expr.result invoke' values') := by
  have hall := relaid_evalAll hinvoke h
  rcases h with - | ⟨hvalue, - | ⟨-, -⟩⟩
  · exact relaid_pure rfl
  · exact relaid_eval hinvoke _ hvalue
  · exact relaid_bind_same hall fun values =>
      relaid_bind_same (relaid_allocate (blind_newArray values.toArray)) fun _ => relaid_pure rfl

lemma relaid_declareAll {declarators declarators' : List Declarator}
    (h : List.Forall₂ (Declarator.Moved Token.Relaid) declarators declarators') (id : ScopeId) :
    Run.Relaid Eq (Declarator.declareAll invoke id declarators)
      (Declarator.declareAll invoke' id declarators') := by
  induction h with
  | nil => exact relaid_pure rfl
  | cons hdeclarator _ ih =>
    obtain ⟨hname, htype, hvalue⟩ := hdeclarator
    cases hvalue with
    | none =>
      have hinitial : ∀ {type type' : Option Token}, Option.Rel Token.Relaid type type' →
          type'.map (fun type => Text.lower type.lexeme) =
            type.map (fun type => Text.lower type.lexeme) := fun h =>
        map_eq_of_rel h fun _ _ h => by rw [h.lexeme]
      refine relaid_bind_same (relaid_pure ?_) fun _ =>
        relaid_bind_same (relaid_define hname id _ _) fun _ => ih
      unfold Declarator.initialValue
      rw [hinitial htype]
    | some hvalue =>
      exact relaid_bind_same (relaid_eval hinvoke _ hvalue) fun _ =>
        relaid_bind_same (relaid_define hname id _ _) fun _ => ih

end Expressions

section Loops

lemma relaid_newScope (parent : Option ScopeId) :
    Run.Relaid Eq (Run.allocate fun heap => heap.newScope parent)
      (Run.allocate fun heap => heap.newScope parent) :=
  relaid_allocate (blind_newScope parent)

variable {test test' : Run Value} {round round' : Run Signal} (hround : Run.Relaid Eq round round')

include hround

lemma relaid_nested {body body' : List Stmt} (hbody : List.Forall₂ Stmt.Relaid body body') :
    Run.Relaid Eq (Run.nested body round) (Run.nested body' round') := by
  cases hbody with
  | nil => exact relaid_pure rfl
  | cons _ _ =>
    exact relaid_bind_same relaid_scope fun around =>
      relaid_bind_same (relaid_newScope (some around)) fun id => relaid_within id hround

variable {token token' : Token} (htoken : token.Relaid token')

include htoken

lemma relaid_whileLoop (htest : Run.Relaid Eq test test') (rounds : Nat) :
    Run.Relaid Eq (Run.whileLoop token test round rounds)
      (Run.whileLoop token' test' round' rounds) := by
  induction rounds with
  | zero => exact relaid_exhausted
  | succ rounds ih =>
    refine relaid_bind_same htest fun _ => relaid_ite
      (relaid_bind_same (relaid_step htoken) fun _ => relaid_bind_same hround fun signal => ?_)
      (relaid_pure rfl)
    cases signal with
    | normal => exact ih
    | looped => exact ih
    | exited => exact relaid_pure rfl
    | returned value => exact relaid_pure rfl

lemma relaid_doLoop (htest : Run.Relaid Eq test test') (rounds : Nat) :
    Run.Relaid Eq (Run.doLoop token test round rounds)
      (Run.doLoop token' test' round' rounds) := by
  induction rounds with
  | zero => exact relaid_exhausted
  | succ rounds ih =>
    have hagain : Run.Relaid Eq
        (do if (← test).isTruthy then Run.doLoop token test round rounds else return .normal)
        (do if (← test').isTruthy then Run.doLoop token' test' round' rounds
            else return .normal) :=
      relaid_bind_same htest fun _ => relaid_ite ih (relaid_pure rfl)
    refine relaid_bind_same (relaid_step htoken) fun _ => relaid_bind_same hround fun signal => ?_
    cases signal with
    | normal => exact hagain
    | looped => exact hagain
    | exited => exact relaid_pure rfl
    | returned value => exact relaid_pure rfl

variable {counter counter' : Token} (hcounter : counter.Relaid counter')

include hcounter

lemma relaid_forLoop (id : ScopeId) (range : Run.Range) (rounds : Nat) (current : Float) :
    Run.Relaid Eq (Run.forLoop token counter id range round rounds current)
      (Run.forLoop token' counter' id range round' rounds current) := by
  induction rounds generalizing current with
  | zero => exact relaid_exhausted
  | succ rounds ih =>
    refine relaid_ite (relaid_pure rfl) (relaid_bind_same (relaid_step htoken) fun _ =>
      relaid_bind_same (relaid_within id hround) fun signal => ?_)
    have hnext := relaid_bind_same (relaid_advance htoken hcounter id range) ih
    cases signal with
    | normal => exact hnext
    | looped => exact hnext
    | exited => exact relaid_pure rfl
    | returned value => exact relaid_pure rfl

lemma relaid_countingLoop {invoke invoke' : Invocation} (hinvoke : invoke.Relaid invoke')
    {start start' finish finish' : Expr} (hstart : Expr.Relaid start start')
    (hfinish : Expr.Relaid finish finish') {step step' : Option Expr}
    (hstep : Option.Rel Expr.Relaid step step') :
    Run.Relaid Eq (Run.countingLoop invoke token counter start finish step round)
      (Run.countingLoop invoke' token' counter' start' finish' step' round') := by
  refine relaid_bind_same relaid_scope fun around =>
    relaid_bind_same (relaid_newScope (some around)) fun id =>
      relaid_bind_same (relaid_eval hinvoke _ hstart) fun first =>
        relaid_bind_same (relaid_define hcounter id first _) fun _ =>
          relaid_bind_same (relaid_holdingCells _ (relaid_eval hinvoke _ hfinish)) fun last => ?_
  have hloop (current finish increment : Float) : Run.Relaid Eq
      (if increment == 0 then Run.fail token .zeroStep
        else Run.forLoop token counter id ⟨finish, increment⟩ round Signal.maxRounds current)
      (if increment == 0 then Run.fail token' .zeroStep
        else Run.forLoop token' counter' id ⟨finish, increment⟩ round' Signal.maxRounds current) :=
    relaid_ite (relaid_fail htoken _) (relaid_forLoop hround htoken hcounter id _ _ current)
  split
  · next current finish =>
    cases hstep with
    | none => exact relaid_bind_same (relaid_pure rfl) (hloop current finish)
    | some hstep =>
      refine relaid_bind_same (relaid_holdingCells _ (relaid_eval hinvoke _ hstep)) fun value => ?_
      split
      · exact relaid_bind_same (relaid_pure rfl) (hloop current finish)
      · exact relaid_bind_same (relaid_fail htoken _) (hloop current finish)
  · exact relaid_fail htoken _

end Loops

section Statements

lemma stmtToken_relaid {s s' : Stmt} (h : Stmt.Relaid s s') : s.token.Relaid s'.token := by
  cases h with
  | imported h => cases h
  | expression h => exact token_relaid _ h
  | function h =>
    obtain ⟨h, -, -, -, -⟩ := h
    exact h
  | classDef h =>
    obtain ⟨h, -, -, -, -⟩ := h
    exact h
  | _ => assumption

variable {invoke invoke' : Invocation}

mutual

/-- A statement does the same in every layout. -/
lemma relaid_exec (hinvoke : invoke.Relaid invoke') : (s : Stmt) → {s' : Stmt} →
    Stmt.Relaid s s' → Run.Relaid Eq (s.exec invoke) (s'.exec invoke')
  | .expression value, _, .expression hvalue => by
    rw [Stmt.exec, Stmt.exec]
    exact relaid_bind_same (relaid_step (token_relaid value hvalue)) fun _ =>
      relaid_bind_same (relaid_eval hinvoke value hvalue) fun _ => relaid_pure rfl
  | .print .., _, .print h hvalues => by
    rw [Stmt.exec, Stmt.exec]
    exact relaid_bind_same (relaid_step h) fun _ =>
      relaid_bind_same (relaid_printAll hinvoke h hvalues) fun _ => relaid_pure rfl
  | .giveBack .., _, .giveBack h hvalues => by
    rw [Stmt.exec, Stmt.exec]
    exact relaid_bind_same (relaid_step h) fun _ =>
      relaid_bind_same (relaid_result hinvoke hvalues) fun _ => relaid_pure rfl
  | .declare _ extent _, _, .declare h hdeclarators => by
    rw [Stmt.exec, Stmt.exec]
    exact relaid_bind_same (relaid_step h) fun _ =>
      relaid_bind_same (relaid_target extent) fun id =>
        relaid_bind_same (relaid_declareAll hinvoke hdeclarators id) fun _ => relaid_pure rfl
  | .destructure _ extent _ _, _, .destructure h hnames hvalues => by
    rw [Stmt.exec, Stmt.exec, ← hnames.length_eq]
    exact relaid_bind_same (relaid_step h) fun _ =>
      relaid_bind_same (relaid_target extent) fun id =>
        relaid_bind_same (relaid_evalSpread hinvoke hvalues) fun values =>
          relaid_bind_same (relaid_checkCounts h _ _) fun _ =>
            relaid_bind_same (relaid_defineAll hnames id values) fun _ => relaid_pure rfl
  | .branch _ condition consequence alternative, _,
      .branch h hcondition hconsequence halternative => by
    rw [Stmt.exec, Stmt.exec]
    exact relaid_bind_same (relaid_step h) fun _ =>
      relaid_bind_same (relaid_eval hinvoke condition hcondition) fun _ =>
        relaid_ite
          (relaid_nested (relaid_execAll hinvoke consequence hconsequence) hconsequence)
          (relaid_nested (relaid_execAll hinvoke alternative halternative) halternative)
  | .choose _ branches otherwise, _, .choose h hbranches hotherwise => by
    rw [Stmt.exec, Stmt.exec]
    exact relaid_bind_same (relaid_step h) fun _ =>
      relaid_execCases hinvoke branches hbranches
        (relaid_execOtherwise hinvoke otherwise hotherwise)
  | .whileLoop _ condition body, _, .whileLoop h hcondition hbody => by
    rw [Stmt.exec, Stmt.exec]
    exact relaid_bind_same (relaid_step h) fun _ =>
      relaid_whileLoop (relaid_nested (relaid_execAll hinvoke body hbody) hbody) h
        (relaid_eval hinvoke condition hcondition) Signal.maxRounds
  | .doLoop _ body condition, _, .doLoop h hbody hcondition => by
    rw [Stmt.exec, Stmt.exec]
    exact relaid_bind_same (relaid_step h) fun _ =>
      relaid_doLoop (relaid_nested (relaid_execAll hinvoke body hbody) hbody) h
        (relaid_eval hinvoke condition hcondition) Signal.maxRounds
  | .forLoop _ _ _ _ _ body, _, .forLoop h hcounter hstart hfinish hstep hbody => by
    rw [Stmt.exec, Stmt.exec]
    exact relaid_bind_same (relaid_step h) fun _ =>
      relaid_countingLoop (relaid_execAll hinvoke body hbody) h hcounter hinvoke hstart hfinish
        hstep
  | .exit _, _, .exit h => by
    rw [Stmt.exec, Stmt.exec]
    exact relaid_bind_same (relaid_step h) fun _ => relaid_pure rfl
  | .loop _, _, .loop h => by
    rw [Stmt.exec, Stmt.exec]
    exact relaid_bind_same (relaid_step h) fun _ => relaid_pure rfl
  | .function _, _, .function h => by
    have htoken := stmtToken_relaid (.function h)
    rw [Stmt.exec, Stmt.exec]
    refine relaid_bind_same (relaid_step htoken) fun _ => relaid_bind_same relaid_scope fun id =>
      relaid_bind_same (relaid_newFunction ⟨h, rfl⟩) fun function => ?_
    obtain ⟨-, hname, -, -, -⟩ := h
    exact relaid_bind_same (relaid_define hname id _ _) fun _ => relaid_pure rfl
  | .classDef _, _, .classDef h => by
    have htoken := stmtToken_relaid (.classDef h)
    rw [Stmt.exec, Stmt.exec]
    refine relaid_bind_same (relaid_step htoken) fun _ =>
      relaid_bind_same (relaid_superclass h) fun superclass =>
        relaid_bind_same relaid_scope fun id =>
          relaid_bind_same (relaid_newClass ⟨h, rfl⟩) fun cell => ?_
    obtain ⟨-, hname, -, -, -⟩ := h
    exact relaid_bind_same (relaid_define hname id _ _) fun _ => relaid_pure rfl
  | .const _ _ value, _, .const h hname hvalue => by
    rw [Stmt.exec, Stmt.exec, hname.lexeme]
    refine relaid_bind_same (relaid_step h) fun _ =>
      relaid_bind_same (relaid_eval hinvoke value hvalue) fun v =>
        relaid_bind_same relaid_scope fun id => relaid_bind relaid_heap fun _ _ hheap => ?_
    rw [kindOf_relaid hheap]
    exact relaid_ite (relaid_fail hname _)
      (relaid_bind_same (relaid_define hname id v _) fun _ => relaid_pure rfl)
  | .module _ _ body, _, .module h hname hbody => by
    rw [Stmt.exec, Stmt.exec]
    refine relaid_bind_same (relaid_step h) fun _ =>
      relaid_bind_same (relaid_record _ _ _ _) fun _ => relaid_bind_same relaid_scope fun around =>
        relaid_bind_same (relaid_newScope (some around)) fun id =>
          relaid_bind_same (relaid_within id (relaid_execAll hinvoke body hbody)) fun signal => ?_
    have hdefine := relaid_bind_same (relaid_define hname around (.scope id) .constant) fun _ =>
      relaid_pure (rfl : Signal.normal = .normal)
    cases signal with
    | normal => exact hdefine
    | returned value => exact hdefine
    | looped => exact relaid_fail h _
    | exited => exact relaid_fail h _
  | .module .., _, .imported h => by cases h
  | .release .., _, .release h htargets => by
    rw [Stmt.exec, Stmt.exec]
    exact relaid_bind_same (relaid_step h) fun _ =>
      relaid_bind_same (relaid_release htargets) fun _ => relaid_pure rfl
  | .defer .., _, .defer h _ => by
    rw [Stmt.exec, Stmt.exec]
    exact relaid_bind_same (relaid_step h) fun _ =>
      relaid_bind_same (relaid_record _ _ _ _) fun _ => relaid_pure rfl
  | .assign _ _ value, _, .assign h htarget hvalue => by
    rw [Stmt.exec, Stmt.exec]
    exact relaid_bind_same (relaid_step h) fun _ =>
      relaid_bind_same (relaid_eval hinvoke value hvalue) fun v =>
        relaid_bind_same (relaid_assign hinvoke htarget v) fun _ => relaid_pure rfl
  | .update _ target value, _, .update h htarget hvalue => by
    rw [Stmt.exec, Stmt.exec, h.category]
    refine relaid_bind_same (relaid_step h) fun _ =>
      relaid_bind_same (relaid_eval hinvoke value hvalue) fun right =>
        relaid_bind_same (relaid_holding _ (relaid_eval hinvoke target htarget)) fun left =>
          relaid_bind relaid_heap fun _ _ hheap => ?_
    rw [binary_relaid hheap]
    exact relaid_bind_same (relaid_lift h _) fun result =>
      relaid_bind_same (relaid_holding _ (relaid_assign hinvoke htarget result)) fun _ =>
        relaid_pure rfl
  | .assignAll .., _, .assignAll h htargets hvalues => by
    rw [Stmt.exec, Stmt.exec, ← htargets.length_eq]
    exact relaid_bind_same (relaid_step h) fun _ =>
      relaid_bind_same (relaid_evalSpread hinvoke hvalues) fun values =>
        relaid_bind_same (relaid_checkCounts h _ _) fun _ =>
          relaid_bind_same (relaid_assignAll hinvoke htargets values) fun _ => relaid_pure rfl

lemma relaid_execAll (hinvoke : invoke.Relaid invoke') : (body : List Stmt) →
    {body' : List Stmt} → List.Forall₂ Stmt.Relaid body body' →
    Run.Relaid Eq (Stmt.execAll invoke body) (Stmt.execAll invoke' body')
  | [], _, .nil => by
    rw [Stmt.execAll, Stmt.execAll]
    exact relaid_pure rfl
  | statement :: others, _, .cons h hothers => by
    rw [Stmt.execAll, Stmt.execAll]
    refine relaid_bind_same (relaid_exec hinvoke statement h) fun signal => ?_
    cases signal with
    | normal => exact relaid_execAll hinvoke others hothers
    | _ => exact relaid_pure rfl

lemma relaid_execCases (hinvoke : invoke.Relaid invoke') {otherwise otherwise' : Run Signal} :
    (branches : List (CaseBranch Stmt)) → {branches' : List (CaseBranch Stmt)} →
    List.Forall₂ (CaseBranch.Moved Token.Relaid Stmt.Relaid) branches branches' →
    Run.Relaid Eq otherwise otherwise' →
    Run.Relaid Eq (Stmt.execCases invoke branches otherwise)
      (Stmt.execCases invoke' branches' otherwise')
  | [], _, .nil, hotherwise => by
    rw [Stmt.execCases, Stmt.execCases]
    exact hotherwise
  | ⟨conditions, body⟩ :: others, _, .cons (.mk hconditions hbody) hothers, hotherwise => by
    rw [Stmt.execCases, Stmt.execCases]
    exact relaid_bind_same (relaid_anyTruthy hinvoke hconditions) fun _ =>
      relaid_ite (relaid_nested (relaid_execAll hinvoke body hbody) hbody)
        (relaid_execCases hinvoke others hothers hotherwise)

lemma relaid_execOtherwise (hinvoke : invoke.Relaid invoke') : (otherwise : Option (List Stmt)) →
    {otherwise' : Option (List Stmt)} →
    Option.Rel (List.Forall₂ Stmt.Relaid) otherwise otherwise' →
    Run.Relaid Eq (Stmt.execOtherwise invoke otherwise) (Stmt.execOtherwise invoke' otherwise')
  | none, _, .none => by
    rw [Stmt.execOtherwise, Stmt.execOtherwise]
    exact relaid_pure rfl
  | some body, _, .some hbody => by
    rw [Stmt.execOtherwise, Stmt.execOtherwise]
    exact relaid_nested (relaid_execAll hinvoke body hbody) hbody

end

end Statements

section Calls

variable {invoke invoke' : Invocation} (hinvoke : invoke.Relaid invoke')

include hinvoke

lemma relaid_bindDefaults {parameters parameters' : List Parameter}
    (h : List.Forall₂ (Parameter.Moved Token.Relaid) parameters parameters') (id : ScopeId) :
    Run.Relaid Eq (Run.bindDefaults invoke id parameters)
      (Run.bindDefaults invoke' id parameters') := by
  induction h with
  | nil => exact relaid_pure rfl
  | cons hparameter _ ih =>
    obtain ⟨hname, -, hdefault⟩ := hparameter
    cases hdefault with
    | none =>
      exact relaid_bind_same (relaid_pure rfl) fun _ =>
        relaid_bind_same (relaid_define hname id _ _) fun _ => ih
    | some hdefault =>
      exact relaid_bind_same (relaid_within id (relaid_eval hinvoke _ hdefault)) fun _ =>
        relaid_bind_same (relaid_define hname id _ _) fun _ => ih

lemma relaid_runDefers {token token' : Token} (htoken : token.Relaid token')
    {blocks blocks' : List (List Stmt)}
    (h : List.Forall₂ (List.Forall₂ Stmt.Relaid) blocks blocks') (id : ScopeId) :
    Run.Relaid Eq (Run.runDefers invoke token id blocks)
      (Run.runDefers invoke' token' id blocks') := by
  induction h with
  | nil => exact relaid_pure rfl
  | cons hblock _ ih =>
    refine relaid_bind_same (relaid_within id (relaid_execAll hinvoke _ hblock)) fun signal => ?_
    cases signal with
    | normal => exact ih
    | returned value => exact ih
    | looped => exact relaid_fail htoken _
    | exited => exact relaid_fail htoken _

variable {site site' : CallSite} (hsite : site.Relaid site')
  {arguments arguments' : List ArgumentValue}
  (harguments : List.Forall₂ ArgumentValue.Relaid arguments arguments')

include hsite harguments

lemma relaid_enter {closure closure' : Closure} (h : closure.Relaid closure') :
    Run.Relaid Eq (Run.enter invoke closure site arguments)
      (Run.enter invoke' closure' site' arguments') := by
  obtain ⟨_, _⟩ := closure
  obtain ⟨_, _⟩ := closure'
  obtain ⟨⟨-, -, hparameters, hbody, hdefers⟩, rfl⟩ := h
  refine relaid_bind_same (relaid_newScope _) fun id => relaid_bind_same ?_ fun _ =>
    relaid_bind_same (relaid_within id (relaid_execAll hinvoke _ hbody)) fun signal => ?_
  · unfold Run.bindParameters
    rw [values_relaid harguments]
    exact relaid_bind_same (relaid_holding _ (relaid_bindDefaults hinvoke hparameters id)) fun _ =>
      relaid_bindArguments hparameters harguments id 0
  · cases signal with
    | normal => exact relaid_pure rfl
    | looped => exact relaid_fail hsite.token _
    | exited => exact relaid_fail hsite.token _
    | returned value =>
      exact relaid_bind_same
        (relaid_holding _ (relaid_runDefers hinvoke hsite.token (List.rel_reverse hdefers) id))
        fun _ => relaid_pure rfl

lemma relaid_callFunction (id : FunctionId) :
    Run.Relaid Eq (Run.callFunction invoke id site arguments)
      (Run.callFunction invoke' id site' arguments') := by
  refine relaid_bind relaid_heap fun heap heap' hheap => ?_
  have hfound := function_relaid hheap id
  generalize heap.functions[id]? = found at hfound ⊢
  generalize heap'.functions[id]? = found' at hfound ⊢
  cases hfound with
  | none => exact relaid_pure rfl
  | some hclosure =>
    exact relaid_bind_same (relaid_record _ _ _ _) fun _ =>
      relaid_deeper hsite.token (relaid_enter hinvoke hsite harguments hclosure)

end Calls

section Units

lemma relaid_invoke (levels : Nat) : (Run.invoke levels).Relaid (Run.invoke levels) := by
  induction levels with
  | zero =>
    intro id site site' arguments arguments' hsite harguments
    exact relaid_callFunction (fun _ _ _ _ _ _ _ => relaid_exhausted) hsite harguments id
  | succ levels ih =>
    intro id site site' arguments arguments' hsite harguments
    exact relaid_callFunction ih hsite harguments id

lemma relaid_calls : Run.Relaid Invocation.Relaid Run.calls Run.calls :=
  relaid_bind_same relaid_config fun c => relaid_pure (relaid_invoke c.limits.maxDepth)

lemma relaid_statements {invoke invoke' : Invocation} (hinvoke : invoke.Relaid invoke')
    {program program' : List Stmt} (h : List.Forall₂ Stmt.Relaid program program') :
    Run.Relaid Eq (Run.statements invoke program) (Run.statements invoke' program') := by
  induction h with
  | nil => exact relaid_pure rfl
  | cons hstatement _ ih =>
    have htoken := stmtToken_relaid hstatement
    refine relaid_bind_same (relaid_exec hinvoke _ hstatement) fun signal => ?_
    cases signal with
    | normal => exact ih
    | returned value =>
      exact relaid_bind_same (relaid_text value) fun _ => relaid_record _ _ _ _
    | looped => exact relaid_fail htoken _
    | exited => exact relaid_fail htoken _

lemma relaid_unit {program program' : List Stmt}
    (h : List.Forall₂ Stmt.Relaid program program') :
    Run.Relaid Eq (Run.unit program) (Run.unit program') := by
  refine relaid_bind_same (relaid_record _ _ _ _) fun _ =>
    relaid_bind_same (relaid_modify fun m m' hm => ?_) fun _ =>
      relaid_bind relaid_calls fun _ _ hinvoke => relaid_statements hinvoke h
  exact { hm with steps := rfl, depth := rfl, scope := hm.globals, saved := rfl, held := rfl }

lemma relaid_value {expression expression' : Expr} (h : Expr.Relaid expression expression') :
    Run.Relaid Eq (Run.value expression) (Run.value expression') :=
  relaid_bind relaid_calls fun _ _ hinvoke => relaid_eval hinvoke expression h

/-- The machine after some units, however each of them has ended. -/
lemma relaid_units (c : Config) {programs programs' : List (List Stmt)}
    (h : List.Forall₂ (List.Forall₂ Stmt.Relaid) programs programs') {m m' : Machine}
    (hm : m.Relaid m') :
    (programs.foldl (fun m program => (Run.unit program c m).2) m).Relaid
      (programs'.foldl (fun m program => (Run.unit program c m).2) m') := by
  induction h generalizing m m' with
  | nil => exact hm
  | cons hprogram _ ih => exact ih (machine_of_sameOutcome (relaid_unit hprogram c m m' hm))

end Units

/-- Layout does not matter. Take two machines that are the same but for the places of the tokens in
their functions and classes, and run two programs on them that are the same but for the places of
their tokens. Both print the same and leave the same heap behind, again but for places. Either both
succeed, or both run out of rounds, or both fail with the same fault at the same word, and only the
place of the error may differ. The same holds for the value of an expression, and for units that are
run one after another. -/
theorem layout_does_not_matter (c : Config) (m m' : Machine) (hm : m.Relaid m') :
    (∀ program program', List.Forall₂ Stmt.Relaid program program' →
      SameOutcome Eq (Run.unit program c m) (Run.unit program' c m')) ∧
    (∀ expression expression', Expr.Relaid expression expression' →
      SameOutcome Eq (Run.value expression c m) (Run.value expression' c m')) ∧
    ∀ programs programs', List.Forall₂ (List.Forall₂ Stmt.Relaid) programs programs' →
      (programs.foldl (fun m program => (Run.unit program c m).2) m).Relaid
        (programs'.foldl (fun m program => (Run.unit program c m).2) m') :=
  ⟨fun _ _ h => relaid_unit h c m m' hm, fun _ _ h => relaid_value h c m m' hm,
    fun _ _ h => relaid_units c h hm⟩

/-- A function that prints itself and then reads a name that nothing is bound to, and a call of it.
Everything stands in one line. -/
def dangling (line : Nat) : List Stmt :=
  let token (lexeme : String) : Token := { nameToken lexeme with position := ⟨line, 1⟩ }
  let body : List Stmt :=
    [.print (token "?") [.name (token "f")], .giveBack (token "return") [.name (token "missing")]]
  [.function ⟨token "function", token "f", [], body, []⟩,
    .expression (.call (.name (token "f")) [])]

def failureLine : Except Halt Unit → Option Nat
  | .error (.failure error) => some error.position.line
  | _ => none

/-- A program fails in the first line as it does in the seventh. -/
theorem dangling_fails_in_every_line :
    let c : Config := ⟨⟨none, 2⟩, bareHost⟩
    let m := Machine.start bareHost
    SameOutcome Eq (Run.unit (dangling 1) c m) (Run.unit (dangling 7) c m) ∧
      failureLine (Run.unit (dangling 1) c m).1 = some 1 ∧
      failureLine (Run.unit (dangling 7) c m).1 = some 7 ∧
      (Run.unit (dangling 7) c m).2.output = "fn(f)\n" := by
  intro c m
  have hm : m.Relaid m :=
    ⟨⟨rfl, rfl, .nil, .nil, rfl⟩, rfl, rfl, rfl, rfl, rfl, rfl, rfl, rfl, rfl, rfl⟩
  have htoken (lexeme : String) : Token.Relaid
      { nameToken lexeme with position := ⟨1, 1⟩ } { nameToken lexeme with position := ⟨7, 1⟩ } :=
    ⟨rfl, rfl, rfl, rfl⟩
  have hprint : Stmt.Relaid _ _ := .print (htoken "?") (.cons (.name (htoken "f")) .nil)
  have hreturn : Stmt.Relaid _ _ :=
    .giveBack (htoken "return") (.cons (.name (htoken "missing")) .nil)
  have hcall : Expr.Relaid _ _ := .call (.name (htoken "f")) .nil
  have hprogram : List.Forall₂ Stmt.Relaid (dangling 1) (dangling 7) :=
    .cons (.function (.mk (htoken "function") (htoken "f") .nil (.cons hprint (.cons hreturn .nil))
      .nil)) (.cons (.expression hcall) .nil)
  refine ⟨(layout_does_not_matter c m m hm).1 _ _ hprogram, ?_, ?_, ?_⟩ <;> decide +kernel

end XBase.Proofs
