import XBase.Proofs.Conduct

/-!
# Programs under a law

Every expression, every statement and every call of lawful code runs lawfully, so a session whose
programs are all lawful never leaves the law.
-/

noncomputable section

namespace XBase.Proofs

/-- A stretch of moments that is passed through from a machine on, within the moments that follow
the start. -/
def Within (start : Machine) (moments : List Moment) (m : Machine) (part : List Moment) : Prop :=
  ∃ before, finish start before = m ∧ before ++ part <+: moments

variable {m : Machine} {arguments : List ArgumentValue} {right v : Value} {operator : Token}
  {id : ScopeId} {session : Session}

lemma within_append {start : Machine} {moments s t : List Moment}
    (h : Within start moments m (s ++ t)) :
    Within start moments m s ∧ Within start moments (finish m s) t := by
  obtain ⟨before, rfl, hpart⟩ := h
  rw [← List.append_assoc] at hpart
  refine ⟨⟨before, rfl, (List.prefix_append _ _).trans hpart⟩, before ++ s, ?_, hpart⟩
  rw [finish_append]

/-- The nodes of the programs of some source texts. -/
def InCode (library : Library) (sources : List String) (node : Node) : Prop :=
  ∃ source ∈ sources, ∃ program, (SourceUnit.parse library source).result = .ok program ∧
    node ∈ Stmt.allNodes program

/-- The statements that consist of blocks, which run in scopes of their own. -/
def isCompound : Stmt → Bool
  | .branch .. | .choose .. | .whileLoop .. | .doLoop .. | .forLoop .. => true
  | _ => false

namespace Law

variable {ω : Type} {c : Config} (law : Law ω c)

section Results

variable {w : ω} {n : Nat}

def values (w : ω) (n : Nat) (found : List Value) : Prop :=
  ∀ v ∈ found, law.value w n v

def given (w : ω) (n : Nat) (arguments : List ArgumentValue) : Prop :=
  ∀ argument ∈ arguments, law.value w n argument.value

/-- A signal that carries nothing but what may be had. -/
def signal (w : ω) (n : Nat) : Signal → Prop
  | .returned v => law.value w n v
  | _ => True

lemma given_mono {n' : Nat} (h : n ≤ n') (hgiven : law.given w n arguments) :
    law.given w n' arguments :=
  fun argument hargument => law.value_mono h (hgiven argument hargument)

lemma signal_shrink {new : ScopeId} {found : Signal} (h : law.signal (law.grow w new) n found) :
    law.signal w n found := by
  cases found with
  | returned v => exact law.value_shrink h
  | _ => trivial

lemma value_unary {operator : Category} (h : right.unary operator = .ok v) : law.value w n v := by
  unfold Value.unary at h
  split at h <;> cases h <;> trivial

lemma value_binary {heap : Heap} {operator : Category} {left : Value}
    (h : heap.binary operator left right = .ok v) : law.value w n v := by
  have hnumbers : ∀ {f : Float × Float → Except Fault Value},
      (∀ pair v, f pair = .ok v → law.value w n v) → (left.numbers right >>= f) = .ok v →
        law.value w n v := by
    intro f hf hv
    cases hpair : left.numbers right with
    | ok pair =>
      rw [hpair] at hv
      exact hf pair v hv
    | error fault =>
      rw [hpair] at hv
      cases hv
  unfold Heap.binary at h
  split at h
  · unfold Heap.add at h
    split at h
    · cases h
      trivial
    · split at h <;> cases h <;> trivial
    · cases h
  · exact hnumbers (fun _ _ hv => by cases hv; trivial) h
  · exact hnumbers (fun _ _ hv => by cases hv; trivial) h
  · refine hnumbers (fun _ _ hv => ?_) h
    dsimp only at hv
    split at hv <;> cases hv
    trivial
  · exact hnumbers (fun _ _ hv => by cases hv; trivial) h
  · exact hnumbers (fun _ _ hv => by cases hv; trivial) h
  · exact hnumbers (fun _ _ hv => by cases hv; trivial) h
  · exact hnumbers (fun _ _ hv => by cases hv; trivial) h
  · cases h
    trivial
  · cases h
    trivial
  · cases h

lemma code_cons {node : Node} {nodes : List Node} :
    law.Code (node :: nodes) ↔ law.node node ∧ law.Code nodes :=
  List.forall_mem_cons

lemma code_append {nodes others : List Node} :
    law.Code (nodes ++ others) ↔ law.Code nodes ∧ law.Code others :=
  List.forall_mem_append

end Results

section Operators

variable {levels : Nat} {w : ω} {rounds : Nat} {m : Machine}

lemma outcome_lift {α : Type} {post : Nat → α → Prop} {result : Except Fault α}
    {h : Atomic (Run.lift operator result)} (hm : law.Governs w m) (hstack : law.Stack w m)
    (hok : ∀ a, result = .ok a → post m.heap.scopes.size a)
    (hblame : ∀ fault, result = .error fault → law.Blamed (.ofToken operator fault)) :
    law.Outcome levels w (.atom h : Composition rounds _) m post := by
  cases result with
  | ok a =>
    refine law.outcome_atom hm hstack (Nat.le_refl _) (fun b hb => ?_) fun error herror => ?_
    · cases hb
      exact hok a rfl
    · cases herror
  | error fault =>
    refine law.outcome_atom hm hstack (Nat.le_refl _) (fun b hb => ?_) fun error herror _ => ?_
    · cases hb
    · cases herror
      exact hblame fault rfl

lemma atomic_binary (operator : Token) (left right : Value) (heap : Heap) :
    Atomic (Run.lift operator (heap.binary operator.category left right)) :=
  (atomic_lift operator _ (harmless_binary _ _ _ _))

/-- The application of a binary operator to operands in hand. -/
def operatorComposition (operator : Token) (left right : Value) : Composition rounds fun _ =>
    Run.heap >>= fun heap => Run.lift operator (heap.binary operator.category left right) :=
  .bind (.atom atomic_heap) fun heap => .atom (atomic_binary operator left right heap)

lemma outcome_binary {left : Value} (hm : law.Governs w m) (hstack : law.Stack w m)
    (hblame : ∀ fault, m.heap.binary operator.category left right = .error fault →
      law.Blamed (.ofToken operator fault))
    (hstretch : law.stretch m
      ((operatorComposition operator left right : Composition rounds _).moments levels c m)) :
    law.Outcome levels w (operatorComposition operator left right : Composition rounds _) m
      (law.value w) := by
  have hheap : law.Conducts levels m.scope w w 0
      (.atom atomic_heap : Composition rounds fun _ => Run.heap) Any :=
    law.conducts_atom (law.permits_weaken law.permits_heap fun _ _ _ _ => trivial)
  refine law.outcome_bind hstack hstretch (hheap m rfl (Nat.zero_le _) hm hstack) ?_
  intro heap m' hrun _ _ hgoverns hstack' _ _
  cases hrun
  exact law.outcome_lift hgoverns hstack' (fun v hv => law.value_binary hv) hblame

end Operators

/-- Calls of known functions with lawful arguments run lawfully. -/
def Calls (levels : Nat) : Prop :=
  ∀ {s : ScopeId} {w : ω} {n : Nat} (id : FunctionId) (site : CallSite)
    (arguments : List ArgumentValue), law.knows (.function id) → law.given w n arguments →
    law.Conducts levels s w w n (.call id site arguments : Composition Signal.maxRounds _)
      (law.value w)

section Expressions

variable {levels : Nat} {s : ScopeId} {w : ω} {n : Nat}

lemma conducts_apply (hcalls : law.Calls levels) {callee : Value} (hcallee : law.value w n callee)
    (site : CallSite) (hgiven : law.given w n arguments) :
    law.Conducts levels s w w n
      (applyComposition callee site arguments : Composition Signal.maxRounds _) (law.value w) := by
  cases callee with
  | function id => exact hcalls id site arguments hcallee hgiven
  | array id => exact law.conducts_atom (law.permits_callArray hcallee site hgiven)
  | classRef id => exact law.conducts_atom (law.permits_callClass id site arguments)
  | native which => exact law.conducts_atom (law.permits_callNative hcallee site arguments)
  | cursor id => exact law.conducts_atom (law.permits_callCursor hcallee site arguments)
  | _ => exact law.conducts_pure fun _ _ => trivial

/-- A scope that names may be read from. -/
def Reads (w : ω) (s : ScopeId) : Prop :=
  ∀ n name token, law.Permits s w n (Run.lookup s name token) (law.value w)

lemma reads_of_place (h : law.place n s) : law.Reads w s :=
  fun _ name token => law.permits_lookup (law.knows_of_place h) name token

mutual

lemma reads_eval (hcalls : law.Calls levels) {s : ScopeId} {w : ω} {n : Nat}
    (hs : law.Reads w s) : (e : Expr) → law.Code e.nodes → law.Conducts levels s w w n
      (evalComposition e : Composition Signal.maxRounds _) (law.value w)
  | .literal token, _ => by
    refine law.conducts_pure fun _ _ => ?_
    unfold Value.ofLiteral
    split <;> trivial
  | .name token, _ => by
    refine law.conducts_act law.permits_scope fun _ id _ hid => ?_
    rw [hid]
    exact law.conducts_atom (hs _ _ _)
  | .unary operator right, hcode => by
    obtain ⟨hnode, hright⟩ := law.code_cons.mp hcode
    intro m hscope hn hm hstack hstretch
    refine law.outcome_bind hstack hstretch
      (reads_eval hcalls hs right hright m hscope hn hm hstack) ?_
    intro v m' hrun _ _ hgoverns hstack' _ _
    refine law.outcome_lift hgoverns hstack' (fun _ hv => law.value_unary hv) fun fault hfault => ?_
    exact .inr ⟨m, .evaluate (.unary operator right), levels, hnode, hstretch, .unary hrun hfault⟩
  | .binary left operator right, hcode => by
    obtain ⟨hnode, hparts⟩ := law.code_cons.mp hcode
    obtain ⟨hleft, hright⟩ := law.code_append.mp hparts
    intro m hscope hn hm hstack hstretch
    refine law.outcome_bind hstack hstretch
      (reads_eval hcalls hs left hleft m hscope hn hm hstack) ?_
    intro l m' hrun hscope' hsize hgoverns hstack' hl hstretch'
    refine law.outcome_bind hstack' hstretch'
      (law.conducts_holding (reads_eval hcalls hs right hright) m' (hscope'.trans hscope)
        (Nat.le_refl _) hgoverns hstack') ?_
    intro r m'' hrun' _ _ hgoverns' hstack'' _ hstretch''
    refine law.outcome_binary hgoverns' hstack'' (fun fault hfault => ?_) hstretch''
    exact .inr ⟨m, .evaluate (.binary left operator right), levels, hnode, hstretch,
      .binary hrun hrun' hfault⟩
  | .logical left operator right, hcode => by
    obtain ⟨hleft, hright⟩ := law.code_append.mp (law.code_cons.mp hcode).2
    refine law.conducts_bind (reads_eval hcalls hs left hleft) fun n' l hn hl => ?_
    exact law.conducts_ite
      (law.conducts_pure fun _ hn' => law.value_mono hn' hl)
      (law.conducts_holding (reads_eval hcalls hs right hright))
  | .member object property, hcode =>
    law.conducts_bind (reads_eval hcalls hs object (law.code_cons.mp hcode).2)
      fun _ _ _ ho => law.conducts_atom (law.permits_readMember ho property)
  | .index object bracket key, hcode => by
    obtain ⟨hobject, hkey⟩ := law.code_append.mp (law.code_cons.mp hcode).2
    refine law.conducts_bind (reads_eval hcalls hs object hobject) fun n' o hn ho => ?_
    refine law.conducts_bind
      (law.conducts_holding (reads_eval hcalls hs key hkey))
      fun _ k hn' _ => ?_
    exact law.conducts_atom (law.permits_readIndex (law.value_mono hn' ho) k bracket)
  | .call callee arguments, hcode => by
    obtain ⟨hcallee, harguments⟩ := law.code_append.mp (law.code_cons.mp hcode).2
    refine law.conducts_bind (reads_eval hcalls hs callee hcallee) fun n' value hn hvalue => ?_
    refine law.conducts_act (law.permits_checkCallee callee value _) fun n'' _ hn' _ => ?_
    refine law.conducts_bind
      (law.conducts_holding (reads_evalArguments hcalls hs arguments harguments))
      fun n''' found hn'' hfound => ?_
    have hvalue' := law.value_mono (Nat.le_trans hn' hn'') hvalue
    exact law.conducts_holding (law.conducts_apply hcalls hvalue' _ hfound)
  | .create keyword wanted arguments, hcode => by
    have harguments := (law.code_cons.mp hcode).2
    refine law.conducts_act (law.permits_prototype wanted) fun n' value hn hvalue => ?_
    cases value with
    | array id =>
      refine law.conducts_bind (law.conducts_holding
        (reads_evalInto hcalls hs hvalue arguments harguments))
        fun _ _ _ _ => ?_
      refine law.conducts_act law.permits_heap fun _ _ _ _ => ?_
      refine law.conducts_act (law.permits_record _ _) fun _ _ _ _ => ?_
      exact law.conducts_pure fun _ _ => hvalue
    | _ => exact law.conducts_pure fun _ hn' => law.value_mono hn' hvalue
  | .conditional keyword condition consequence alternative, hcode => by
    obtain ⟨hcondition, hbranches⟩ := law.code_append.mp (law.code_cons.mp hcode).2
    obtain ⟨hconsequence, halternative⟩ := law.code_append.mp hbranches
    refine law.conducts_bind (reads_eval hcalls hs condition hcondition) fun n' _ hn _ => ?_
    exact law.conducts_ite (reads_eval hcalls hs consequence hconsequence)
      (reads_evalOption hcalls hs alternative halternative)
  | .this token, _ => law.conducts_pure fun _ _ => trivial
  | .substitution token, _ =>
    law.conducts_act (law.permits_record _ _) fun _ _ _ _ => law.conducts_pure fun _ _ => trivial

lemma reads_evalOption (hcalls : law.Calls levels) {s : ScopeId} {w : ω} {n : Nat}
    (hs : law.Reads w s) : (e : Option Expr) → law.Code (Expr.optionNodes e) →
      law.Conducts levels s w w n (evalOptionComposition e : Composition Signal.maxRounds _)
        (law.value w)
  | none, _ => law.conducts_pure fun _ _ => trivial
  | some e, hcode => reads_eval hcalls hs e hcode

lemma reads_evalArguments (hcalls : law.Calls levels) {s : ScopeId} {w : ω} {n : Nat}
    (hs : law.Reads w s) : (arguments : List (Argument Expr)) →
      law.Code (Expr.argumentNodes arguments) → law.Conducts levels s w w n
        (argumentsComposition arguments : Composition Signal.maxRounds _) (law.given w)
  | [], _ => law.conducts_pure fun _ _ _ h => by cases h
  | ⟨label, value⟩ :: arguments, hcode => by
    obtain ⟨hvalue, harguments⟩ := law.code_append.mp hcode
    have hrest : ∀ n' v, n ≤ n' → law.value w n' v → law.Conducts levels s w w n'
        (.bind (.holding ([v].filterMap Value.cell?) (argumentsComposition arguments)) fun _ =>
          .atom (atomic_pure _) : Composition Signal.maxRounds fun invoke =>
            Run.holding [v] (Expr.evalArguments invoke arguments) >>= fun others =>
              pure (⟨label.getD value.token, label.map Token.lexeme, v⟩ :: others))
        (law.given w) := by
      intro n' v hn hv
      refine law.conducts_bind (law.conducts_holding
        (reads_evalArguments hcalls hs arguments harguments))
        fun n'' others hn' hothers => law.conducts_pure fun n''' hn'' => ?_
      intro argument hargument
      rcases List.mem_cons.mp hargument with rfl | hargument
      · exact law.value_mono (Nat.le_trans hn' hn'') hv
      · exact law.value_mono hn'' (hothers argument hargument)
    exact law.conducts_ite
      (law.conducts_bind (law.conducts_pure fun _ _ => trivial) hrest)
      (law.conducts_bind (reads_eval hcalls hs value hvalue) hrest)

lemma reads_evalInto (hcalls : law.Calls levels) {s : ScopeId} {w : ω} {n : Nat}
    (hs : law.Reads w s) {id : ArrayId} (hid : law.knows (.array id)) : (values : List Expr) →
      law.Code (Expr.allNodes values) → law.Conducts levels s w w n
        (evalIntoComposition id values : Composition Signal.maxRounds _) Any
  | [], _ => law.conducts_pure fun _ _ => trivial
  | value :: others, hcode => by
    obtain ⟨hvalue, hothers⟩ := law.code_append.mp hcode
    refine law.conducts_bind (reads_eval hcalls hs value hvalue) fun n' v hn hv => ?_
    refine law.conducts_act (law.permits_push hid hv) fun n'' _ hn' _ => ?_
    exact reads_evalInto hcalls hs hid others hothers

end

variable (hcalls : law.Calls levels)

include hcalls

lemma conducts_eval (hs : law.place n s) (e : Expr)
    (hcode : law.Code e.nodes) : law.Conducts levels s w w n
      (evalComposition e : Composition Signal.maxRounds _) (law.value w) :=
  law.reads_eval hcalls (law.reads_of_place hs) e hcode

lemma conducts_evalAll (hs : law.place n s) {values : List Expr}
    (hcode : law.Code (Expr.allNodes values)) :
    law.Conducts levels s w w n (evalAllComposition values : Composition Signal.maxRounds _)
      (law.values w) := by
  induction values generalizing n with
  | nil => exact law.conducts_pure fun _ _ _ h => by cases h
  | cons value others ih =>
    obtain ⟨hvalue, hothers⟩ := law.code_append.mp hcode
    refine law.conducts_bind (law.conducts_eval hcalls hs value hvalue) fun n' v hn hv => ?_
    refine law.conducts_bind (law.conducts_holding (ih (law.place_mono hn hs) hothers))
      fun n'' found hn' hfound => law.conducts_pure fun n''' hn'' => ?_
    intro other hother
    rcases List.mem_cons.mp hother with rfl | hother
    · exact law.value_mono (Nat.le_trans hn' hn'') hv
    · exact law.value_mono hn'' (hfound other hother)

lemma conducts_evalSpread (hs : law.place n s) {values : List Expr}
    (hcode : law.Code (Expr.allNodes values)) :
    law.Conducts levels s w w n (evalSpreadComposition values : Composition Signal.maxRounds _)
      (law.values w) := by
  induction values generalizing n with
  | nil => exact law.conducts_pure fun _ _ _ h => by cases h
  | cons value others ih =>
    obtain ⟨hvalue, hothers⟩ := law.code_append.mp hcode
    refine law.conducts_bind (law.conducts_eval hcalls hs value hvalue) fun n' v hn hv => ?_
    have hrest : ∀ n'' found, n' ≤ n'' → law.values w n'' found → law.Conducts levels s w w n''
        (.bind (.holding (found.filterMap Value.cell?) (evalSpreadComposition others)) fun _ =>
          .atom (atomic_pure _) : Composition Signal.maxRounds fun invoke =>
            Run.holding found (Expr.evalSpread invoke others) >>= fun more =>
              pure (found ++ more))
        (law.values w) := by
      intro n'' found hn' hfound
      refine law.conducts_bind
        (law.conducts_holding (ih (law.place_mono (Nat.le_trans hn hn') hs) hothers))
        fun _ more hn'' hmore => law.conducts_pure fun _ hn''' => ?_
      intro other hother
      rcases List.mem_append.mp hother with hother | hother
      · exact law.value_mono (Nat.le_trans hn'' hn''') (hfound other hother)
      · exact law.value_mono hn''' (hmore other hother)
    cases v with
    | array id =>
      refine law.conducts_act law.permits_heap fun n'' heap hn' ⟨hheap, hsize⟩ => ?_
      refine law.conducts_bind (law.conducts_pure fun n''' hn'' => ?_)
        fun n''' found hn'' hfound => hrest n''' found (Nat.le_trans hn' hn'') hfound
      intro element helement
      have hvalues := hheap.element id hv element (Array.mem_toList_iff.mp helement)
      rw [hsize] at hvalues
      exact law.value_mono hn'' hvalues
    | _ =>
      refine law.conducts_bind (law.conducts_pure fun n'' hn' => ?_) hrest
      intro other hother
      rw [List.mem_singleton.mp hother]
      exact law.value_mono hn' hv

/-- A value is written to a target. A target that cannot be written to is to blame for it. -/
lemma conducts_assign (hs : law.place n s) (hopens : law.opens s)
    {target : Expr} (hcode : law.Code target.targetNodes) (hv : law.value w n v) :
    law.Conducts levels s w w n (assignComposition target v : Composition Signal.maxRounds _)
      Any := by
  obtain ⟨hnode, hcode⟩ := law.code_cons.mp hcode
  intro m hscope hn hm hstack hstretch
  have hfail : ∀ token m', law.Governs w m' → law.Stack w m' →
      Raises c levels m (.write target v) (.ofToken token .invalidMemberTarget) →
      law.Outcome levels w (.atom (atomic_fail token .invalidMemberTarget rfl) :
        Composition Signal.maxRounds fun _ => (Run.fail token .invalidMemberTarget : Run Unit))
        m' Any := by
    intro token m' hm' hstack' hraises
    refine law.outcome_atom hm' hstack' (Nat.le_refl _) (fun _ _ => trivial) fun error herror _ => ?_
    cases herror
    exact .inr ⟨m, .write target v, levels, hnode, hstretch, hraises⟩
  cases target with
  | name token =>
    have hbind : law.Conducts levels s w w n
        (assignComposition (.name token) v : Composition Signal.maxRounds _) Any := by
      refine law.conducts_act law.permits_scope fun _ id hn' hid => ?_
      rw [hid]
      exact law.conducts_atom
        (law.permits_assign hopens (law.value_mono hn' hv) _ _)
    exact hbind m hscope hn hm hstack hstretch
  | member object property =>
    refine law.outcome_bind hstack hstretch
      (law.conducts_holding (law.conducts_eval hcalls hs object (law.code_cons.mp hcode).2) m
        hscope hn hm hstack) ?_
    intro o m' hrun hscope' hsize hgoverns hstack' ho hstretch'
    have hv' := law.value_mono (Nat.le_trans hn hsize) hv
    cases o with
    | scope id =>
      exact law.conducts_atom (law.permits_assignOwn (law.opens_of_handle ho) hv' _ _) m' rfl
        (Nat.le_refl _) hgoverns hstack' hstretch'
    | _ => exact hfail property m' hgoverns hstack' (.member hrun fun _ h => by cases h)
  | index object bracket key =>
    obtain ⟨hobject, hkey⟩ := law.code_append.mp (law.code_cons.mp hcode).2
    refine law.outcome_bind hstack hstretch
      (law.conducts_holding (law.conducts_eval hcalls hs object hobject) m hscope hn hm hstack) ?_
    intro o m' hrun hscope' hsize hgoverns hstack' ho hstretch'
    have hs' := law.place_mono (Nat.le_trans hn hsize) hs
    refine law.outcome_bind hstack' hstretch'
      (law.conducts_holding (law.conducts_eval hcalls hs' key hkey) m' (hscope'.trans hscope)
        (Nat.le_refl _) hgoverns hstack') ?_
    intro k m'' hrun' _ hsize' hgoverns' hstack'' _ hstretch''
    have hv' := law.value_mono (Nat.le_trans hn (Nat.le_trans hsize hsize')) hv
    have ho' := law.value_mono hsize' ho
    have hother : isWritable o k = false → law.Outcome levels w
        (.atom (atomic_fail bracket .invalidMemberTarget rfl) : Composition Signal.maxRounds
          fun _ => (Run.fail bracket .invalidMemberTarget : Run Unit)) m'' Any :=
      fun h => hfail bracket m'' hgoverns' hstack'' (.index hrun hrun' h)
    cases o with
    | array id =>
      cases k with
      | number index =>
        exact law.conducts_atom (law.permits_writeElement ho' hv' index bracket) m'' rfl
          (Nat.le_refl _) hgoverns' hstack'' hstretch''
      | _ => exact hother rfl
    | scope id =>
      cases k with
      | text name =>
        exact law.conducts_atom (law.permits_assignOwn (law.opens_of_handle ho') hv' _ _) m'' rfl
          (Nat.le_refl _) hgoverns' hstack'' hstretch''
      | _ => exact hother rfl
    | _ => exact hother rfl
  | _ => exact hfail _ m hm hstack (.other rfl)

lemma conducts_assignAll (hs : law.place n s) (hopens : law.opens s)
    {targets : List (Expr × Value)} (hcode : ∀ pair ∈ targets, law.Code pair.1.targetNodes)
    (hvalues : ∀ pair ∈ targets, law.value w n pair.2) :
    law.Conducts levels s w w n (assignAllComposition targets : Composition Signal.maxRounds _)
      Any := by
  induction targets generalizing n with
  | nil => exact law.conducts_pure fun _ _ => trivial
  | cons first others ih =>
    obtain ⟨htarget, hothers⟩ := List.forall_mem_cons.mp hcode
    obtain ⟨hv, hrest⟩ := List.forall_mem_cons.mp hvalues
    have hnext : ∀ n', n ≤ n' → law.Conducts levels s w w n'
        (assignAllComposition others : Composition Signal.maxRounds _) Any := fun n' hn =>
      ih (law.place_mono hn hs) hothers fun pair hpair => law.value_mono hn (hrest pair hpair)
    exact law.conducts_ite (hnext n (Nat.le_refl _))
      (law.conducts_bind (law.conducts_holding (law.conducts_assign hcalls hs hopens htarget hv))
        fun n' _ hn _ => hnext n' hn)

lemma conducts_printAll (hs : law.place n s) (token : Token)
    {values : List Expr} (hcode : law.Code (Expr.allNodes values)) :
    law.Conducts levels s w w n
      (printAllComposition token values : Composition Signal.maxRounds _) Any := by
  induction values generalizing n with
  | nil => exact law.conducts_pure fun _ _ => trivial
  | cons value others ih =>
    obtain ⟨hvalue, hothers⟩ := law.code_append.mp hcode
    refine law.conducts_bind (law.conducts_eval hcalls hs value hvalue) fun n₁ v hn₁ _ => ?_
    refine law.conducts_act (law.permits_text v) fun n₂ text hn₂ _ => ?_
    refine law.conducts_act (law.permits_print token text) fun n₃ _ hn₃ _ => ?_
    exact ih (law.place_mono (by omega) hs) hothers

lemma conducts_anyTruthy (hs : law.place n s)
    {conditions : List Expr} (hcode : law.Code (Expr.allNodes conditions)) :
    law.Conducts levels s w w n
      (anyTruthyComposition conditions : Composition Signal.maxRounds _) Any := by
  induction conditions generalizing n with
  | nil => exact law.conducts_pure fun _ _ => trivial
  | cons condition others ih =>
    obtain ⟨hcondition, hothers⟩ := law.code_append.mp hcode
    refine law.conducts_bind (law.conducts_eval hcalls hs condition hcondition)
      fun n' _ hn _ => ?_
    exact law.conducts_ite (law.conducts_pure fun _ _ => trivial)
      (ih (law.place_mono hn hs) hothers)

lemma conducts_result (hs : law.place n s) :
    (values : List Expr) → law.Code (Expr.allNodes values) → law.Conducts levels s w w n
      (resultComposition values : Composition Signal.maxRounds _) (law.value w)
  | [], _ => law.conducts_pure fun _ _ => trivial
  | [value], hcode => law.conducts_eval hcalls hs value (law.code_append.mp hcode).1
  | _ :: _ :: _, hcode =>
    law.conducts_bind (law.conducts_evalAll hcalls hs hcode) fun _ _ _ hfound =>
      law.conducts_act (law.permits_newArray hfound) fun _ _ _ hid =>
        law.conducts_pure fun _ _ => hid

end Expressions

section Loops

variable {levels : Nat} {s : ScopeId} {w : ω} {n limit : Nat} {test : Invocation → Run Value}
  {round : Invocation → Run Signal} {dtest : Composition limit test}
  {dround : Composition limit round}

lemma conducts_whileLoop (token : Token)
    (htest : ∀ n', n ≤ n' → law.Conducts levels s w w n' dtest Any)
    (hround : ∀ n', n ≤ n' → law.Conducts levels s w w n' dround (law.signal w))
    (rounds : Nat) (h : rounds ≤ limit) :
    law.Conducts levels s w w n (whileLoopComposition token dtest dround rounds h)
      (law.signal w) := by
  induction rounds generalizing n with
  | zero => exact law.conducts_giveUp
  | succ rounds ih =>
    refine law.conducts_bind (law.conducts_weaken h (htest n (Nat.le_refl _)))
      fun n' _ hn _ => ?_
    refine law.conducts_ite (law.conducts_step token ?_)
      (law.conducts_pure fun _ _ => trivial)
    refine law.conducts_bind (law.conducts_weaken (Nat.le_of_succ_le h) (hround n' hn))
      fun n'' signal hn' hsignal => ?_
    cases signal with
    | normal =>
      exact ih (fun n''' hn'' => htest n''' (by omega)) (fun n''' hn'' => hround n''' (by omega)) _
    | looped =>
      exact ih (fun n''' hn'' => htest n''' (by omega)) (fun n''' hn'' => hround n''' (by omega)) _
    | exited => exact law.conducts_pure fun _ _ => trivial
    | returned v => exact law.conducts_pure fun _ hn'' => law.value_mono hn'' hsignal

lemma conducts_doLoop (token : Token)
    (htest : ∀ n', n ≤ n' → law.Conducts levels s w w n' dtest Any)
    (hround : ∀ n', n ≤ n' → law.Conducts levels s w w n' dround (law.signal w))
    (rounds : Nat) (h : rounds ≤ limit) :
    law.Conducts levels s w w n (doLoopComposition token dtest dround rounds h)
      (law.signal w) := by
  induction rounds generalizing n with
  | zero => exact law.conducts_giveUp
  | succ rounds ih =>
    refine law.conducts_step token ?_
    refine law.conducts_bind (law.conducts_weaken (Nat.le_of_succ_le h) (hround n (Nat.le_refl _)))
      fun n' signal hn hsignal => ?_
    have hagain : law.Conducts levels s w w n'
        (.bind (.weaken (Nat.le_of_succ_le h) dtest) fun v =>
          .ite (p := v.isTruthy = true)
            (doLoopComposition token dtest dround rounds (Nat.le_of_succ_le h))
            (.atom (atomic_pure Signal.normal)) : Composition rounds fun invoke =>
              test invoke >>= fun v => if v.isTruthy = true then
                Run.doLoop token (test invoke) (round invoke) rounds else pure .normal)
        (law.signal w) := by
      refine law.conducts_bind (law.conducts_weaken _ (htest n' hn)) fun n'' _ hn' _ => ?_
      exact law.conducts_ite
        (ih (fun n''' hn'' => htest n''' (by omega)) (fun n''' hn'' => hround n''' (by omega)) _)
        (law.conducts_pure fun _ _ => trivial)
    cases signal with
    | normal => exact hagain
    | looped => exact hagain
    | exited => exact law.conducts_pure fun _ _ => trivial
    | returned v => exact law.conducts_pure fun _ hn' => law.value_mono hn' hsignal

lemma conducts_forLoop (hid : law.opens id) (hstands : law.stands w n id) (token counter : Token)
    (range : Run.Range)
    (hround : ∀ n', n ≤ n' → law.Conducts levels id w w n' dround (law.signal w)) (rounds : Nat)
    (h : rounds ≤ limit) (current : Float) :
    law.Conducts levels s w w n (forLoopComposition token counter id range dround rounds h current)
      (law.signal w) := by
  induction rounds generalizing n current with
  | zero => exact law.conducts_giveUp
  | succ rounds ih =>
    refine law.conducts_ite (law.conducts_pure fun _ _ => trivial)
      (law.conducts_step token ?_)
    refine law.conducts_bind (law.conducts_within hstands
      (law.conducts_weaken (Nat.le_of_succ_le h) (hround n (Nat.le_refl _))))
      fun n' signal hn hsignal => ?_
    have hagain : law.Conducts levels s w w n'
        (.bind (.atom (atomic_advance token counter id range)) fun next =>
          forLoopComposition token counter id range dround rounds (Nat.le_of_succ_le h) next :
            Composition rounds fun invoke => Run.advance token counter id range >>= fun next =>
              Run.forLoop token counter id range (round invoke) rounds next)
        (law.signal w) := by
      refine law.conducts_act (law.permits_advance hid token counter range) fun n'' next hn' _ => ?_
      exact ih (law.stands_mono (Nat.le_trans hn hn') hstands)
        (fun n''' hn'' => hround n''' (by omega)) _ next
    cases signal with
    | normal => exact hagain
    | looped => exact hagain
    | exited => exact law.conducts_pure fun _ _ => trivial
    | returned v => exact law.conducts_pure fun _ hn' => law.value_mono hn' hsignal

end Loops

section Statements

variable {levels : Nat} {s : ScopeId} {w : ω} {n : Nat}

lemma conducts_defineAll {rounds : Nat} (hid : law.opens id) {names : List (Token × Value)}
    (hvalues : ∀ pair ∈ names, law.value w n pair.2) :
    law.Conducts levels s w w n (defineAllComposition id names : Composition rounds _) Any := by
  induction names generalizing n with
  | nil => exact law.conducts_pure fun _ _ => trivial
  | cons first others ih =>
    obtain ⟨hv, hrest⟩ := List.forall_mem_cons.mp hvalues
    have hnext : ∀ n', n ≤ n' → law.Conducts levels s w w n'
        (defineAllComposition id others : Composition rounds _) Any := fun n' hn =>
      ih fun pair hpair => law.value_mono hn (hrest pair hpair)
    exact law.conducts_ite (hnext n (Nat.le_refl _))
      (law.conducts_act (law.permits_define hid hv _ _) fun n' _ hn _ => hnext n' hn)

variable (hcalls : law.Calls levels)

include hcalls

lemma conducts_declareAll (hs : law.place n s) (hid : law.opens id) :
    (declarators : List Declarator) →
      law.Code (Declarator.allNodes declarators) → law.Conducts levels s w w n
        (declareAllComposition id declarators : Composition Signal.maxRounds _) Any := by
  intro declarators hcode
  induction declarators generalizing n with
  | nil => exact law.conducts_pure fun _ _ => trivial
  | cons first others ih =>
    obtain ⟨name, type, initializer⟩ := first
    obtain ⟨hinitializer, hothers⟩ := law.code_append.mp hcode
    have hdefine : ∀ n' v, n ≤ n' → law.value w n' v → law.Conducts levels s w w n'
        (.bind (.atom (atomic_define id name v .variable)) fun _ =>
          declareAllComposition id others : Composition Signal.maxRounds fun invoke =>
            Run.define id name v .variable >>= fun _ => Declarator.declareAll invoke id others)
        Any := by
      intro n' v hn hv
      refine law.conducts_act (law.permits_define hid hv _ _) fun n'' _ hn' _ => ?_
      exact ih (law.place_mono (Nat.le_trans hn hn') hs) hothers
    cases initializer with
    | none =>
      refine law.conducts_bind (law.conducts_pure fun _ _ => ?_) hdefine
      unfold Declarator.initialValue
      split <;> trivial
    | some initializer =>
      exact law.conducts_bind (law.conducts_eval hcalls hs initializer hinitializer) hdefine

omit hcalls in
lemma conducts_nested (hs : law.place n s) (body : List Stmt) {action : Invocation → Run Signal}
    {d : Composition Signal.maxRounds action}
    (hd : ∀ {s : ScopeId} {w : ω} {n : Nat}, law.place n s → law.opens s →
      law.Conducts levels s w w n d (law.signal w)) :
    law.Conducts levels s w w n (nestedComposition body d) (law.signal w) := by
  refine law.conducts_ite (law.conducts_pure fun _ _ => trivial) ?_
  refine law.conducts_act law.permits_scope fun n' around hn haround => ?_
  rw [haround]
  refine law.conducts_newScope (law.place_mono hn hs) fun id _ hplace hopens hstands => ?_
  exact law.conducts_leave (law.conducts_within hstands (hd hplace hopens)) fun _ _ h =>
    law.signal_shrink h

lemma conducts_countingLoop (hs : law.place n s)
    (token counter : Token) {start finish : Expr} {step : Option Expr}
    (hstart : law.Code start.nodes) (hfinish : law.Code finish.nodes)
    (hstep : law.Code (Expr.optionNodes step)) {round : Invocation → Run Signal}
    {dround : Composition Signal.maxRounds round}
    (hround : ∀ {s : ScopeId} {w : ω} {n : Nat}, law.place n s → law.opens s →
      law.Conducts levels s w w n dround (law.signal w)) :
    law.Conducts levels s w w n (countingLoopComposition token counter start finish step dround)
      (law.signal w) := by
  refine law.conducts_act law.permits_scope fun n₁ around hn₁ haround => ?_
  rw [haround]
  refine law.conducts_newScope (law.place_mono hn₁ hs) fun id hid hplace hopens hstands => ?_
  refine law.conducts_leave ?_ fun _ _ (h : law.signal (law.grow w id) _ _) => law.signal_shrink h
  have hloop : ∀ n' current finish increment, id + 1 ≤ n' →
      law.Conducts levels s (law.grow w id) (law.grow w id) n'
        (.ite (p := (increment == 0) = true) (.atom (atomic_fail token .zeroStep rfl))
          (forLoopComposition token counter id ⟨finish, increment⟩ dround Signal.maxRounds
            (Nat.le_refl _) current))
        (law.signal (law.grow w id)) := by
    intro n' current finish increment hn'
    refine law.conducts_ite (law.conducts_atom (law.permits_fail rfl)) ?_
    refine law.conducts_forLoop hopens (law.stands_mono hn' hstands) token counter _ ?_ _ _ _
    exact fun n'' hn'' => hround (law.place_mono (Nat.le_trans hn' hn'') hplace) hopens
  have hpure : ∀ n' (increment : Float), law.Conducts levels s (law.grow w id) (law.grow w id) n'
      (.atom (atomic_pure increment) : Composition Signal.maxRounds fun _ => pure increment) Any :=
    fun _ _ => law.conducts_pure fun _ _ => trivial
  have hstop : ∀ n', law.Conducts levels s (law.grow w id) (law.grow w id) n'
      (.atom (atomic_fail token .stepType rfl) : Composition Signal.maxRounds fun _ =>
        (Run.fail token .stepType : Run Float)) Any :=
    fun _ => law.conducts_atom (law.permits_fail rfl)
  have hfail : ∀ n', law.Conducts levels s (law.grow w id) (law.grow w id) n'
      (.atom (atomic_fail token .forBounds rfl) : Composition Signal.maxRounds _)
      (law.signal (law.grow w id)) := fun _ => law.conducts_atom (law.permits_fail rfl)
  refine law.conducts_bind
    (law.conducts_eval hcalls (law.place_mono (by omega) hs) start hstart) fun n₂ first hn₂ hfirst => ?_
  refine law.conducts_act (law.permits_define hopens hfirst _ _) fun n₃ _ hn₃ _ => ?_
  refine law.conducts_bind (law.conducts_holding
    (law.conducts_eval hcalls (law.place_mono (by omega) hs) finish hfinish)) fun n₄ last hn₄ _ => ?_
  cases first with
  | number current =>
    cases last with
    | number finish =>
      cases step with
      | none =>
        exact law.conducts_bind (hpure n₄ 1) fun n₅ increment hn₅ _ =>
          hloop n₅ current finish increment (by omega)
      | some step =>
        refine law.conducts_bind (law.conducts_holding
          (law.conducts_eval hcalls (law.place_mono (by omega) hs) step hstep))
          fun n₅ value hn₅ _ => ?_
        cases value with
        | number increment =>
          exact law.conducts_bind (hpure n₅ increment) fun n₆ increment hn₆ _ =>
            hloop n₆ current finish increment (by omega)
        | _ =>
          exact law.conducts_bind (hstop n₅) fun n₆ increment hn₆ _ =>
            hloop n₆ current finish increment (by omega)
    | _ => exact hfail n₄
  | _ => exact hfail n₄

omit hcalls in
lemma conducts_normal {α : Type} {post : Nat → α → Prop} {x : Invocation → Run α}
    {d : Composition Signal.maxRounds x} (hd : law.Conducts levels s w w n d post) :
    law.Conducts levels s w w n (.bind d fun _ => .atom (atomic_pure Signal.normal) :
      Composition Signal.maxRounds fun invoke => x invoke >>= fun _ => pure .normal)
      (law.signal w) :=
  law.conducts_bind hd fun _ _ _ _ => law.conducts_pure fun _ _ => trivial

omit hcalls in
lemma code_target {targets : List Expr} (hcode : law.Code (Expr.allTargetNodes targets)) :
    ∀ target ∈ targets, law.Code target.targetNodes := by
  induction targets with
  | nil =>
    intro target htarget
    cases htarget
  | cons first others ih =>
    obtain ⟨hfirst, hothers⟩ := law.code_append.mp hcode
    intro target htarget
    rcases List.mem_cons.mp htarget with rfl | htarget
    · exact hfirst
    · exact ih hothers target htarget

/-- An update. Its operator is to blame if it does not apply. -/
lemma conducts_update (hs : law.place n s) (hopens : law.opens s)
    {target value : Expr} (hcode : law.Code (Stmt.update operator target value).nodes) :
    law.Conducts levels s w w n (execComposition (.update operator target value))
      (law.signal w) := by
  obtain ⟨hnode, hparts⟩ := law.code_cons.mp hcode
  obtain ⟨htarget, hvalue⟩ := law.code_append.mp hparts
  intro m hscope hn hm hstack hstretch
  refine law.outcome_counted _ hm hstack hstretch fun hm₀ hstretch₀ => ?_
  refine law.outcome_bind hstack hstretch₀
    (law.conducts_eval hcalls hs value hvalue _ hscope hn hm₀ hstack) ?_
  intro r m₁ hr hscope₁ hsize₁ hm₁ hstack₁ _ hstretch₁
  have hn₁ := Nat.le_trans hn hsize₁
  refine law.outcome_bind hstack₁ hstretch₁ (law.conducts_holding
    (law.conducts_eval hcalls hs target (law.code_cons.mp htarget).2) m₁
    (hscope₁.trans hscope) hn₁ hm₁ hstack₁) ?_
  intro l m₂ hl hscope₂ hsize₂ hm₂ hstack₂ _ hstretch₂
  have hheap : law.Conducts levels m₂.scope w w 0
      (.atom atomic_heap : Composition Signal.maxRounds fun _ => Run.heap) Any :=
    law.conducts_atom (law.permits_weaken law.permits_heap fun _ _ _ _ => trivial)
  refine law.outcome_bind hstack₂ hstretch₂ (hheap m₂ rfl (Nat.zero_le _) hm₂ hstack₂) ?_
  intro heap m₃ hrun _ _ _ _ _ hstretch₃
  cases hrun
  have hlift : law.Outcome levels w
      (.atom (atomic_lift operator _ (harmless_binary _ _ _ _)) : Composition Signal.maxRounds
        fun _ => Run.lift operator (m₂.heap.binary operator.category l r)) m₂ (law.value w) := by
    refine law.outcome_lift hm₂ hstack₂ (fun _ hv => law.value_binary hv) fun fault hfault => ?_
    exact .inr ⟨m, .execute (.update operator target value), levels, hnode, hstretch,
      .update hr hl hfault⟩
  refine law.outcome_bind hstack₂ hstretch₃ (fun _ => hlift) ?_
  intro v m₄ _ hscope₄ hsize₄ hm₄ hstack₄ hv hstretch₄
  have hn₄ : n ≤ m₄.heap.scopes.size := Nat.le_trans hn₁ (Nat.le_trans hsize₂ hsize₄)
  have hassign := law.conducts_assign (w := w) hcalls (law.place_mono hn₄ hs) hopens htarget hv
  exact law.conducts_normal (law.conducts_holding hassign) m₄
    (hscope₄.trans (hscope₂.trans (hscope₁.trans hscope))) (Nat.le_refl _) hm₄ hstack₄ hstretch₄

omit hcalls

mutual

/-- The execution of a statement. A compound one binds nothing in the scope that it runs in. -/
lemma conducts_exec (hcalls : law.Calls levels) {s : ScopeId} {w : ω} {n : Nat}
    (hs : law.place n s) : (statement : Stmt) → (isCompound statement = false → law.opens s) →
      law.Code statement.nodes →
      law.Conducts levels s w w n (execComposition statement) (law.signal w)
  | .expression value, hopens, hcode =>
    law.conducts_counted _
      (law.conducts_normal (law.conducts_eval hcalls hs value (law.code_cons.mp hcode).2))
  | .print token values, hopens, hcode =>
    law.conducts_counted _
      (law.conducts_normal (law.conducts_printAll hcalls hs token (law.code_cons.mp hcode).2))
  | .giveBack token values, hopens, hcode =>
    law.conducts_counted _ (law.conducts_bind
      (law.conducts_result hcalls hs values (law.code_cons.mp hcode).2) fun _ _ _ hv =>
        law.conducts_pure fun _ hn => law.value_mono hn hv)
  | .declare token extent declarators, hopens, hcode => by
    refine law.conducts_counted _ (law.conducts_act (law.permits_target (hopens rfl) extent)
      fun n' id hn hid => ?_)
    exact law.conducts_normal (law.conducts_declareAll hcalls (law.place_mono hn hs) hid declarators
      (law.code_cons.mp hcode).2)
  | .destructure token extent names values, hopens, hcode => by
    refine law.conducts_counted _ (law.conducts_act (law.permits_target (hopens rfl) extent)
      fun n₁ id hn₁ hid => ?_)
    refine law.conducts_bind (law.conducts_evalSpread hcalls (law.place_mono hn₁ hs)
      (law.code_cons.mp hcode).2) fun n₂ found hn₂ hfound => ?_
    refine law.conducts_act (law.permits_checkCounts token _ _) fun n₃ _ hn₃ _ => ?_
    refine law.conducts_normal (law.conducts_defineAll hid fun pair hpair => ?_)
    exact law.value_mono hn₃ (hfound _ (List.of_mem_zip hpair).2)
  | .branch token condition consequence alternative, _, hcode => by
    obtain ⟨hcondition, hbranches⟩ := law.code_append.mp (law.code_cons.mp hcode).2
    obtain ⟨hconsequence, halternative⟩ := law.code_append.mp hbranches
    refine law.conducts_counted _ (law.conducts_bind
      (law.conducts_eval hcalls hs condition hcondition) fun n' _ hn _ => ?_)
    have hs' := law.place_mono hn hs
    exact law.conducts_ite
      (law.conducts_nested hs' _ fun hs hopens =>
        conducts_execAll hcalls hs hopens consequence hconsequence)
      (law.conducts_nested hs' _ fun hs hopens =>
        conducts_execAll hcalls hs hopens alternative halternative)
  | .choose token branches otherwise, _, hcode => by
    obtain ⟨hbranches, hotherwise⟩ := law.code_append.mp (law.code_cons.mp hcode).2
    exact law.conducts_counted _ (conducts_execCases hcalls hs branches hbranches fun hs =>
      conducts_execOtherwise hcalls hs otherwise hotherwise)
  | .whileLoop token condition body, _, hcode => by
    obtain ⟨hcondition, hbody⟩ := law.code_append.mp (law.code_cons.mp hcode).2
    refine law.conducts_counted _ (law.conducts_whileLoop token (fun n' hn => ?_) (fun n' hn => ?_)
      _ _)
    · exact law.conducts_post (law.conducts_eval hcalls (law.place_mono hn hs) condition hcondition)
        fun _ _ _ => trivial
    · exact law.conducts_nested (law.place_mono hn hs) _ fun hs hopens =>
        conducts_execAll hcalls hs hopens body hbody
  | .doLoop token body condition, _, hcode => by
    obtain ⟨hcondition, hbody⟩ := law.code_append.mp (law.code_cons.mp hcode).2
    refine law.conducts_counted _ (law.conducts_doLoop token (fun n' hn => ?_) (fun n' hn => ?_)
      _ _)
    · exact law.conducts_post (law.conducts_eval hcalls (law.place_mono hn hs) condition hcondition)
        fun _ _ _ => trivial
    · exact law.conducts_nested (law.place_mono hn hs) _ fun hs hopens =>
        conducts_execAll hcalls hs hopens body hbody
  | .forLoop token counter start finish step body, _, hcode => by
    obtain ⟨hstart, hcode⟩ := law.code_append.mp (law.code_cons.mp hcode).2
    obtain ⟨hfinish, hcode⟩ := law.code_append.mp hcode
    obtain ⟨hstep, hbody⟩ := law.code_append.mp hcode
    exact law.conducts_counted _ (law.conducts_countingLoop hcalls hs token counter hstart hfinish
      hstep fun hs hopens => conducts_execAll hcalls hs hopens body hbody)
  | .exit token, hopens, _ => law.conducts_counted _ (law.conducts_pure fun _ _ => trivial)
  | .loop token, hopens, _ => law.conducts_counted _ (law.conducts_pure fun _ _ => trivial)
  | .function declaration, hopens, hcode => by
    refine law.conducts_counted _ (law.conducts_act law.permits_scope fun n₁ id hn₁ hid => ?_)
    rw [hid]
    refine law.conducts_bind (law.conducts_atom
      (law.permits_newFunction (law.place_mono hn₁ hs) (law.code_cons.mp hcode).2))
      fun n₂ function hn₂ hfunction => ?_
    have hvalue : law.value w n₂ (.function function) := hfunction
    exact law.conducts_normal
      (law.conducts_atom (law.permits_define (hopens rfl) hvalue _ _))
  | .classDef declaration, hopens, _ => by
    refine law.conducts_counted _ (law.conducts_act
      (law.permits_superclass (law.knows_of_place hs) declaration)
      fun _ superclass _ _ => ?_)
    refine law.conducts_act law.permits_scope fun _ id _ hid => ?_
    rw [hid]
    refine law.conducts_act (law.permits_newClass _) fun n' cell _ _ => ?_
    have hvalue : law.value w n' (.classRef cell) := trivial
    exact law.conducts_normal
      (law.conducts_atom (law.permits_define (hopens rfl) hvalue _ _))
  | .const token name value, hopens, hcode => by
    refine law.conducts_counted _ (law.conducts_bind
      (law.conducts_eval hcalls hs value (law.code_cons.mp hcode).2) fun n₁ v hn₁ hv => ?_)
    refine law.conducts_act law.permits_scope fun n₂ id hn₂ hid => ?_
    rw [hid]
    refine law.conducts_act law.permits_heap fun n₃ heap hn₃ _ => ?_
    have hvalue := law.value_mono (Nat.le_trans hn₂ hn₃) hv
    exact law.conducts_ite (law.conducts_atom (law.permits_fail rfl)) (law.conducts_normal
      (law.conducts_atom (law.permits_define (hopens rfl) hvalue _ _)))
  | .module token name body, hopens, hcode => by
    obtain ⟨hnode, hbody⟩ := law.code_cons.mp hcode
    intro m hscope hn hm hstack hstretch
    -- Nothing before it makes a scope, so the new one is the next of the starting heap.
    have hhandle := law.handle_module hm.keep hnode hstretch
    refine law.outcome_counted _ hm hstack hstretch fun hm₀ hstretch₀ => ?_
    refine law.outcome_bind hstack hstretch₀
      (law.conducts_atom (law.permits_record _ _) _ rfl (Nat.le_refl _) hm₀ hstack) ?_
    intro _ m₁ hrecord _ _ hm₁ hstack₁ _ hstretch₁
    cases hrecord
    refine law.outcome_bind hstack₁ hstretch₁
      (law.conducts_atom law.permits_scope _ rfl (Nat.le_refl _) hm₁ hstack₁) ?_
    intro around m₂ haround _ _ hm₂ hstack₂ _ hstretch₂
    cases haround
    have hplace : law.place m.heap.scopes.size m.scope := hscope ▸ law.place_mono hn hs
    have hopens' : law.opens m.scope := hscope ▸ hopens rfl
    refine law.outcome_newScope hm₂ hstack₂ hplace hstretch₂ ?_
    refine law.conducts_bind (law.conducts_leave (law.conducts_within
      (law.stands_new hm.keep hplace)
      (law.conducts_yields (conducts_execAll hcalls (law.place_new hm.keep hplace)
        (law.opens_new hm.keep hplace) body hbody) (execAll_yields _ body)))
      fun _ _ h => And.imp_left law.signal_shrink h) fun n' signal hn' ⟨_, hstays⟩ => ?_
    have hconfines : law.Confines body := .inr ⟨_, hnode, List.mem_singleton_self body⟩
    have hdefine : law.Conducts levels m.scope w w n'
        (.bind (.atom (atomic_define m.scope name (.scope m.heap.scopes.size) .constant))
          fun _ => .atom (atomic_pure Signal.normal) : Composition Signal.maxRounds fun _ =>
            Run.define m.scope name (.scope m.heap.scopes.size) .constant >>= fun _ =>
              pure .normal)
        (law.signal w) := by
      have hvalue : law.value w n' (.scope m.heap.scopes.size) := law.handle_mono hn' hhandle
      exact law.conducts_normal
        (law.conducts_atom (law.permits_define hopens' hvalue _ _))
    cases signal with
    | normal => exact hdefine
    | returned v => exact hdefine
    | looped => exact law.conducts_stray hconfines (hstays .loop rfl) (by decide) rfl
    | exited => exact law.conducts_stray hconfines (hstays .exit rfl) (by decide) rfl
  | .release token targets, hopens, _ =>
    law.conducts_counted _
      (law.conducts_normal (law.conducts_release (law.knows_of_place hs) targets))
  | .defer token body, hopens, _ =>
    law.conducts_counted _ (law.conducts_normal (law.conducts_atom (law.permits_record _ _)))
  | .assign operator target value, hopens, hcode => by
    obtain ⟨htarget, hvalue⟩ := law.code_append.mp (law.code_cons.mp hcode).2
    refine law.conducts_counted _ (law.conducts_bind (law.conducts_eval hcalls hs value hvalue)
      fun n' v hn hv => ?_)
    exact law.conducts_normal (law.conducts_assign hcalls (law.place_mono hn hs) (hopens rfl) htarget
      hv)
  | .update operator target value, hopens, hcode => law.conducts_update hcalls hs (hopens rfl) hcode
  | .assignAll token targets values, hopens, hcode => by
    obtain ⟨htargets, hvalues⟩ := law.code_append.mp (law.code_cons.mp hcode).2
    refine law.conducts_counted _ (law.conducts_bind (law.conducts_evalSpread hcalls hs hvalues)
      fun n₁ found hn₁ hfound => ?_)
    refine law.conducts_act (law.permits_checkCounts token _ _) fun n₂ _ hn₂ _ => ?_
    have hs' := law.place_mono (Nat.le_trans hn₁ hn₂) hs
    refine law.conducts_normal (law.conducts_assignAll hcalls hs' (hopens rfl) (fun pair hpair => ?_)
      fun pair hpair => ?_)
    · exact law.code_target htargets _ (List.of_mem_zip hpair).1
    · exact law.value_mono hn₂ (hfound _ (List.of_mem_zip hpair).2)

lemma conducts_execAll (hcalls : law.Calls levels) {s : ScopeId} {w : ω} {n : Nat}
    (hs : law.place n s) (hopens : law.opens s) : (body : List Stmt) → law.Code (Stmt.allNodes body) →
      law.Conducts levels s w w n (execAllComposition body) (law.signal w)
  | [], _ => law.conducts_pure fun _ _ => trivial
  | statement :: others, hcode => by
    obtain ⟨hstatement, hothers⟩ := law.code_append.mp hcode
    refine law.conducts_bind (conducts_exec hcalls hs statement (fun _ => hopens) hstatement)
      fun n' signal hn hsignal => ?_
    cases signal with
    | normal => exact conducts_execAll hcalls (law.place_mono hn hs) hopens others hothers
    | returned v => exact law.conducts_pure fun _ hn' => law.value_mono hn' hsignal
    | looped => exact law.conducts_pure fun _ _ => trivial
    | exited => exact law.conducts_pure fun _ _ => trivial

lemma conducts_execCases (hcalls : law.Calls levels) {s : ScopeId} {w : ω} {n : Nat}
    (hs : law.place n s) : (branches : List (CaseBranch Stmt)) →
      law.Code (Stmt.branchNodes branches) → {otherwise : Invocation → Run Signal} →
      {d : Composition Signal.maxRounds otherwise} →
      (∀ {s : ScopeId} {w : ω} {n : Nat}, law.place n s →
        law.Conducts levels s w w n d (law.signal w)) →
      law.Conducts levels s w w n (execCasesComposition branches d) (law.signal w)
  | [], _, _, _, hd => hd hs
  | ⟨conditions, body⟩ :: others, hcode, _, _, hd => by
    obtain ⟨hconditions, hcode⟩ := law.code_append.mp hcode
    obtain ⟨hbody, hothers⟩ := law.code_append.mp hcode
    refine law.conducts_bind (law.conducts_anyTruthy hcalls hs hconditions) fun n' _ hn _ => ?_
    have hs' := law.place_mono hn hs
    exact law.conducts_ite
      (law.conducts_nested hs' _ fun hs hopens => conducts_execAll hcalls hs hopens body hbody)
      (conducts_execCases hcalls hs' others hothers hd)

lemma conducts_execOtherwise (hcalls : law.Calls levels) {s : ScopeId} {w : ω} {n : Nat}
    (hs : law.place n s) : (otherwise : Option (List Stmt)) →
      law.Code (Stmt.otherwiseNodes otherwise) →
      law.Conducts levels s w w n (execOtherwiseComposition otherwise) (law.signal w)
  | none, _ => law.conducts_pure fun _ _ => trivial
  | some body, hcode =>
    law.conducts_nested hs _ fun hs hopens => conducts_execAll hcalls hs hopens body hcode

end

end Statements

section Calls

variable {levels : Nat} {s : ScopeId} {w : ω} {n : Nat}

lemma conducts_bindArguments {rounds : Nat} (hid : law.opens id) (parameters : List Parameter)
    (position : Nat) (hgiven : law.given w n arguments) :
    law.Conducts levels s w w n
      (bindArgumentsComposition id parameters position arguments : Composition rounds _) Any := by
  induction arguments generalizing n position with
  | nil => exact law.conducts_pure fun _ _ => trivial
  | cons argument others ih =>
    obtain ⟨hfirst, hothers⟩ := List.forall_mem_cons.mp hgiven
    refine law.conducts_act (law.permits_addressed parameters position argument)
      fun n' parameter hn _ => ?_
    cases parameter with
    | none => exact ih _ (law.given_mono hn hothers)
    | some parameter =>
      refine law.conducts_bind (law.conducts_atom
        (law.permits_assignOwn hid (law.value_mono hn hfirst) _ _)) fun n'' _ hn' _ => ?_
      exact ih _ (law.given_mono (Nat.le_trans hn hn') hothers)

lemma conducts_bindDefaults (hcalls : law.Calls levels) (hid : law.place n id)
    (hopens : law.opens id) (hstands : law.stands w n id) : (parameters : List Parameter) →
      law.Code (Parameter.allNodes parameters) → law.Conducts levels s w w n
        (bindDefaultsComposition id parameters : Composition Signal.maxRounds _) Any := by
  intro parameters hcode
  induction parameters generalizing n with
  | nil => exact law.conducts_pure fun _ _ => trivial
  | cons first others ih =>
    obtain ⟨name, otherName, default⟩ := first
    obtain ⟨hdefault, hothers⟩ := law.code_append.mp hcode
    have hdefine : ∀ n' v, n ≤ n' → law.value w n' v → law.Conducts levels s w w n'
        (.bind (.atom (atomic_define id name v .variable)) fun _ =>
          bindDefaultsComposition id others : Composition Signal.maxRounds fun invoke =>
            Run.define id name v .variable >>= fun _ => Run.bindDefaults invoke id others)
        Any := by
      intro n' v hn hv
      refine law.conducts_act (law.permits_define hopens hv _ _) fun n'' _ hn' _ => ?_
      have hn'' := Nat.le_trans hn hn'
      exact ih (law.place_mono hn'' hid) (law.stands_mono hn'' hstands) hothers
    cases default with
    | none => exact law.conducts_bind (law.conducts_pure fun _ _ => trivial) hdefine
    | some default =>
      exact law.conducts_bind
        (law.conducts_within hstands (law.conducts_eval hcalls hid default hdefault)) hdefine

lemma conducts_runDefers (hcalls : law.Calls levels) (token : Token) (hid : law.place n id)
    (hopens : law.opens id) (hstands : law.stands w n id) {blocks : List (List Stmt)}
    (hcode : ∀ block ∈ blocks, law.Confines block ∧ law.Code (Stmt.allNodes block)) :
    law.Conducts levels s w w n (runDefersComposition token id blocks) Any := by
  induction blocks generalizing n with
  | nil => exact law.conducts_pure fun _ _ => trivial
  | cons block others ih =>
    obtain ⟨⟨hconfines, hblock⟩, hothers⟩ := List.forall_mem_cons.mp hcode
    refine law.conducts_bind (law.conducts_within hstands (law.conducts_yields
      (law.conducts_execAll hcalls hid hopens block hblock) (execAll_yields _ block)))
      fun n' signal hn ⟨_, hstays⟩ => ?_
    have hnext := ih (law.place_mono hn hid) (law.stands_mono hn hstands) hothers
    cases signal with
    | normal => exact hnext
    | returned v => exact hnext
    | looped => exact law.conducts_stray hconfines (hstays .loop rfl) (by decide) rfl
    | exited => exact law.conducts_stray hconfines (hstays .exit rfl) (by decide) rfl

lemma code_block {blocks : List (List Stmt)} (hcode : law.Code (Stmt.blockNodes blocks)) :
    ∀ block ∈ blocks, law.Code (Stmt.allNodes block) := by
  induction blocks with
  | nil =>
    intro block hblock
    cases hblock
  | cons first others ih =>
    obtain ⟨hfirst, hothers⟩ := law.code_append.mp hcode
    intro block hblock
    rcases List.mem_cons.mp hblock with rfl | hblock
    · exact hfirst
    · exact ih hothers block hblock

/-- The body of a call, which runs in the scope that the function has captured and not in that of
its caller. -/
lemma conducts_enter (hcalls : law.Calls levels) {closure : Closure}
    (hplace : law.place n closure.scope) (hcode : law.Code (Stmt.functionNodes closure.declaration))
    (site : CallSite) (hgiven : law.given w n arguments) :
    law.Conducts levels s w w n (enterComposition closure site arguments) (law.value w) := by
  obtain ⟨⟨token, name, parameters, body, defers⟩, captured⟩ := closure
  obtain ⟨hnode, hcode⟩ := law.code_cons.mp hcode
  obtain ⟨hparameters, hcode⟩ := law.code_append.mp hcode
  obtain ⟨hbody, hdefers⟩ := law.code_append.mp hcode
  have hconfines : law.Confines body := .inr ⟨_, hnode, List.mem_cons_self⟩
  intro m hscope hn hm hstack hstretch
  have hplace' := law.place_mono hn hplace
  have hnew := law.place_new hm.keep hplace'
  have hopens := law.opens_new hm.keep hplace'
  have hstands := law.stands_new hm.keep hplace'
  have hgiven' : law.given (law.grow w m.heap.scopes.size) (m.heap.scopes.size + 1) arguments :=
    fun argument hargument => law.value_grow (law.value_mono hn (hgiven argument hargument))
  refine law.outcome_newScope hm hstack hplace' hstretch ?_
  refine law.conducts_leave ?_ fun _ _ (h : law.value (law.grow w m.heap.scopes.size) _ _) =>
    law.value_shrink h
  refine law.conducts_bind (law.conducts_bind (law.conducts_holding
    (law.conducts_bindDefaults hcalls hnew hopens hstands parameters hparameters)) fun n₁ _ hn₁ _ =>
      law.conducts_bindArguments hopens _ _ (law.given_mono hn₁ hgiven'))
    fun n₂ _ hn₂ _ => ?_
  have hnew₂ := law.place_mono hn₂ hnew
  have hstands₂ := law.stands_mono hn₂ hstands
  refine law.conducts_bind (law.conducts_within hstands₂ (law.conducts_yields
    (law.conducts_execAll hcalls hnew₂ hopens body hbody) (execAll_yields _ body)))
    fun n₃ signal hn₃ ⟨hsignal, hstays⟩ => ?_
  cases signal with
  | normal => exact law.conducts_pure fun _ _ => trivial
  | looped => exact law.conducts_stray hconfines (hstays .loop rfl) (by decide) rfl
  | exited => exact law.conducts_stray hconfines (hstays .exit rfl) (by decide) rfl
  | returned v =>
    have hblocks : ∀ block ∈ defers.reverse,
        law.Confines block ∧ law.Code (Stmt.allNodes block) := by
      intro block hblock
      have hmem := List.mem_reverse.mp hblock
      exact ⟨.inr ⟨_, hnode, List.mem_cons_of_mem _ hmem⟩, law.code_block hdefers block hmem⟩
    refine law.conducts_bind (law.conducts_holding (law.conducts_runDefers hcalls site.token
      (law.place_mono hn₃ hnew₂) hopens (law.stands_mono hn₃ hstands₂) hblocks)) fun n₄ _ hn₄ _ => ?_
    exact law.conducts_pure fun _ hn => law.value_mono (Nat.le_trans hn₄ hn) hsignal

lemma callTrace_eq (levels : Nat) :
    callTrace levels = callMoments (below levels) (belowTrace levels) := by
  cases levels <;> rfl

lemma governs_recorded (hm : law.Governs w m) (closure : Closure) (arguments : List ArgumentValue) :
    law.Governs w (recorded closure arguments m) :=
  ⟨hm.heap, hm.keep, hm.home, hm.session⟩

/-- What the calls in a function keep, a call of the function keeps. -/
lemma outcome_call (hcalls : law.Calls levels) {id : FunctionId}
    (hclosure : ∀ closure, m.heap.functions[id]? = some closure →
      law.place m.heap.scopes.size closure.scope ∧
      law.Code (Stmt.functionNodes closure.declaration)) (site : CallSite)
    (hgiven : law.given w m.heap.scopes.size arguments) (hm : law.Governs w m)
    (hstack : law.Stack w m)
    (hstretch : law.stretch m ((.call id site arguments :
      Composition Signal.maxRounds _).moments (levels + 1) c m)) :
    law.Outcome (levels + 1) w (.call id site arguments : Composition Signal.maxRounds _) m
      (law.value w) := by
  have hrun : below (levels + 1) id site arguments c m =
      Run.callFunction (below levels) id site arguments c m := by
    change Run.invoke levels id site arguments c m = _
    rw [invoke_eq]
  have hmoments : (Composition.call id site arguments : Composition Signal.maxRounds _).moments
      (levels + 1) c m = callMoments (below levels) (belowTrace levels) id site arguments c m := by
    change callTrace levels id site arguments c m = _
    rw [callTrace_eq]
  rw [hmoments] at hstretch
  suffices hout : law.Governs w (Run.callFunction (below levels) id site arguments c m).2 ∧
      (∀ v, (Run.callFunction (below levels) id site arguments c m).1 = .ok v →
        law.value w (Run.callFunction (below levels) id site arguments c m).2.heap.scopes.size v) ∧
      (∀ moment ∈ callMoments (below levels) (belowTrace levels) id site arguments c m,
        law.Lawful moment.machine) ∧
      ∀ error, (Run.callFunction (below levels) id site arguments c m).1 =
        .error (.failure error) → isCaused error.fault = true → law.Blamed error by
    obtain ⟨hgoverns, hresult, hlawful, hblame⟩ := hout
    exact ⟨hrun ▸ hgoverns, hrun ▸ hresult, hmoments ▸ hlawful, hrun ▸ hblame⟩
  cases hfound : m.heap.functions[id]? with
  | none =>
    rw [callFunction_none hfound]
    simp only [callMoments, hfound]
    refine ⟨hm, fun v hv => ?_, fun moment hmoment => ?_, fun error herror => ?_⟩
    · cases hv
      trivial
    · cases hmoment
    · cases herror
  | some closure =>
    have hrecorded := law.governs_recorded hm closure arguments
    by_cases hdepth : c.limits.maxDepth ≤ m.depth
    · rw [callFunction_refused hfound hdepth]
      simp only [callMoments, hfound, if_pos hdepth]
      refine ⟨hrecorded, fun v hv => ?_, fun moment hmoment => ?_, fun error herror htype => ?_⟩
      · cases hv
      · rw [List.mem_singleton.mp hmoment]
        exact ⟨w, hrecorded, hstack⟩
      · cases herror
        cases htype
    · obtain ⟨hplace, hcode⟩ := hclosure closure hfound
      have hinside : law.Governs w { recorded closure arguments m with depth := m.depth + 1 } :=
        ⟨hm.heap, hm.keep, hm.home, hm.session⟩
      simp only [callMoments, hfound, if_neg hdepth] at hstretch ⊢
      have hentered := (law.stretch_append (s := [_, _]) hstretch).2
      have hout := law.conducts_enter hcalls hplace hcode site hgiven
        { recorded closure arguments m with depth := m.depth + 1 } rfl (Nat.le_refl _) hinside hstack
        (law.stretch_append hentered).1
      have hreturned :
          law.Governs w (Run.callFunction (below levels) id site arguments c m).2 := by
        rw [callFunction_entered hfound (Nat.lt_of_not_le hdepth)]
        exact ⟨hout.governs.heap, hout.governs.keep, hout.governs.home, hout.governs.session⟩
      refine ⟨hreturned, ?_, fun moment hmoment => ?_, ?_⟩
      · rw [callFunction_entered hfound (Nat.lt_of_not_le hdepth)]
        exact hout.result
      · rcases List.mem_cons.mp hmoment with rfl | hmoment
        · exact ⟨w, hrecorded, hstack⟩
        rcases List.mem_cons.mp hmoment with rfl | hmoment
        · exact ⟨w, hinside, hstack⟩
        rcases List.mem_append.mp hmoment with hmoment | hmoment
        · exact hout.moments moment hmoment
        · rw [List.mem_singleton.mp hmoment]
          refine ⟨w, hreturned, law.stack_kept hstack ?_ ?_⟩
          · exact callFunction_preserves kept_preserved (below_preserves kept_preserved c levels)
              id site arguments m
          · exact callFunction_preserves scopes_grow (below_preserves scopes_grow c levels)
              id site arguments m
      · rw [callFunction_entered hfound (Nat.lt_of_not_le hdepth)]
        exact hout.blame

lemma calls (levels : Nat) : law.Calls levels := by
  induction levels with
  | zero =>
    intro s w n id site arguments _ _ m _ _ hm _ _
    refine ⟨hm, fun v hv => ?_, fun moment hmoment => ?_, fun error herror => ?_⟩
    · cases hv
    · cases hmoment
    · cases herror
  | succ levels ih =>
    intro s w n id site arguments hid hgiven m _ hn hm hstack hstretch
    exact law.outcome_call ih (fun closure => hm.heap.closure id closure hid) site
      (law.given_mono hn hgiven) hm hstack hstretch

end Calls

section Sessions

variable {s : ScopeId} {w : ω} {n : Nat}

lemma conducts_statements (levels : Nat) (hs : law.place n s) (hopens : law.opens s)
    {whole : List Stmt} (hwhole : law.Confines whole) : (program : List Stmt) →
      (∀ jump, Stmt.anyJumps jump program = true → Stmt.anyJumps jump whole = true) →
      law.Code (Stmt.allNodes program) →
      law.Conducts levels s w w n (statementsComposition program) Any := by
  intro program hpart hcode
  induction program generalizing n with
  | nil => exact law.conducts_pure fun _ _ => trivial
  | cons statement others ih =>
    obtain ⟨hstatement, hothers⟩ := law.code_append.mp hcode
    have hfirst (jump : Jump) (h : statement.jumps jump = true) : Stmt.anyJumps jump whole = true :=
      hpart jump (by simp [Stmt.anyJumps, h])
    refine law.conducts_bind (law.conducts_yields
      (law.conducts_exec (law.calls levels) hs statement (fun _ => hopens) hstatement)
      (exec_yields _ statement)) fun n' signal hn ⟨_, hstays⟩ => ?_
    cases signal with
    | normal =>
      exact ih (law.place_mono hn hs) (fun jump h => hpart jump (by simp [Stmt.anyJumps, h])) hothers
    | returned v =>
      exact law.conducts_act (law.permits_text v) fun _ _ _ _ =>
        law.conducts_atom (law.permits_record _ _)
    | looped => exact law.conducts_stray hwhole (hfirst _ (hstays .loop rfl)) (by decide) rfl
    | exited => exact law.conducts_stray hwhole (hfirst _ (hstays .exit rfl)) (by decide) rfl

/-- A machine between units: nothing is under way, and the global scope is one to run in. -/
structure Ready (w : ω) (m : Machine) : Prop where
  governs : law.Governs w m
  place : law.place m.heap.scopes.size law.home
  stands : law.stands w m.heap.scopes.size law.home
  scope : m.scope = m.globals
  saved : m.saved = []

lemma ready_stack (hm : law.Ready w m) : law.Stack w m := by
  intro id hid
  rw [hm.saved, List.mem_singleton, hm.scope, hm.governs.home] at hid
  rw [hid]
  exact hm.stands

lemma ready_begun (hm : law.Ready w m) (program : List Stmt) : law.Ready w (begun program m) :=
  ⟨⟨hm.governs.heap, hm.governs.keep, hm.governs.home, hm.governs.session⟩, hm.place, hm.stands,
    rfl, rfl⟩

lemma ready_ready (hm : law.Ready w (current session)) : law.Ready w session.ready := by
  obtain ⟨config, library, directory, machine⟩ := session
  cases machine with
  | none =>
    exact ⟨⟨hm.governs.heap, hm.governs.keep, hm.governs.home, hm.governs.session⟩, hm.place,
      hm.stands, hm.scope, hm.saved⟩
  | some machine =>
    exact ⟨⟨hm.governs.heap, hm.governs.keep, hm.governs.home, hm.governs.session⟩, hm.place,
      hm.stands, hm.scope, hm.saved⟩

lemma unit_lawful {program : List Stmt} (hcode : law.Admits program) (hm : law.Ready w m)
    (hstretch : law.stretch m (unitTrace program c m)) :
    law.Ready w (Run.unit program c m).2 ∧
      (∀ moment ∈ unitTrace program c m, law.Lawful moment.machine) ∧
      ∀ error, (Run.unit program c m).1 = .error (.failure error) →
        isCaused error.fault = true → law.Blamed error := by
  have hbegun := law.ready_begun hm program
  have hstack := law.ready_stack hbegun
  have hhome : (begun program m).scope = law.home := hm.governs.home
  have hout := law.conducts_statements (w := w) (c.limits.maxDepth + 1) hbegun.place law.opens_home
    (.inl hcode.1) program (fun _ h => h) hcode.2 (begun program m) hhome (Nat.le_refl _)
    hbegun.governs hstack (law.stretch_append (s := [_]) hstretch).2
  have hsize : m.heap.scopes.size ≤ (Run.unit program c m).2.heap.scopes.size :=
    unit_preserves program c m scopes_grow
  have hkept : Kept (begun program m) (Run.unit program c m).2 :=
    unit_preserves program c m kept_preserved
  refine ⟨⟨hout.governs, law.place_mono hsize hm.place, law.stands_mono hsize hm.stands, ?_,
    hkept.saved⟩, fun moment hmoment => ?_, hout.blame⟩
  · rw [hkept.scope, hkept.globals]
    rfl
  · rcases List.mem_cons.mp hmoment with rfl | hmoment
    · exact ⟨w, hbegun.governs, hstack⟩
    · exact hout.moments moment hmoment

/-- A session all of whose programs may run stays under the law in all its units. -/
lemma session_lawful (hconfig : session.config = c) {sources : List String}
    (hcode : ∀ source ∈ sources, ∀ program,
      (SourceUnit.parse session.library source).result = .ok program → law.Admits program)
    (hm : law.Ready w (current session))
    (hstretch : law.stretch (current session) (history session sources)) :
    law.Ready w (current (runAll session sources)) ∧
      ∀ moment ∈ history session sources, law.Lawful moment.machine := by
  induction sources generalizing session with
  | nil =>
    refine ⟨hm, fun moment hmoment => ?_⟩
    cases hmoment
  | cons source sources ih =>
    obtain ⟨hfirst, hothers⟩ := List.forall_mem_cons.mp hcode
    have hall : runAll session (source :: sources) = runAll (session.run source).2 sources := rfl
    rw [history] at hstretch ⊢
    rw [hall]
    cases h : (SourceUnit.parse session.library source).result with
    | error errors =>
      rw [run_of_error h] at hstretch ⊢
      simp only [h] at hstretch
      exact ih hconfig hothers hm hstretch
    | ok program =>
      have hready := law.ready_ready hm
      simp only [h, hconfig] at hstretch
      have hbegin : law.stretch session.ready
          (unitTrace program c session.ready ++ history (session.run source).2 sources) :=
        (law.stretch_append (s := [_]) hstretch).2
      obtain ⟨hunit, hrest⟩ := law.stretch_append hbegin
      obtain ⟨hdone, hmoments, -⟩ := law.unit_lawful (hfirst program h) hready hunit
      rw [(unitTrace_leads program c session.ready (respected_self c)).finish_eq] at hrest
      have hnext : current (session.run source).2 = (Run.unit program c session.ready).2 := by
        rw [run_of_ok h, hconfig]
        rfl
      have hkept : (session.run source).2.config = c ∧
          (session.run source).2.library = session.library := by
        rw [run_of_ok h]
        exact ⟨hconfig, rfl⟩
      obtain ⟨hlast, hafter⟩ := ih hkept.1 (by rwa [hkept.2]) (by rwa [hnext]) (by rwa [hnext])
      refine ⟨hlast, fun moment hmoment => ?_⟩
      simp only [hconfig] at hmoment
      rcases List.mem_cons.mp hmoment with rfl | hmoment
      · exact ⟨w, hready.governs, law.ready_stack hready⟩
      rcases List.mem_append.mp hmoment with hmoment | hmoment
      · exact hmoments moment hmoment
      · exact hafter moment hmoment

/-- The law holds at every moment of such a session, also before anything has run. -/
lemma session_lawful_at (hconfig : session.config = c) {sources : List String}
    (hcode : ∀ source ∈ sources, ∀ program,
      (SourceUnit.parse session.library source).result = .ok program → law.Admits program)
    (hm : law.Ready w (current session))
    (hstretch : law.stretch (current session) (history session sources)) {earlier : List Moment}
    (hearlier : earlier <+: history session sources) :
    law.Lawful (finish (current session) earlier) := by
  rcases List.eq_nil_or_concat earlier with rfl | ⟨before, moment, rfl⟩
  · exact ⟨w, hm.governs, law.ready_stack hm⟩
  · have hmember : moment ∈ history session sources := hearlier.subset (by simp)
    have hfinish : finish (current session) (before.concat moment) = moment.machine := by simp
    rw [hfinish]
    exact (law.session_lawful hconfig hcode hm hstretch).2 moment hmember

end Sessions

end Law

section Code

def InHost (host : Host) (node : Node) : Prop :=
  ∃ (id : Nat) (closure : Closure), host.heap.functions[id]? = some closure ∧
    node ∈ Stmt.functionNodes closure.declaration

lemma functions_foldl {α : Type} {f : Heap → α → Heap}
    (h : ∀ heap a, (f heap a).functions = heap.functions) (entries : List α) (heap : Heap) :
    (entries.foldl f heap).functions = heap.functions := by
  induction entries generalizing heap with
  | nil => rfl
  | cons entry entries ih => exact (ih (f heap entry)).trans (h heap entry)

lemma functions_newConnection (heap : Heap) :
    heap.newConnection.2.functions = heap.functions := by
  unfold Heap.newConnection
  dsimp only
  rw [functions_foldl, functions_foldl]
  · rfl
  · exact fun _ _ => rfl
  · exact fun _ _ => rfl

lemma functions_start (host : Host) :
    (Machine.start host).heap.functions = host.heap.functions := by
  unfold Machine.start
  dsimp only
  rw [functions_foldl, functions_newConnection]
  · rfl
  · exact fun _ _ => rfl

variable (c : Config) (library : Library) (sources : List String) (moments : List Moment)

/-- The policy under which code of the texts and of the host runs and may do what it likes, with the
drivers of the host. -/
def codePolicy : Policy Unit where
  knows _ := True
  tables := True
  driver found := ∃ entry ∈ c.host.drivers, entry.2 = found
  home := (Machine.start c.host).globals
  handle _ _ _ := True
  place _ _ := True
  stands _ _ _ := True
  opens _ := True
  grow w _ := w
  keep _ _ := True
  node node := InCode library sources node ∨ InHost c.host node
  stretch := Within (Machine.start c.host) moments
  unit program := ∃ text ∈ sources, (SourceUnit.parse library text).result = .ok program

lemma code_value {w : Unit} {n : Nat} (v : Value) :
    (codePolicy c library sources moments).value w n v := by
  cases v with
  | native which => cases which <;> trivial
  | _ => trivial

/-- The law of code: nothing is asked of a run but that its code and its drivers are known. -/
def codeLaw : Law Unit c where
  toPolicy := codePolicy c library sources moments
  handle_mono _ _ := trivial
  place_mono _ _ := trivial
  stands_mono _ _ := trivial
  knows_of_opens _ := trivial
  knows_of_place _ := trivial
  opens_home := trivial
  opens_of_handle _ := trivial
  opens_new _ _ := trivial
  knows_of_lacks _ _ := trivial
  keep_edit _ _ := trivial
  keep_grow _ _ := trivial
  keep_shrink _ := trivial
  handle_grow _ := trivial
  handle_shrink _ := trivial
  stands_grow _ := trivial
  place_new _ _ := trivial
  stands_new _ _ := trivial
  handle_module _ _ _ := trivial
  registry entry h := ⟨entry, h, rfl⟩
  rows_of_driver _ _ _ _ := fun _ _ entry _ => code_value c library sources moments entry.2
  stretch_append := within_append

/-- Every function that a machine starts with is one of its host. -/
lemma code_ready : (codeLaw c library sources moments).Ready () (Machine.start c.host) := by
  refine ⟨⟨⟨fun _ _ _ _ => trivial, fun _ _ _ _ _ => code_value _ _ _ _ _,
    fun _ _ _ _ => code_value _ _ _ _ _, fun _ _ _ _ _ _ _ _ => code_value _ _ _ _ _, ?_⟩, trivial,
    rfl, fun _ h => by cases h⟩, trivial, trivial, rfl, rfl⟩
  intro id closure _ hclosure
  rw [functions_start] at hclosure
  exact ⟨trivial, fun node hnode => .inr ⟨id, closure, hclosure, hnode⟩⟩

variable {c library sources moments}

lemma code_admits {text : String} (htext : text ∈ sources) {program : List Stmt}
    (hprogram : (SourceUnit.parse library text).result = .ok program) :
    (codeLaw c library sources moments).Admits program :=
  ⟨⟨text, htext, hprogram⟩, fun _ hnode => .inl ⟨text, htext, program, hprogram, hnode⟩⟩

/-- A unit fails because of its code only if the law blames something for it. -/
lemma Law.run_blames {ω : Type} (law : Law ω c) {w : ω} {source : String}
    (hconfig : session.config = c)
    (hcode : ∀ program, (SourceUnit.parse session.library source).result = .ok program →
      law.Admits program) (hm : law.Ready w (current session))
    (hstretch : law.stretch (current session) (history session [source])) {error : RuntimeError}
    (herror : (session.run source).1.error = some (.runtime error))
    (hfault : isCaused error.fault = true) : law.Blamed error := by
  cases hresult : (SourceUnit.parse session.library source).result with
  | error errors =>
    unfold Session.run at herror
    simp [hresult] at herror
  | ok program =>
    rw [report_of_ok hresult, hconfig] at herror
    simp only [history, hresult, hconfig, List.append_nil] at hstretch
    obtain ⟨-, hunit⟩ := law.stretch_append (s := [_]) hstretch
    refine (law.unit_lawful (hcode program hresult) (law.ready_ready hm) hunit).2.2 error ?_ hfault
    cases houtcome : (Run.unit program c session.ready).1 with
    | ok _ =>
      rw [houtcome] at herror
      cases herror
    | error halt =>
      rw [houtcome] at herror
      cases halt with
      | failure failure =>
        cases herror
        rfl
      | exhausted => cases herror

/-- A unit of a session fails because of its code only by a node of it, at a moment of the session,
or by control flow of it. -/
lemma run_blamed {directory source : String} {error : RuntimeError}
    (herror : ((runAll (Session.new c library directory) sources).run source).1.error =
      some (.runtime error)) (hfault : isCaused error.fault = true) :
    (codeLaw c library (sources ++ [source])
      (history (Session.new c library directory) (sources ++ [source]))).Blamed error := by
  let start : Session := Session.new c library directory
  let law : Law Unit c := codeLaw c library (sources ++ [source])
    (history start (sources ++ [source]))
  have hcode : ∀ text ∈ sources ++ [source], ∀ program,
      (SourceUnit.parse library text).result = .ok program → law.Admits program :=
    fun _ htext _ hprogram => code_admits htext hprogram
  have hstart : law.Ready () (current start) := code_ready c library _ _
  have hall : law.stretch (current start) (history start (sources ++ [source])) :=
    ⟨[], rfl, List.prefix_refl _⟩
  rw [history_append] at hall
  obtain ⟨hbefore, hlast⟩ := law.stretch_append hall
  rw [(history_leads start sources).2] at hlast
  have hready := (law.session_lawful rfl (fun text htext => hcode text
    (List.mem_append_left _ htext)) hstart hbefore).1
  obtain ⟨hconfig, hlibrary⟩ := runAll_keeps start sources
  refine law.run_blames hconfig (fun program hprogram => ?_) hready hlast herror hfault
  rw [hlibrary] at hprogram
  exact hcode source (List.mem_append_right _ List.mem_cons_self) program hprogram

end Code

end XBase.Proofs

end
