import XBase.Proofs.Compound
import XBase.Proofs.Order

/-!
# Defer blocks from the text to the run

The defer blocks that stand directly in a function are taken out of its body when the function is
read, in source order and wherever they stand. A call runs them after a body that returned, the last
one first, in the scope of the call, and gives back what the body returned. A block that does not
come to its end stops the call and the blocks that are still to run. A defer statement that stands
anywhere else does not run its block.
-/

namespace XBase

section Exchange

variable (fill : List Stmt → List Stmt)

mutual

/-- Fills the blocks of the defer statements in a statement with other statements. The functions and
classes that the statement declares stay as they are. -/
def Stmt.refill : Stmt → Stmt
  | .defer token body => .defer token (fill body)
  | .branch token condition consequence alternative =>
    .branch token condition (Stmt.refillAll consequence) (Stmt.refillAll alternative)
  | .choose token branches otherwise =>
    .choose token (Stmt.refillCases branches) (Stmt.refillOtherwise otherwise)
  | .whileLoop token condition body => .whileLoop token condition (Stmt.refillAll body)
  | .doLoop token body condition => .doLoop token (Stmt.refillAll body) condition
  | .forLoop token counter start finish step body =>
    .forLoop token counter start finish step (Stmt.refillAll body)
  | .module token name body => .module token name (Stmt.refillAll body)
  | statement => statement

def Stmt.refillAll : List Stmt → List Stmt
  | [] => []
  | statement :: others => statement.refill :: Stmt.refillAll others

def Stmt.refillCases : List (CaseBranch Stmt) → List (CaseBranch Stmt)
  | [] => []
  | ⟨conditions, body⟩ :: others => ⟨conditions, Stmt.refillAll body⟩ :: Stmt.refillCases others

def Stmt.refillOtherwise : Option (List Stmt) → Option (List Stmt)
  | none => none
  | some body => some (Stmt.refillAll body)

end

end Exchange

namespace Proofs

section Nested

variable (fill : List Stmt → List Stmt) (invoke : Invocation)

lemma isEmpty_refillAll (body : List Stmt) : (Stmt.refillAll fill body).isEmpty = body.isEmpty := by
  cases body <;> rfl

lemma nested_refillAll {body : List Stmt}
    (h : Stmt.execAll invoke (Stmt.refillAll fill body) = Stmt.execAll invoke body) :
    Run.nested (Stmt.refillAll fill body) (Stmt.execAll invoke (Stmt.refillAll fill body)) =
      Run.nested body (Stmt.execAll invoke body) := by
  unfold Run.nested
  rw [h, isEmpty_refillAll]

mutual

/-- What the blocks of defer statements hold makes no difference to a statement. -/
lemma exec_refill : (statement : Stmt) →
    (statement.refill fill).exec invoke = statement.exec invoke
  | .defer _ _ => rfl
  | .branch _ _ consequence alternative => by
    have hconsequence := nested_refillAll fill invoke (execAll_refill consequence)
    have halternative := nested_refillAll fill invoke (execAll_refill alternative)
    rw [Stmt.refill, Stmt.exec, Stmt.exec, hconsequence, halternative]
    rfl
  | .choose _ branches otherwise => by
    rw [Stmt.refill, Stmt.exec, Stmt.exec, execOtherwise_refill otherwise,
      execCases_refill branches]
    rfl
  | .whileLoop _ _ body => by
    rw [Stmt.refill, Stmt.exec, Stmt.exec, nested_refillAll fill invoke (execAll_refill body)]
    rfl
  | .doLoop _ body _ => by
    rw [Stmt.refill, Stmt.exec, Stmt.exec, nested_refillAll fill invoke (execAll_refill body)]
    rfl
  | .forLoop _ _ _ _ _ body => by
    rw [Stmt.refill, Stmt.exec, Stmt.exec, execAll_refill body]
    rfl
  | .module _ _ body => by
    rw [Stmt.refill, Stmt.exec, Stmt.exec, execAll_refill body]
    rfl
  | .expression _ | .print _ _ | .giveBack _ _ | .declare _ _ _ | .destructure _ _ _ _ | .exit _
  | .loop _ | .function _ | .classDef _ | .const _ _ _ | .release _ _ | .assign _ _ _
  | .update _ _ _ | .assignAll _ _ _ => rfl

lemma execAll_refill : (body : List Stmt) →
    Stmt.execAll invoke (Stmt.refillAll fill body) = Stmt.execAll invoke body
  | [] => rfl
  | statement :: others => by
    rw [Stmt.refillAll, Stmt.execAll, Stmt.execAll, exec_refill statement, execAll_refill others]

lemma execCases_refill : (branches : List (CaseBranch Stmt)) → {otherwise : Run Signal} →
    Stmt.execCases invoke (Stmt.refillCases fill branches) otherwise =
      Stmt.execCases invoke branches otherwise
  | [], _ => rfl
  | ⟨_, body⟩ :: others, _ => by
    rw [Stmt.refillCases, Stmt.execCases, Stmt.execCases,
      nested_refillAll fill invoke (execAll_refill body), execCases_refill others]

lemma execOtherwise_refill : (otherwise : Option (List Stmt)) →
    Stmt.execOtherwise invoke (Stmt.refillOtherwise fill otherwise) =
      Stmt.execOtherwise invoke otherwise
  | none => rfl
  | some body => by
    rw [Stmt.refillOtherwise, Stmt.execOtherwise, Stmt.execOtherwise,
      nested_refillAll fill invoke (execAll_refill body)]

end

end Nested

variable {blocks : List (List Stmt)} {m m' : Machine} {why : Halt} {f : FunctionDecl Stmt}

section Calls

/-- How what a block of a call has come to stops the call. -/
inductive Stops (token : Token) : Except Halt Signal → Halt → Prop
  | failed (why : Halt) : Stops token (.error why) why
  | looped : Stops token (.ok .looped) (.failure (.ofToken token (.controlOutsideLoop "loop")))
  | exited : Stops token (.ok .exited) (.failure (.ofToken token (.controlOutsideLoop "exit")))

/-- Blocks run in a scope, one after another and each to its end, from one machine to another. What
they return is dropped. -/
inductive RunsThrough (invoke : Invocation) (c : Config) (id : ScopeId) :
    List (List Stmt) → Machine → Machine → Prop
  | nil (m : Machine) : RunsThrough invoke c id [] m m
  | cons {block : List Stmt} {others : List (List Stmt)} {signal : Signal} {m m' m'' : Machine}
      (hblock : Run.within id (Stmt.execAll invoke block) c m = (.ok signal, m'))
      (hsignal : signal = .normal ∨ ∃ value, signal = .returned value)
      (hothers : RunsThrough invoke c id others m' m'') :
      RunsThrough invoke c id (block :: others) m m''

variable {invoke : Invocation} {c : Config} {id : ScopeId} {token : Token}

lemma runDefers_through (h : RunsThrough invoke c id blocks m m') (rest : List (List Stmt)) :
    Run.runDefers invoke token id (blocks ++ rest) c m =
      Run.runDefers invoke token id rest c m' := by
  induction h with
  | nil => rfl
  | cons hblock hsignal _ ih =>
    rw [List.cons_append, Run.runDefers, bind_ok hblock]
    rcases hsignal with rfl | ⟨value, rfl⟩
    · exact ih
    · exact ih

lemma runDefers_stopped {block : List Stmt} {result : Except Halt Signal}
    (hblock : Run.within id (Stmt.execAll invoke block) c m = (result, m'))
    (hstops : Stops token result why) (rest : List (List Stmt)) :
    Run.runDefers invoke token id (block :: rest) c m = (.error why, m') := by
  rw [Run.runDefers]
  cases hstops with
  | failed => exact bind_error hblock
  | looped =>
    rw [bind_ok hblock]
    rfl
  | exited =>
    rw [bind_ok hblock]
    rfl

lemma ends_or_stops (token : Token) (result : Except Halt Signal) :
    (∃ signal, result = .ok signal ∧ (signal = .normal ∨ ∃ value, signal = .returned value)) ∨
      ∃ why, Stops token result why := by
  cases result with
  | error why => exact .inr ⟨why, .failed why⟩
  | ok signal =>
    cases signal with
    | normal => exact .inl ⟨_, rfl, .inl rfl⟩
    | returned value => exact .inl ⟨_, rfl, .inr ⟨value, rfl⟩⟩
    | looped => exact .inr ⟨_, .looped⟩
    | exited => exact .inr ⟨_, .exited⟩

/-- Blocks run from the last one back, up to one that stops the call. -/
def StopsAt (invoke : Invocation) (c : Config) (id : ScopeId) (token : Token)
    (blocks : List (List Stmt)) (m : Machine) (why : Halt) (last : Machine) : Prop :=
  ∃ earlier block later before result, blocks = earlier ++ block :: later ∧
    RunsThrough invoke c id later.reverse m before ∧
    Run.within id (Stmt.execAll invoke block) c before = (result, last) ∧ Stops token result why

lemma runDefers_stopsAt {last : Machine} (h : StopsAt invoke c id token blocks m why last) :
    Run.runDefers invoke token id blocks.reverse c m = (.error why, last) := by
  obtain ⟨earlier, block, later, before, result, rfl, hlater, hblock, hstops⟩ := h
  rw [List.reverse_append, List.reverse_cons, List.append_assoc, runDefers_through hlater]
  exact runDefers_stopped hblock hstops earlier.reverse

lemma runsThrough_append {others : List (List Stmt)} {m'' : Machine}
    (h : RunsThrough invoke c id blocks m m') (h' : RunsThrough invoke c id others m' m'') :
    RunsThrough invoke c id (blocks ++ others) m m'' := by
  induction h with
  | nil => exact h'
  | cons hblock hsignal _ ih => exact .cons hblock hsignal (ih h')

/-- From the last block back, all run through or one of them stops the call. -/
lemma through_or_stopsAt (token : Token) (blocks : List (List Stmt)) (m : Machine) :
    (∃ final, RunsThrough invoke c id blocks.reverse m final) ∨
      ∃ why last, StopsAt invoke c id token blocks m why last := by
  induction blocks with
  | nil => exact .inl ⟨m, .nil m⟩
  | cons block later ih =>
    rcases ih with ⟨before, hlater⟩ | ⟨why, last, earlier, other, later, before, result, rfl, hstops⟩
    · rcases hblock : Run.within id (Stmt.execAll invoke block) c before with ⟨result, last⟩
      rcases ends_or_stops token result with ⟨signal, rfl, hsignal⟩ | ⟨why, hstops⟩
      · left
        rw [List.reverse_cons]
        exact ⟨last, runsThrough_append hlater (.cons hblock hsignal (.nil last))⟩
      · exact .inr ⟨why, last, [], block, later, before, result, rfl, hlater, hblock, hstops⟩
    · exact .inr ⟨why, last, block :: earlier, other, later, before, result, rfl, hstops⟩

def inHand (values : List Value) (m : Machine) : Machine :=
  { m with held := values.filterMap Value.cell? ++ m.held }

lemma holding_eq {α : Type} {values : List Value} {x : Run α} {after : Machine}
    {result : Except Halt α} (h : x c (inHand values m) = (result, after)) :
    Run.holding values x c m = (result, { after with held := m.held }) := by
  have hrun : x c { m with held := values.filterMap Value.cell? ++ m.held } = (result, after) := h
  unfold Run.holding Run.holdingCells
  rw [hrun]

/-- The machine in which a call binds its parameters: the call is recorded and counted, and its
scope is there. -/
def opened (closure : Closure) (arguments : List ArgumentValue) (m : Machine) : Machine :=
  { recorded closure arguments m with
    depth := m.depth + 1
    heap := (m.heap.newScope (some closure.scope)).2 }

def leaving (m : Machine) : Machine :=
  { m with depth := m.depth - 1 }

/-- A call of a function whose parameters bind, up to where its body has ended. -/
structure BodyRun (invoke : Invocation) (c : Config) (function : FunctionId) (closure : Closure)
    (arguments : List ArgumentValue) (m bound : Machine) (result : Except Halt Signal)
    (after : Machine) : Prop where
  found : m.heap.functions[function]? = some closure
  depth : m.depth < c.limits.maxDepth
  binds : Run.bindParameters invoke m.heap.scopes.size closure.declaration.parameters arguments c
    (opened closure arguments m) = (.ok (), bound)
  body : Run.within m.heap.scopes.size (Stmt.execAll invoke closure.declaration.body) c bound =
    (result, after)

variable {function : FunctionId} {closure : Closure} {site : CallSite}
  {arguments : List ArgumentValue} {m bound after final : Machine} {result : Except Halt Signal}
  {value : Value}

variable (h : BodyRun invoke c function closure arguments m bound result after)

include h

lemma BodyRun.enter (site : CallSite) :
    ∃ conclude : Signal → Run Value,
      Run.enter invoke closure site arguments c
          { recorded closure arguments m with depth := m.depth + 1 } =
        (Run.within m.heap.scopes.size (Stmt.execAll invoke closure.declaration.body) >>= conclude)
          c bound ∧
      conclude .normal = pure .null ∧
      conclude .looped = Run.outsideLoop site.token "loop" ∧
      conclude .exited = Run.outsideLoop site.token "exit" ∧
      ∀ value, conclude (.returned value) = (do
        Run.holding [value] (Run.runDefers invoke site.token m.heap.scopes.size
          closure.declaration.defers.reverse)
        return value) := by
  have hscope : Run.allocate (fun heap => heap.newScope (some closure.scope)) c
      { recorded closure arguments m with depth := m.depth + 1 } =
      (.ok m.heap.scopes.size, opened closure arguments m) := rfl
  exact ⟨_, (bind_ok hscope).trans (bind_ok h.binds), rfl, rfl, rfl, fun _ => rfl⟩

lemma BodyRun.call {outcome : Except Halt Value} {last : Machine}
    (henter : Run.enter invoke closure site arguments c
      { recorded closure arguments m with depth := m.depth + 1 } = (outcome, last)) :
    Run.callFunction invoke function site arguments c m = (outcome, leaving last) := by
  rw [callFunction_entered h.found h.depth, henter]
  rfl

lemma BodyRun.stopped (hstops : Stops site.token result why) :
    Run.callFunction invoke function site arguments c m = (.error why, leaving after) := by
  obtain ⟨conclude, henter, -, hlooped, hexited, -⟩ := h.enter site
  apply h.call
  rw [henter]
  have hbody := h.body
  cases hstops with
  | failed => exact bind_error hbody
  | looped =>
    rw [bind_ok hbody, hlooped]
    rfl
  | exited =>
    rw [bind_ok hbody, hexited]
    rfl

omit h

lemma BodyRun.normal
    (h : BodyRun invoke c function closure arguments m bound (.ok .normal) after) :
    Run.callFunction invoke function site arguments c m = (.ok .null, leaving after) := by
  obtain ⟨conclude, henter, hnormal, -⟩ := h.enter site
  apply h.call
  rw [henter, bind_ok h.body, hnormal]
  rfl

lemma BodyRun.returned {outcome : Except Halt Unit} {last : Machine}
    (h : BodyRun invoke c function closure arguments m bound (.ok (.returned value)) after)
    (hdefers : Run.runDefers invoke site.token m.heap.scopes.size
      closure.declaration.defers.reverse c (inHand [value] after) = (outcome, last)) :
    Run.callFunction invoke function site arguments c m =
      (outcome.map fun _ => value, leaving { last with held := after.held }) := by
  obtain ⟨conclude, henter, -, -, -, hreturned⟩ := h.enter site
  apply h.call
  rw [henter, bind_ok h.body, hreturned]
  cases outcome with
  | error why => exact bind_error (holding_eq hdefers)
  | ok _ => exact bind_ok (holding_eq hdefers)

end Calls

section Sources

open SourceUnit (loader loaded)

variable {found : String → Option Stmt} {T t u : List Token} {P : FunctionDecl Stmt → Prop}

lemma infix_tail {token : Token} (h : token :: t <:+: T) : t <:+: T :=
  (List.suffix_cons token t).isInfix.trans h

lemma infix_left (h : t ++ u <:+: T) : t <:+: T :=
  (List.prefix_append t u).isInfix.trans h

lemma infix_right (h : t ++ u <:+: T) : u <:+: T :=
  (List.suffix_append t u).isInfix.trans h

/-- What is known of the functions in a stretch of tokens and of those in imported modules. -/
lemma rule_declares (hfound : ∀ name s, found name = some s →
      All (fun node => ∀ f, node = .function f → P f) s.nodes ∧ s.introduces = false)
    (hP : ∀ tokens f, tokens <:+: T → Builds found .function tokens f → P f) :
    NodeRule found (· <:+: T) fun node => ∀ f, node = .function f → P f := by
  have hnone {nodes : List Node} (h : All Bodiless nodes) :
      All (fun node => ∀ f, node = .function f → P f) nodes := by
    rintro node hnode f rfl
    cases List.cons_ne_nil _ _ (h _ hnode)
  refine ⟨infix_tail, infix_left, infix_right, fun name s hs => (hfound name s hs).2,
    fun _ h => ?_, fun _ h => ?_, fun _ _ => hnone (bodiless_nodes _),
    fun _ _ => hnone (bodiless_allNodes _), fun _ _ => hnone (bodiless_optionNodes _),
    fun _ _ => hnone (bodiless_parameters _), fun _ _ => hnone (bodiless_nodes _),
    fun _ _ _ hf => ?_, fun ht h _ _ hf => ?_⟩
  · cases h with
    | imported hkeyword hname hsep h => exact (hfound _ _ h).1
    | exit | loop => exact hnone (by simp [Stmt.nodes, Bodiless, Node.bodies])
    | print _ h | giveBack _ h | release _ h | assignAll _ h | evaluated h =>
      cases h <;> exact hnone (by simp [Stmt.nodes, Bodiless, Node.bodies])
  · cases h with
    | declared _ h | constant _ h =>
      cases h <;> exact hnone (by simp [Stmt.nodes, Bodiless, Node.bodies])
  · cases hf
  · cases hf
    exact hP _ _ ht h

/-- The texts that are read with a source: the source, and modules of the library with the lines of
a module around them. -/
def ReadWith (library : Library) (source text : String) : Prop :=
  text = source ∨
    ∃ name body, library.resolve name = .ok body ∧ text = SourceUnit.wrap name body

/-- Some tokens are the text of a function, and `statements` stand between its first line and its
last. -/
def FunctionText (found : String → Option Stmt) (tokens : List Token) (f : FunctionDecl Stmt)
    (statements : List Stmt) : Prop :=
  ∃ parameters block sep last sep',
    tokens = f.token :: f.name :: (parameters ++ sep :: (block ++ [last, sep'])) ∧
    f.token.kind = .keyword .functionWord ∧ f.name.kind = .name ∧
    Parameters parameters f.parameters ∧ sep.kind = .separator ∧
    Builds found .block block statements ∧ last.kind = .keyword .endFunc ∧ sep'.kind = .separator

/-- Reading a source reads a function with these statements between its first line and its last. -/
def WrittenIn (library : Library) (source : String) (f : FunctionDecl Stmt)
    (statements : List Stmt) : Prop :=
  ∃ text depth importing tokens, ReadWith library source text ∧ tokens <:+: (scan text).tokens ∧
    FunctionText (loaded (loader library depth importing)) tokens f statements

/-- A function is its text with the defer blocks taken out of the body. -/
lemma builds_function (h : Builds found .function t f) :
    ∃ statements, FunctionText found t f statements ∧
      f.body = statements.filter (fun s => !s.isDefer) ∧
      f.defers = statements.filterMap Read.deferred? := by
  cases h with
  | @function _ _ sep last sep' parameters block _ statements hkeyword hname hparameters hsep hbody
      hlast hsep' =>
    refine ⟨statements, ⟨parameters, block, sep, last, sep', rfl, hkeyword, hname, hparameters, hsep,
      hbody, hlast, hsep'⟩, ?_, rfl⟩
    simp only [isNone_deferred]

lemma written_here {library : Library} {source : String} {depth : Nat} {importing : List String}
    (ht : t <:+: (scan source).tokens)
    (h : Builds (loaded (loader library depth importing)) .function t f) :
    ∃ statements, WrittenIn library source f statements ∧
      f.body = statements.filter (fun s => !s.isDefer) ∧
      f.defers = statements.filterMap Read.deferred? := by
  obtain ⟨statements, htext, hparts⟩ := builds_function h
  exact ⟨statements, ⟨source, depth, importing, t, .inl rfl, ht, htext⟩, hparts⟩

lemma ReadWith.imported {library : Library} {source name body text : String}
    (hbody : library.resolve name = .ok body)
    (h : ReadWith library (SourceUnit.wrap name body) text) : ReadWith library source text := by
  rcases h with rfl | h
  · exact .inr ⟨name, body, hbody, rfl⟩
  · exact .inr h

/-- Every function of a good text is written in it or in a module of the library. -/
lemma good_declares (library : Library) (depth : Nat) (importing : List String) (source : String)
    (h : (SourceUnit.parseWithin library depth importing source).errors = []) (f : FunctionDecl Stmt)
    (hf : .function f ∈
      Stmt.allNodes (SourceUnit.parseWithin library depth importing source).statements) :
    ∃ statements, WrittenIn library source f statements ∧
      f.body = statements.filter (fun s => !s.isDefer) ∧
      f.defers = statements.filterMap Read.deferred? := by
  refine good_all (P := fun source node => ∀ f, node = .function f →
    ∃ statements, WrittenIn library source f statements ∧
      f.body = statements.filter (fun s => !s.isDefer) ∧
      f.defers = statements.filterMap Read.deferred?) library ?_ ?_ depth importing source h _ hf f rfl
  · intro name body source node hresolve hmodule f hf
    obtain ⟨statements, ⟨text, depth, importing, tokens, hwith, hplace⟩, hparts⟩ := hmodule f hf
    exact ⟨statements, ⟨text, depth, importing, tokens, hwith.imported hresolve, hplace⟩, hparts⟩
  · exact fun depth importing source hfound => ⟨(· <:+: (scan source).tokens), List.infix_refl _,
      rule_declares hfound fun tokens f htokens hf => written_here htokens hf⟩

end Sources

/-- Every function of a program that is read has the statements of its text as its body, less the
defer blocks among them, which it keeps in source order. A call of it whose body returns runs these
blocks from the last one back in the scope of the call, each once, and gives back what the body
returned; a block that fails or jumps stops the call, and those before it in the text are not run.
After a body that ends in any other way the call ends there. The blocks of defer statements that are
executed as statements can hold anything: they are not run. -/
theorem defers_run_after_return {library : Library} {source : String} {program : List Stmt}
    (hparse : (SourceUnit.parse library source).result = .ok program) {f : FunctionDecl Stmt}
    (hf : .function f ∈ Stmt.allNodes program) :
    ∃ statements, WrittenIn library source f statements ∧
      f.body = statements.filter (fun s => !s.isDefer) ∧
      f.defers = statements.filterMap Read.deferred? ∧
      (∀ invoke c function closure site arguments m bound result after, closure.declaration = f →
        BodyRun invoke c function closure arguments m bound result after →
        let call := Run.callFunction invoke function site arguments c m
        let id := m.heap.scopes.size
        (result = .ok .normal → call = (.ok .null, leaving after)) ∧
        (∀ why, Stops site.token result why → call = (.error why, leaving after)) ∧
        ∀ value, result = .ok (.returned value) →
          (∀ final, RunsThrough invoke c id f.defers.reverse (inHand [value] after) final →
            call = (.ok value, leaving { final with held := after.held })) ∧
          (∀ why last, StopsAt invoke c id site.token f.defers (inHand [value] after) why last →
            call = (.error why, leaving { last with held := after.held })) ∧
          ((∃ final, RunsThrough invoke c id f.defers.reverse (inHand [value] after) final) ∨
            ∃ why last, StopsAt invoke c id site.token f.defers (inHand [value] after) why last)) ∧
      ∀ fill invoke block,
        Stmt.execAll invoke (Stmt.refillAll fill block) = Stmt.execAll invoke block := by
  have hgood : ∃ statements, WrittenIn library source f statements ∧
      f.body = statements.filter (fun s => !s.isDefer) ∧
      f.defers = statements.filterMap Read.deferred? := by
    unfold SourceUnit.result at hparse
    split at hparse
    · next hgood =>
      cases hparse
      exact good_declares library _ [] source (List.isEmpty_iff.mp hgood) f hf
    · cases hparse
  obtain ⟨statements, hwritten, hbody, hdefers⟩ := hgood
  refine ⟨statements, hwritten, hbody, hdefers, ?_, fun fill invoke => execAll_refill fill invoke⟩
  rintro invoke c function closure site arguments m bound result after rfl hrun call id
  refine ⟨?_, fun why hstops => hrun.stopped hstops, ?_⟩
  · rintro rfl
    exact hrun.normal
  rintro value rfl
  refine ⟨?_, ?_, through_or_stopsAt site.token _ _⟩
  · intro final hfinal
    have hblocks : Run.runDefers invoke site.token id (closure.declaration.defers.reverse ++ []) c
        (inHand [value] after) = (.ok (), final) := runDefers_through hfinal []
    rw [List.append_nil] at hblocks
    exact hrun.returned hblocks
  · intro why last hstops
    exact hrun.returned (runDefers_stopsAt hstops)

/-- A function with a defer block before its `return` and one behind it. -/
def deferring : String :=
  "function f()\ndefer\n? \"a\"\nenddefer\nreturn \"x\"\ndefer\n? \"b\"\nenddefer\nendfunc\n"

def firstFunction? : List Stmt → Option (FunctionDecl Stmt)
  | .function f :: _ => some f
  | _ => none

lemma mem_of_firstFunction? {program : List Stmt} (h : firstFunction? program = some f) :
    .function f ∈ Stmt.allNodes program := by
  cases program with
  | nil => cases h
  | cons s program =>
    cases s with
    | function g =>
      cases h
      apply List.mem_append_left
      apply List.mem_cons_of_mem
      rw [Stmt.functionNodes]
      exact List.mem_cons_self
    | _ => cases h

lemma deferring_declares :
    (firstFunction? (SourceUnit.parse .closed deferring).statements).isSome = true := by
  decide +kernel

def deferringFunction : FunctionDecl Stmt :=
  (firstFunction? (SourceUnit.parse .closed deferring).statements).get deferring_declares

def withDeferring : Machine :=
  { Machine.start bareHost with
    heap := ((Machine.start bareHost).heap.newFunction ⟨deferringFunction, 0⟩).2 }

def returned? : Except Halt Signal → Option Value
  | .ok (.returned value) => some value
  | _ => none

lemma eq_returned {result : Except Halt Signal} {value : Value} (h : returned? result = some value) :
    result = .ok (.returned value) := by
  cases result with
  | error why => cases h
  | ok signal =>
    cases signal with
    | returned => cases h; rfl
    | _ => cases h

/-- The block behind the `return` runs first. -/
theorem defers_run_back_to_front :
    let c : Config := ⟨⟨none, 2⟩, bareHost⟩
    (SourceUnit.parse .closed deferring).result =
        .ok (SourceUnit.parse .closed deferring).statements ∧
      .function deferringFunction ∈
        Stmt.allNodes (SourceUnit.parse .closed deferring).statements ∧
      deferringFunction.defers.length = 2 ∧
      ∃ after final value,
        RunsThrough (below 2) c withDeferring.heap.scopes.size deferringFunction.defers.reverse
          (inHand [value] after) final ∧
        Run.callFunction (below 2) 0 ⟨nameToken "f", none⟩ [] c withDeferring =
          (.ok value, leaving { final with held := after.held }) ∧
        final.output = "b\na\n" := by
  intro c
  let closure : Closure := ⟨deferringFunction, 0⟩
  let binding := Run.bindParameters (below 2) withDeferring.heap.scopes.size
    deferringFunction.parameters [] c (opened closure [] withDeferring)
  let body := Run.within withDeferring.heap.scopes.size
    (Stmt.execAll (below 2) deferringFunction.body) c binding.2
  let call := Run.callFunction (below 2) 0 ⟨nameToken "f", none⟩ [] c withDeferring
  obtain ⟨hgood, htwo, hbinds, hreturns, hok, houtput⟩ :
      (SourceUnit.parse .closed deferring).errors.isEmpty = true ∧
      deferringFunction.defers.length = 2 ∧ binding.1.isOk = true ∧
      (returned? body.1).isSome = true ∧ call.1.isOk = true ∧ call.2.output = "b\na\n" := by
    decide +kernel
  have hparse : (SourceUnit.parse .closed deferring).result =
      .ok (SourceUnit.parse .closed deferring).statements := by
    unfold SourceUnit.result
    rw [if_pos hgood]
  have hf := mem_of_firstFunction? (Option.some_get deferring_declares).symm
  obtain ⟨_, _, hbinds⟩ := eq_ok_of_isOk hbinds
  have hbound := congrArg Prod.fst hbinds
  have hrun : BodyRun (below 2) c 0 closure [] withDeferring binding.2 body.1 body.2 :=
    ⟨rfl, by decide, Prod.ext hbound rfl, rfl⟩
  obtain ⟨value, hvalue⟩ := Option.isSome_iff_exists.mp hreturns
  obtain ⟨-, -, -, -, hcalls, -⟩ := defers_run_after_return hparse hf
  obtain ⟨-, -, hreturned⟩ := hcalls (below 2) c 0 closure ⟨nameToken "f", none⟩ [] withDeferring
    binding.2 body.1 body.2 rfl hrun
  obtain ⟨hthrough, hstops, hends⟩ := hreturned value (eq_returned hvalue)
  rcases hends with ⟨final, hfinal⟩ | ⟨why, last, hlast⟩
  · have heq := hthrough final hfinal
    have hfinal' : call.2.output = final.output := congrArg (fun r => r.2.output) heq
    exact ⟨hparse, hf, htwo, body.2, final, value, hfinal, heq, hfinal'.symm.trans houtput⟩
  · rw [show call = _ from hstops why last hlast] at hok
    cases hok

end Proofs

end XBase
