import XBase.Proofs.Lawful
import XBase.Proofs.Signals

/-!
# The conduct of lawful code

Code that may run and that starts under a law stays under it, at every moment and however it ends,
and gives lawful values. If it fails because of the types of an operator or of a target, then one
of its nodes has raised the failure, at a moment that the run has passed through. If it fails
because of a `loop` or an `exit`, then there is one in it that no loop takes.
-/

noncomputable section

namespace XBase.Proofs

/-- Something that a program does: it evaluates an expression, writes a value to a target or
executes a statement. -/
inductive Deed where
  | evaluate (expression : Expr)
  | write (target : Expr) (value : Value)
  | execute (statement : Stmt)

namespace Deed

def node : Deed → Node
  | evaluate expression => .value expression
  | write target _ => .target target
  | execute statement => .statement statement

def moments (levels : Nat) (c : Config) (m : Machine) : Deed → List Moment
  | evaluate expression =>
    (evalComposition expression : Composition Signal.maxRounds _).moments levels c m
  | write target value =>
    (assignComposition target value : Composition Signal.maxRounds _).moments levels c m
  | execute statement => (execComposition statement).moments levels c m

end Deed

def isWritable : Value → Value → Bool
  | .array _, .number _ | .scope _, .text _ => true
  | _, _ => false

/-- A deed that starts in a machine and fails by the operator or the target that it is about, after
all that it evaluates has given a value. -/
inductive Raises (c : Config) (levels : Nat) (m : Machine) : Deed → RuntimeError → Prop
  | unary {operator : Token} {right : Expr} {v : Value} {m' : Machine} {fault : Fault}
      (hright : right.eval (below levels) c m = (.ok v, m'))
      (hfault : v.unary operator.category = .error fault) :
      Raises c levels m (.evaluate (.unary operator right)) (.ofToken operator fault)
  | binary {left right : Expr} {operator : Token} {l r : Value} {m' m'' : Machine} {fault : Fault}
      (hleft : left.eval (below levels) c m = (.ok l, m'))
      (hright : Run.holding [l] (right.eval (below levels)) c m' = (.ok r, m''))
      (hfault : m''.heap.binary operator.category l r = .error fault) :
      Raises c levels m (.evaluate (.binary left operator right)) (.ofToken operator fault)
  | update {target value : Expr} {operator : Token} {l r : Value} {m' m'' : Machine} {fault : Fault}
      (hvalue : value.eval (below levels) c { m with steps := m.steps + 1 } = (.ok r, m'))
      (htarget : Run.holding [r] (target.eval (below levels)) c m' = (.ok l, m''))
      (hfault : m''.heap.binary operator.category l r = .error fault) :
      Raises c levels m (.execute (.update operator target value)) (.ofToken operator fault)
  | member {object : Expr} {property : Token} {v o : Value} {m' : Machine}
      (hobject : Run.holding [v] (object.eval (below levels)) c m = (.ok o, m'))
      (hscope : ∀ id, o ≠ .scope id) :
      Raises c levels m (.write (.member object property) v)
        (.ofToken property .invalidMemberTarget)
  | index {object key : Expr} {bracket : Token} {v o k : Value} {m' m'' : Machine}
      (hobject : Run.holding [v] (object.eval (below levels)) c m = (.ok o, m'))
      (hkey : Run.holding [v, o] (key.eval (below levels)) c m' = (.ok k, m''))
      (hwritable : isWritable o k = false) :
      Raises c levels m (.write (.index object bracket key) v)
        (.ofToken bracket .invalidMemberTarget)
  | other {target : Expr} {v : Value} (htarget : target.isTarget = false) :
      Raises c levels m (.write target v) (.ofToken target.token .invalidMemberTarget)

section Runs

variable {rounds : Nat} {α : Type} {x : Invocation → Run α} (levels : Nat) (c : Config)

lemma size_releaseAll (heap : Heap) (id : ScopeId) (targets : List Token) :
    (releaseAll heap id targets).scopes.size = heap.scopes.size := by
  induction targets generalizing heap with
  | nil => rfl
  | cons target targets ih =>
    have hfirst : (heap.release id target.lexeme).scopes.size = heap.scopes.size := by
      rw [release_eq heap id rfl]
      cases heap.owner? id (Text.lower target.lexeme) with
      | none => rfl
      | some owner =>
        rw [Option.map_some, Option.getD_some]
        exact Law.size_modifyBindings owner _
    exact (ih _).trans hfirst

lemma scopes_grow : Preserved fun m m' => m.heap.scopes.size ≤ m'.heap.scopes.size where
  refl _ := Nat.le_refl _
  trans _ _ _ := Nat.le_trans
  change m m' h := by
    cases h with
    | mk heap line log session readings hedits =>
      change m.heap.scopes.size ≤ heap.scopes.size
      induction hedits with
      | refl => exact Nat.le_refl _
      | tail _ hedit ih =>
        refine Nat.le_trans ih ?_
        cases hedit with
        | bind _ _ => exact Nat.le_of_eq (Law.size_modifyBindings _ _).symm
        | newScope parent => simp [Heap.newScope]
        | _ => exact Nat.le_refl _
  count _ := Nat.le_refl _
  release m targets := Nat.le_of_eq (size_releaseAll m.heap m.scope targets).symm
  within _ _ _ h := h
  holding _ _ _ h := h
  deeper _ _ h := h

lemma run_keeps (d : Composition rounds x) (m : Machine) : Kept m (x (below levels) c m).2 :=
  composition_preserves kept_preserved (below_preserves kept_preserved c levels) d m

lemma run_grows (d : Composition rounds x) (m : Machine) :
    m.heap.scopes.size ≤ (x (below levels) c m).2.heap.scopes.size :=
  composition_preserves scopes_grow (below_preserves scopes_grow c levels) d m

/-- The moments of a run end where the run ends. -/
lemma moments_finish (d : Composition rounds x) (m : Machine) :
    finish m (d.moments levels c m) = (x (below levels) c m).2 := by
  have hlimits : Respected ⟨none, c.limits.maxDepth⟩ c := ⟨rfl, fun _ h => by cases h⟩
  have haffordable : ∀ m, Affordable ⟨none, c.limits.maxDepth⟩ m := fun _ _ h => by cases h
  have hcalls : ∀ id site arguments m, Affordable ⟨none, c.limits.maxDepth⟩ m →
      Leads ⟨none, c.limits.maxDepth⟩ m (belowTrace levels id site arguments c m)
        (below levels id site arguments c m) := by
    intro id site arguments m hm
    cases levels with
    | zero => exact ⟨trivial, rfl, fun _ h => by cases h⟩
    | succ levels => exact callTrace_leads hlimits levels id site arguments m hm
  exact (trace_leads hlimits (below_preserves kept_preserved c levels) hcalls d m
    (haffordable m)).finish_eq

end Runs

namespace Law

variable {ω : Type} {c : Config} (law : Law ω c)

/-- The scopes that the machine is in and goes back to are as they may be. -/
def Stack (w : ω) (m : Machine) : Prop :=
  ∀ id ∈ m.scope :: m.saved, law.stands w m.heap.scopes.size id

/-- A machine that is under the law in some world. -/
def Lawful (m : Machine) : Prop :=
  ∃ w, law.Governs w m ∧ law.Stack w m

/-- A body that a `loop` or an `exit` may not leave. -/
def Confines (body : List Stmt) : Prop :=
  law.unit body ∨ ∃ node, law.node node ∧ body ∈ node.bodies

/-- Some body has a `loop` or an `exit` that leaves it and may not. -/
def Strays : Prop :=
  ∃ body jump, law.Confines body ∧ Stmt.anyJumps jump body = true ∧ jump ≠ .giveBack

/-- A failure that a node of the code has raised, at a moment that the run has passed through, or
one for a `loop` or an `exit` that may not be where it is. -/
def Blamed (error : RuntimeError) : Prop :=
  (isMisplaced error.fault = true ∧ law.Strays) ∨
    ∃ m deed levels, law.node deed.node ∧ law.stretch m (deed.moments levels c m) ∧
      Raises c levels m deed error

/-- What lawful code does from a machine on. -/
structure Outcome (levels : Nat) (w : ω) {rounds : Nat} {α : Type} {x : Invocation → Run α}
    (d : Composition rounds x) (m : Machine) (post : Nat → α → Prop) : Prop where
  governs : law.Governs w (x (below levels) c m).2
  result : ∀ a, (x (below levels) c m).1 = .ok a →
    post (x (below levels) c m).2.heap.scopes.size a
  moments : ∀ moment ∈ d.moments levels c m, law.Lawful moment.machine
  blame : ∀ error, (x (below levels) c m).1 = .error (.failure error) →
    isCaused error.fault = true → law.Blamed error

/-- Code that runs lawfully in the scope `s`, from the world `w` to the world `w'`, when there are
`n` scopes or more. -/
def Conducts (levels : Nat) (s : ScopeId) (w w' : ω) (n : Nat) {rounds : Nat} {α : Type}
    {x : Invocation → Run α} (d : Composition rounds x) (post : Nat → α → Prop) : Prop :=
  ∀ m, m.scope = s → n ≤ m.heap.scopes.size → law.Governs w m → law.Stack w' m →
    law.stretch m (d.moments levels c m) → law.Outcome levels w' d m post

section Rules

variable {levels : Nat} {s : ScopeId} {w w' : ω} {n rounds : Nat} {α β : Type}
  {post : Nat → α → Prop} {post' : Nat → β → Prop}

variable {m : Machine} {new parent : ScopeId}

lemma stack_kept {m' : Machine} (h : law.Stack w m) (hkept : Kept m m')
    (hsize : m.heap.scopes.size ≤ m'.heap.scopes.size) : law.Stack w m' := by
  intro id hid
  rw [hkept.scope, hkept.saved] at hid
  exact law.stands_mono hsize (h id hid)

lemma outcome_atom {x : Run α} {h : Atomic x} (hgoverns : law.Governs w (x c m).2)
    (hstack : law.Stack w m) (hsize : m.heap.scopes.size ≤ (x c m).2.heap.scopes.size)
    (hresult : ∀ a, (x c m).1 = .ok a → post (x c m).2.heap.scopes.size a)
    (hblame : ∀ error, (x c m).1 = .error (.failure error) → isCaused error.fault = true →
      law.Blamed error) : law.Outcome levels w (.atom h : Composition rounds _) m post := by
  refine ⟨hgoverns, hresult, fun moment hmoment => ?_, hblame⟩
  have hkept := run_keeps levels c (.atom h : Composition rounds fun _ => x) m
  rw [List.mem_singleton.mp hmoment]
  exact ⟨w, hgoverns, law.stack_kept hstack hkept hsize⟩

lemma conducts_atom {x : Run α} {h : Atomic x} (hx : law.Permits s w n x post) :
    law.Conducts levels s w w n (.atom h : Composition rounds _) post := by
  intro m hs hn hm hstack _
  have hout := hx m hs hn hm
  refine law.outcome_atom hout.governs hstack hout.size hout.result fun error herror htype => ?_
  rw [hout.calm error herror] at htype
  cases htype

lemma conducts_pure {a : α} {h : Atomic (pure a : Run α)} (hpost : ∀ n', n ≤ n' → post n' a) :
    law.Conducts levels s w w n (.atom h : Composition rounds _) post :=
  law.conducts_atom (law.permits_pure hpost)

lemma conducts_stray {body : List Stmt} (hbody : law.Confines body) {jump : Jump}
    (hjump : Stmt.anyJumps jump body = true) (hloop : jump ≠ .giveBack) {token : Token}
    {fault : Fault} (hfault : isMisplaced fault = true) {h : Atomic (Run.fail token fault : Run α)} :
    law.Conducts levels s w w n (.atom h : Composition rounds _) post := by
  intro m _ _ hm hstack _
  refine law.outcome_atom hm hstack (Nat.le_refl _) (fun a ha => ?_) fun error herror _ => ?_
  · cases ha
  · cases herror
    exact .inl ⟨hfault, body, jump, hbody, hjump, hloop⟩

variable {x : Invocation → Run α}

/-- One part after another. The second part may use how the first has ended. -/
lemma outcome_bind {f : Invocation → α → Run β} {d : Composition rounds x}
    {e : ∀ a, Composition rounds fun invoke => f invoke a} (hstack : law.Stack w m)
    (hstretch : law.stretch m ((d.bind e).moments levels c m))
    (hd : law.stretch m (d.moments levels c m) → law.Outcome levels w d m post)
    (he : ∀ a m', x (below levels) c m = (.ok a, m') → m'.scope = m.scope →
      m.heap.scopes.size ≤ m'.heap.scopes.size → law.Governs w m' → law.Stack w m' →
      post m'.heap.scopes.size a → law.stretch m' ((e a).moments levels c m') →
      law.Outcome levels w (e a) m' post') : law.Outcome levels w (d.bind e) m post' := by
  have hkept := run_keeps levels c d m
  have hsize := run_grows levels c d m
  have hfinish := moments_finish levels c d m
  simp only [Composition.moments, Composition.trace] at hstretch
  obtain ⟨hfirst, hsecond⟩ := law.stretch_append hstretch
  have hout := hd hfirst
  rcases h : x (below levels) c m with ⟨why | a, m'⟩
  · have hrun : (x (below levels) >>= f (below levels)) c m = (.error why, m') := bind_error h
    refine ⟨?_, ?_, ?_, ?_⟩
    · rw [hrun]
      have hgoverns := hout.governs
      rwa [h] at hgoverns
    · intro b hb
      rw [hrun] at hb
      cases hb
    · intro moment hmoment
      simp only [Composition.moments, Composition.trace, h, List.append_nil] at hmoment
      exact hout.moments moment hmoment
    · intro error herror
      rw [hrun] at herror
      cases herror
      exact hout.blame error (by rw [h])
  · have hrun : (x (below levels) >>= f (below levels)) c m = f (below levels) a c m' := bind_ok h
    have hgoverns := hout.governs
    have hpost := hout.result a (by rw [h])
    rw [hfinish] at hsecond
    simp only [h] at hsecond
    rw [h] at hkept hsize hgoverns hpost
    have hrest := he a m' h hkept.scope hsize hgoverns (law.stack_kept hstack hkept hsize) hpost
      hsecond
    refine ⟨?_, ?_, ?_, ?_⟩
    · rw [hrun]
      exact hrest.governs
    · intro b hb
      rw [hrun] at hb ⊢
      exact hrest.result b hb
    · intro moment hmoment
      simp only [Composition.moments, Composition.trace, h, List.mem_append] at hmoment
      rcases hmoment with hmoment | hmoment
      · exact hout.moments moment hmoment
      · exact hrest.moments moment hmoment
    · intro error herror
      rw [hrun] at herror
      exact hrest.blame error herror

lemma conducts_bind {f : Invocation → α → Run β} {d : Composition rounds x}
    {e : ∀ a, Composition rounds fun invoke => f invoke a}
    (hd : law.Conducts levels s w w' n d post)
    (he : ∀ n' a, n ≤ n' → post n' a → law.Conducts levels s w' w' n' (e a) post') :
    law.Conducts levels s w w' n (d.bind e) post' := by
  intro m hs hn hm hstack hstretch
  refine law.outcome_bind hstack hstretch (hd m hs hn hm hstack) ?_
  intro a m' _ hscope hsize hgoverns hstack' hpost hstretch'
  exact he _ a (Nat.le_trans hn hsize) hpost m' (hscope.trans hs) (Nat.le_refl _) hgoverns hstack'
    hstretch'

lemma conducts_act {x : Run α} {h : Atomic x} {f : Invocation → α → Run β}
    {e : ∀ a, Composition rounds fun invoke => f invoke a} (hx : law.Permits s w n x post)
    (he : ∀ n' a, n ≤ n' → post n' a → law.Conducts levels s w w n' (e a) post') :
    law.Conducts levels s w w n (.bind (.atom h) e) post' :=
  law.conducts_bind (law.conducts_atom hx) he

lemma conducts_post {d : Composition rounds x} {other : Nat → α → Prop}
    (hd : law.Conducts levels s w w' n d other) (h : ∀ n' a, other n' a → post n' a) :
    law.Conducts levels s w w' n d post := by
  intro m hs hn hm hstack hstretch
  have hout := hd m hs hn hm hstack hstretch
  exact ⟨hout.governs, fun a ha => h _ a (hout.result a ha), hout.moments, hout.blame⟩

/-- What a part gives has every property that all it can give has. -/
lemma conducts_yields {P : α → Prop} {d : Composition rounds x}
    (hd : law.Conducts levels s w w' n d post) (hx : Yields P (x (below levels))) :
    law.Conducts levels s w w' n d fun n' a => post n' a ∧ P a := by
  intro m hs hn hm hstack hstretch
  have hout := hd m hs hn hm hstack hstretch
  exact ⟨hout.governs, fun a ha => ⟨hout.result a ha, hx c m a ha⟩, hout.moments, hout.blame⟩

lemma conducts_ite {y : Invocation → Run α} {p : Prop} [Decidable p] {d : Composition rounds x}
    {e : Composition rounds y} (hd : law.Conducts levels s w w' n d post)
    (he : law.Conducts levels s w w' n e post) :
    law.Conducts levels s w w' n (Composition.ite (p := p) d e) post := by
  rename_i hp
  cases hp with
  | isTrue h => exact hd
  | isFalse h => exact he

lemma conducts_giveUp : law.Conducts levels s w w n (.giveUp : Composition 0 _) post := by
  intro m hs hn hm hstack _
  refine ⟨hm, ?_, ?_, ?_⟩
  · intro a ha
    cases ha
  · intro moment hmoment
    cases hmoment
  · intro error herror
    cases herror

lemma conducts_weaken {more : Nat} {d : Composition more x} (h : rounds ≤ more)
    (hd : law.Conducts levels s w w' n d post) :
    law.Conducts levels s w w' n (.weaken h d) post := by
  intro m hs hn hm hstack hstretch
  have hout := hd m hs hn hm hstack hstretch
  exact ⟨hout.governs, hout.result, hout.moments, hout.blame⟩

lemma outcome_step {d : Composition rounds x} (token : Token) (hm : law.Governs w m)
    (hstack : law.Stack w m)
    (hstretch : law.stretch m ((Composition.step token d).moments levels c m))
    (hd : law.Governs w { m with steps := m.steps + 1 } →
      law.stretch { m with steps := m.steps + 1 }
      (d.moments levels c { m with steps := m.steps + 1 }) →
      law.Outcome levels w d { m with steps := m.steps + 1 } post) :
    law.Outcome levels w (.step token d) m post := by
  have hcounted : law.Governs w { m with steps := m.steps + 1 } :=
    ⟨hm.heap, hm.keep, hm.home, hm.session⟩
  have hlawful : law.Lawful { m with steps := m.steps + 1 } := ⟨w, hcounted, hstack⟩
  rcases step_cases token c m with ⟨hs, _⟩ | ⟨budget, _, _, hs⟩
  · have hrun : (Run.step token >>= fun _ => x (below levels)) c m =
        x (below levels) c { m with steps := m.steps + 1 } := bind_ok hs
    simp only [Composition.moments, Composition.trace, hs] at hstretch
    have hout := hd hcounted (law.stretch_append (s := [_]) hstretch).2
    refine ⟨?_, ?_, ?_, ?_⟩
    · rw [hrun]
      exact hout.governs
    · intro a ha
      rw [hrun] at ha ⊢
      exact hout.result a ha
    · intro moment hmoment
      simp only [Composition.moments, Composition.trace, hs, List.mem_cons] at hmoment
      rcases hmoment with rfl | hmoment
      · exact hlawful
      · exact hout.moments moment hmoment
    · intro error herror
      rw [hrun] at herror
      exact hout.blame error herror
  · have hrun : (Run.step token >>= fun _ => x (below levels)) c m =
        (.error (.failure (.ofToken token (.stepBudgetExceeded budget))),
          { m with steps := m.steps + 1 }) := bind_error hs
    refine ⟨?_, ?_, ?_, ?_⟩
    · rw [hrun]
      exact hcounted
    · intro a ha
      rw [hrun] at ha
      cases ha
    · intro moment hmoment
      simp only [Composition.moments, Composition.trace, hs, List.mem_singleton] at hmoment
      rw [hmoment]
      exact hlawful
    · intro error herror htype
      rw [hrun] at herror
      cases herror
      cases htype

lemma conducts_step {d : Composition rounds x} (token : Token)
    (hd : law.Conducts levels s w w n d post) :
    law.Conducts levels s w w n (.step token d) post := by
  intro m hs hn hm hstack hstretch
  exact law.outcome_step token hm hstack hstretch fun hm' hstretch' =>
    hd { m with steps := m.steps + 1 } hs hn hm' hstack hstretch'

lemma outcome_counted {d : Composition rounds x} (token : Token) (hm : law.Governs w m)
    (hstack : law.Stack w m)
    (hstretch : law.stretch m ((countedComposition token d).moments levels c m))
    (hd : law.Governs w { m with steps := m.steps + 1 } →
      law.stretch { m with steps := m.steps + 1 }
      (d.moments levels c { m with steps := m.steps + 1 }) →
      law.Outcome levels w d { m with steps := m.steps + 1 } post) :
    law.Outcome levels w (countedComposition token d) m post := by
  have hout := law.outcome_step token hm hstack hstretch hd
  exact ⟨hout.governs, hout.result, hout.moments, hout.blame⟩

lemma conducts_counted {d : Composition rounds x} (token : Token)
    (hd : law.Conducts levels s w w n d post) :
    law.Conducts levels s w w n (countedComposition token d) post :=
  law.conducts_weaken _ (law.conducts_step token hd)

lemma obeyed_edits {heap heap' : Heap} (h : law.Obeyed w heap) (hedits : law.Edits w heap heap') :
    law.Obeyed w heap' := by
  induction hedits with
  | refl => exact h
  | tail _ hedit ih => exact law.obeyed_edit ih hedit

lemma edits_releaseAll {heap : Heap} {id : ScopeId} (h : law.Obeyed w heap)
    (hid : law.knows (.scope id)) (targets : List Token) :
    law.Edits w heap (releaseAll heap id targets) := by
  induction targets generalizing heap with
  | nil => exact .refl
  | cons target targets ih =>
    have hfirst := law.edits_release h hid target.lexeme
    exact hfirst.trans (ih (law.obeyed_edits h hfirst))

lemma conducts_release (hs : law.knows (.scope s)) (targets : List Token) :
    law.Conducts levels s w w n (.release targets : Composition rounds _) Any := by
  intro m hscope hn hm hstack _
  have hedits : law.Edits w m.heap (releaseAll m.heap m.scope targets) :=
    law.edits_releaseAll hm.heap (hscope ▸ hs) targets
  have hgoverns := law.governs_edits hm hedits
  refine ⟨hgoverns, fun _ _ => trivial, fun moment hmoment => ?_, ?_⟩
  · rw [List.mem_singleton.mp hmoment]
    refine ⟨w, hgoverns, law.stack_kept hstack ⟨rfl, rfl, rfl, rfl, rfl, rfl⟩ ?_⟩
    exact Nat.le_of_eq (law.size_edits hedits).symm
  · intro error herror
    cases herror

lemma conducts_within {d : Composition rounds x} {id : ScopeId} (hid : law.stands w n id)
    (hd : law.Conducts levels id w w n d post) :
    law.Conducts levels s w w n (.within id d) post := by
  intro m hs hn hm hstack hstretch
  have hinside : law.Governs w { m with scope := id, saved := m.scope :: m.saved } :=
    ⟨hm.heap, hm.keep, hm.home, hm.session⟩
  have hstack' : law.Stack w { m with scope := id, saved := m.scope :: m.saved } := by
    intro other hother
    rcases List.mem_cons.mp hother with rfl | hother
    · exact law.stands_mono hn hid
    · exact hstack other hother
  have hsplit := law.stretch_append (s := [_]) hstretch
  have hout := hd { m with scope := id, saved := m.scope :: m.saved } rfl hn hinside hstack'
    (law.stretch_append hsplit.2).1
  have hgoverns : law.Governs w (Run.within id (x (below levels)) c m).2 :=
    ⟨hout.governs.heap, hout.governs.keep, hout.governs.home, hout.governs.session⟩
  refine ⟨hgoverns, hout.result, fun moment hmoment => ?_, hout.blame⟩
  rcases List.mem_append.mp hmoment with hmoment | hlast
  · rcases List.mem_cons.mp hmoment with rfl | hmoment
    · exact ⟨w, hinside, hstack'⟩
    · exact hout.moments moment hmoment
  · rw [List.mem_singleton.mp hlast]
    refine ⟨w, hgoverns, law.stack_kept hstack ?_ ?_⟩
    · exact run_keeps levels c (.within id d) m
    · exact run_grows levels c (.within id d) m

lemma conducts_holding {d : Composition rounds x} {cells : List Cell}
    (hd : law.Conducts levels s w w n d post) :
    law.Conducts levels s w w n (.holding cells d) post := by
  intro m hs hn hm hstack hstretch
  have hinside : law.Governs w { m with held := cells ++ m.held } :=
    ⟨hm.heap, hm.keep, hm.home, hm.session⟩
  have hsplit := law.stretch_append (s := [_]) hstretch
  have hout := hd { m with held := cells ++ m.held } hs hn hinside hstack
    (law.stretch_append hsplit.2).1
  have hgoverns : law.Governs w (Run.holdingCells cells (x (below levels)) c m).2 :=
    ⟨hout.governs.heap, hout.governs.keep, hout.governs.home, hout.governs.session⟩
  refine ⟨hgoverns, hout.result, fun moment hmoment => ?_, hout.blame⟩
  rcases List.mem_append.mp hmoment with hmoment | hlast
  · rcases List.mem_cons.mp hmoment with rfl | hmoment
    · exact ⟨w, hinside, hstack⟩
    · exact hout.moments moment hmoment
  · rw [List.mem_singleton.mp hlast]
    refine ⟨w, hgoverns, law.stack_kept hstack ?_ ?_⟩
    · exact run_keeps levels c (.holding cells d) m
    · exact run_grows levels c (.holding cells d) m

lemma stack_grow (h : law.Stack w m) : law.Stack (law.grow w new) m :=
  fun id hid => law.stands_grow (h id hid)

lemma governs_shrink (h : law.Governs (law.grow w new) m) : law.Governs w m :=
  ⟨law.obeyed_shrink h.heap, law.keep_shrink h.keep, h.home, h.session⟩

lemma conducts_leave {d : Composition rounds x} {other : Nat → α → Prop}
    (hd : law.Conducts levels s (law.grow w new) (law.grow w new) n d other)
    (h : ∀ n' a, other n' a → post n' a) : law.Conducts levels s (law.grow w new) w n d post := by
  intro m hs hn hm hstack hstretch
  have hout := hd m hs hn hm (law.stack_grow hstack) hstretch
  exact ⟨law.governs_shrink hout.governs, fun a ha => h _ a (hout.result a ha), hout.moments,
    hout.blame⟩

lemma governs_newScope (hm : law.Governs w m) (hparent : law.place m.heap.scopes.size parent) :
    law.Governs (law.grow w m.heap.scopes.size)
      { m with heap := (m.heap.newScope (some parent)).2 } :=
  ⟨law.obeyed_grow hm.heap hparent, law.keep_grow hm.keep hparent, hm.home, hm.session⟩

/-- A new scope is under way until the rest of the part has ended. -/
lemma outcome_newScope {f : Invocation → ScopeId → Run β}
    {e : ∀ id, Composition rounds fun invoke => f invoke id} (hm : law.Governs w m)
    (hstack : law.Stack w m) (hparent : law.place m.heap.scopes.size parent)
    (hstretch : law.stretch m ((Composition.bind (newScopeComposition parent) e).moments levels c
      m))
    (he : law.Conducts levels m.scope (law.grow w m.heap.scopes.size) w (m.heap.scopes.size + 1)
      (e m.heap.scopes.size) post') :
    law.Outcome levels w (.bind (newScopeComposition parent) e) m post' := by
  have hgrown := law.governs_newScope hm hparent
  have hsize : (m.heap.newScope (some parent)).2.scopes.size = m.heap.scopes.size + 1 := by
    simp [Heap.newScope]
  have hstack' : law.Stack w { m with heap := (m.heap.newScope (some parent)).2 } := by
    refine law.stack_kept hstack ⟨rfl, rfl, rfl, rfl, rfl, rfl⟩ ?_
    change m.heap.scopes.size ≤ (m.heap.newScope (some parent)).2.scopes.size
    omega
  have hout := he { m with heap := (m.heap.newScope (some parent)).2 } rfl
    (Nat.le_of_eq hsize.symm) hgrown hstack' (law.stretch_append (s := [_]) hstretch).2
  refine ⟨hout.governs, hout.result, fun moment hmoment => ?_, hout.blame⟩
  rcases List.mem_append.mp hmoment with hmoment | hmoment
  · rw [List.mem_singleton.mp hmoment]
    exact ⟨law.grow w m.heap.scopes.size, hgrown, law.stack_grow hstack'⟩
  · exact hout.moments moment hmoment

lemma conducts_newScope {f : Invocation → ScopeId → Run β}
    {e : ∀ id, Composition rounds fun invoke => f invoke id} (hparent : law.place n parent)
    (he : ∀ id, n ≤ id → law.place (id + 1) id → law.opens id →
      law.stands (law.grow w id) (id + 1) id →
      law.Conducts levels s (law.grow w id) w (id + 1) (e id) post') :
    law.Conducts levels s w w n (.bind (newScopeComposition parent) e) post' := by
  intro m hs hn hm hstack hstretch
  have hplace := law.place_mono hn hparent
  refine law.outcome_newScope hm hstack hplace hstretch ?_
  rw [hs]
  exact he m.heap.scopes.size hn (law.place_new hm.keep hplace) (law.opens_new hm.keep hplace)
    (law.stands_new hm.keep hplace)

end Rules

end Law

end XBase.Proofs

end
