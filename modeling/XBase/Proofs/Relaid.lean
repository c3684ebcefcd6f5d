import XBase.Proofs.Ownership
import XBase.Proofs.Relocation
import XBase.Run.Unit

/-!
# Code in another layout

Two programs may be the same but for the places of their tokens, and so may the code that two
machines hold. Everything that a machine can do at once, it does in the same way in both: it finds
the same names and values, writes and prints the same, and fails for the same reason at the same
word, only in another place.
-/

namespace XBase

section Code

/-- The same token, perhaps in another place. -/
structure Token.Relaid (a b : Token) : Prop where
  kind : b.kind = a.kind
  category : b.category = a.category
  lexeme : b.lexeme = a.lexeme
  literal : b.literal = a.literal

abbrev Expr.Relaid : Expr → Expr → Prop :=
  Expr.Moved Token.Relaid

abbrev Stmt.Relaid : Stmt → Stmt → Prop :=
  Stmt.Moved Token.Relaid fun _ => none

/-- The same declaration in another layout, in the same scope. -/
structure Closure.Relaid (f f' : Closure) : Prop where
  declaration : FunctionDecl.Moved Token.Relaid Stmt.Relaid f.declaration f'.declaration
  scope : f'.scope = f.scope

/-- The same declaration in another layout, which extends the same class. -/
structure ClassCell.Relaid (cell cell' : ClassCell) : Prop where
  declaration : ClassDecl.Moved Token.Relaid Stmt.Relaid cell.declaration cell'.declaration
  superclass : cell'.superclass = cell.superclass

structure CallSite.Relaid (site site' : CallSite) : Prop where
  token : site.token.Relaid site'.token
  member : site'.member = site.member

structure ArgumentValue.Relaid (a b : ArgumentValue) : Prop where
  token : a.token.Relaid b.token
  label : b.label = a.label
  value : b.value = a.value

end Code

section State

/-- The same cells, with the code of functions and classes in another layout. -/
structure Heap.Relaid (heap heap' : Heap) : Prop where
  scopes : heap'.scopes = heap.scopes
  arrays : heap'.arrays = heap.arrays
  functions : List.Forall₂ Closure.Relaid heap.functions.toList heap'.functions.toList
  classes : List.Forall₂ ClassCell.Relaid heap.classes.toList heap'.classes.toList
  cursors : heap'.cursors = heap.cursors

/-- The same state of a session, with code in another layout. What was recorded may differ. -/
structure Machine.Relaid (m m' : Machine) : Prop where
  heap : m.heap.Relaid m'.heap
  globals : m'.globals = m.globals
  connection : m'.connection = m.connection
  scope : m'.scope = m.scope
  saved : m'.saved = m.saved
  held : m'.held = m.held
  depth : m'.depth = m.depth
  steps : m'.steps = m.steps
  output : m'.output = m.output
  session : m'.session = m.session
  readings : m'.readings = m.readings

/-- The same error, perhaps in another place. -/
structure RuntimeError.Relaid (error error' : RuntimeError) : Prop where
  lexeme : error'.lexeme = error.lexeme
  fault : error'.fault = error.fault

inductive Halt.Relaid : Halt → Halt → Prop
  | failure {error error' : RuntimeError} (h : error.Relaid error') :
      Halt.Relaid (.failure error) (.failure error')
  | exhausted : Halt.Relaid .exhausted .exhausted

/-- Outcomes that differ in their layout only. What they give is related by `R`. -/
inductive SameOutcome {α β : Type} (R : α → β → Prop) :
    Except Halt α × Machine → Except Halt β × Machine → Prop
  | ok {a : α} {b : β} {m m' : Machine} (h : R a b) (hm : m.Relaid m') :
      SameOutcome R (.ok a, m) (.ok b, m')
  | error {why why' : Halt} {m m' : Machine} (h : why.Relaid why') (hm : m.Relaid m') :
      SameOutcome R (.error why, m) (.error why', m')

/-- Actions with related outcomes, if they start from machines that differ in their layout only. -/
def Run.Relaid {α β : Type} (R : α → β → Prop) (x : Run α) (y : Run β) : Prop :=
  ∀ c m m', m.Relaid m' → SameOutcome R (x c m) (y c m')

/-- Calls with the same outcomes for the same calls from other places. -/
def Invocation.Relaid (invoke invoke' : Invocation) : Prop :=
  ∀ id site site' arguments arguments', site.Relaid site' →
    List.Forall₂ ArgumentValue.Relaid arguments arguments' →
    Run.Relaid Eq (invoke id site arguments) (invoke' id site' arguments')

def Heap.withCode (heap : Heap) (functions : Array Closure) (classes : Array ClassCell) : Heap :=
  { heap with functions, classes }

/-- A change of the heap that neither sees nor changes the code in it. -/
def CodeBlind {α : Type} (f : Heap → α × Heap) : Prop :=
  ∀ heap functions classes, f (heap.withCode functions classes) =
    ((f heap).1, (f heap).2.withCode functions classes)

end State

namespace Proofs

section Pairs

variable {α β : Type} {R : α → β → Prop} {items : List α} {items' : List β}

lemma rel_getElem? (h : List.Forall₂ R items items') (i : Nat) :
    Option.Rel R items[i]? items'[i]? := by
  induction h generalizing i with
  | nil => exact .none
  | cons h _ ih =>
    cases i with
    | zero => exact .some h
    | succ i => simpa using ih i

lemma rel_find? {p : α → Bool} {q : β → Bool} (h : List.Forall₂ R items items')
    (hp : ∀ a b, R a b → q b = p a) : Option.Rel R (items.find? p) (items'.find? q) := by
  induction h with
  | nil => exact .none
  | @cons a b _ _ hab _ ih =>
    simp only [List.find?_cons, hp a b hab]
    cases p a with
    | true => exact .some hab
    | false => exact ih

lemma map_eq_of_rel {γ : Type} {f : α → γ} {g : β → γ} {a : Option α} {b : Option β}
    (h : Option.Rel R a b) (hfg : ∀ a b, R a b → g b = f a) : b.map g = a.map f := by
  cases h with
  | none => rfl
  | some h => exact congrArg some (hfg _ _ h)

lemma map_snd_zip {γ : Type} (h : List.Forall₂ R items items') (values : List γ) :
    (items'.zip values).map Prod.snd = (items.zip values).map Prod.snd := by
  induction h generalizing values with
  | nil => rfl
  | cons _ _ ih =>
    cases values with
    | nil => rfl
    | cons value values => simp only [List.zip_cons_cons, List.map_cons, ih values]

end Pairs

section Cells

variable {heap heap' : Heap}

lemma eq_withCode (h : heap.Relaid heap') :
    heap' = heap.withCode heap'.functions heap'.classes := by
  obtain ⟨_, _, _, _, _⟩ := heap'
  obtain ⟨hscopes, harrays, -, -, hcursors⟩ := h
  simp only at hscopes harrays hcursors
  rw [hscopes, harrays, hcursors]
  rfl

lemma own?_withCode (functions : Array Closure) (classes : Array ClassCell) (id : ScopeId)
    (key : String) : (heap.withCode functions classes).own? id key = heap.own? id key :=
  rfl

lemma owner?_withCode (functions : Array Closure) (classes : Array ClassCell) (id : ScopeId)
    (key : String) : (heap.withCode functions classes).owner? id key = heap.owner? id key := by
  apply owner?_congr <;> exact fun _ => rfl

/-- A change that is blind for code keeps the code as it is. -/
lemma relaid_of_blind {α : Type} {f : Heap → α × Heap} (hf : CodeBlind f)
    (h : heap.Relaid heap') : (f heap').1 = (f heap).1 ∧ (f heap).2.Relaid (f heap').2 := by
  have hself : f heap = ((f heap).1, (f heap).2.withCode heap.functions heap.classes) :=
    hf heap heap.functions heap.classes
  have hother : f heap' = ((f heap).1, (f heap).2.withCode heap'.functions heap'.classes) := by
    conv_lhs => rw [eq_withCode h]
    exact hf heap heap'.functions heap'.classes
  rw [hother]
  refine ⟨rfl, ?_⟩
  rw [hself]
  exact ⟨rfl, rfl, h.functions, h.classes, rfl⟩

lemma function_relaid (h : heap.Relaid heap') (id : FunctionId) :
    Option.Rel Closure.Relaid heap.functions[id]? heap'.functions[id]? := by
  simpa using rel_getElem? h.functions id

lemma class_relaid (h : heap.Relaid heap') (id : ClassId) :
    Option.Rel ClassCell.Relaid heap.classes[id]? heap'.classes[id]? := by
  simpa using rel_getElem? h.classes id

end Cells

section Names

lemma blind_newScope (parent : Option ScopeId) : CodeBlind fun heap => heap.newScope parent :=
  fun _ _ _ => rfl

lemma blind_newArray (elements : Array Value) : CodeBlind fun heap => heap.newArray elements :=
  fun _ _ _ => rfl

lemma blind_newCursor (rows : List Row) : CodeBlind fun heap => heap.newCursor rows :=
  fun _ _ _ => rfl

lemma blind_updateElements {α : Type} (id : ArrayId) (f : Elements → α × Elements) :
    CodeBlind fun heap => heap.updateElements id f :=
  fun _ _ _ => rfl

lemma blind_define (id : ScopeId) (name : String) (value : Value) (kind : BindingKind) :
    CodeBlind fun heap => heap.define id name value kind := by
  intro heap functions classes
  simp only [Heap.define, own?_withCode]
  split <;> rfl

lemma blind_assignOwn (id : ScopeId) (name : String) (value : Value) :
    CodeBlind fun heap => heap.assignOwn id name value := by
  intro heap functions classes
  simp only [Heap.assignOwn, own?_withCode]
  split <;> rfl

lemma blind_assign (id : ScopeId) (name : String) (value : Value) :
    CodeBlind fun heap => heap.assign id name value := by
  intro heap functions classes
  simp only [assign_eq, owner?_withCode]
  exact blind_assignOwn _ name value heap functions classes

lemma blind_release (id : ScopeId) (name : String) :
    CodeBlind fun heap => ((), heap.release id name) := by
  intro heap functions classes
  simp only [release_eq _ _ rfl, owner?_withCode]
  cases heap.owner? id (Text.lower name) <;> rfl

variable {heap heap' : Heap} (h : heap.Relaid heap')

include h

lemma lookup_relaid (id : ScopeId) (name : String) :
    heap'.lookup id name = heap.lookup id name := by
  rw [eq_withCode h]
  simp only [Heap.lookup, get_eq, owner?_withCode]
  rfl

lemma kindOf_relaid (id : ScopeId) (name : String) :
    heap'.kindOf id name = heap.kindOf id name := by
  rw [eq_withCode h]
  simp only [kindOf_eq _ _ rfl, owner?_withCode]
  rfl

end Names

section Reading

lemma arity_relaid {cell cell' : ClassCell} (h : cell.Relaid cell') : cell'.arity = cell.arity := by
  obtain ⟨⟨_, _, _, _, methods⟩, _⟩ := cell
  obtain ⟨⟨_, _, _, _, methods'⟩, _⟩ := cell'
  obtain ⟨⟨-, -, -, -, hmethods⟩, -⟩ := h
  have hinit := rel_find? (p := fun method => Text.sameUpToAsciiCase method.name.lexeme "init")
    (q := fun method => Text.sameUpToAsciiCase method.name.lexeme "init") hmethods
    fun f f' hf => by
      obtain ⟨-, hname, -, -, -⟩ := hf
      simp only [hname.lexeme]
  unfold ClassCell.arity
  dsimp only
  rw [map_eq_of_rel hinit]
  rintro f f' ⟨-, -, hparameters, -, -⟩
  exact hparameters.length_eq.symm

variable {heap heap' : Heap} (h : heap.Relaid heap')

include h

lemma functionName_relaid (id : FunctionId) : heap'.functionName id = heap.functionName id := by
  unfold Heap.functionName
  rw [map_eq_of_rel (function_relaid h id)]
  rintro ⟨_, _⟩ ⟨_, _⟩ ⟨⟨-, hname, -, -, -⟩, -⟩
  exact hname.lexeme

lemma className_relaid (id : ClassId) : heap'.className id = heap.className id := by
  unfold Heap.className
  rw [map_eq_of_rel (class_relaid h id)]
  rintro ⟨_, _⟩ ⟨_, _⟩ ⟨⟨-, hname, -, -, -⟩, -⟩
  exact hname.lexeme

lemma signature?_relaid (value : Value) : heap'.signature? value = heap.signature? value := by
  cases value with
  | array id => simp only [Heap.signature?, Heap.elements, h.arrays]
  | function id =>
    refine map_eq_of_rel (function_relaid h id) ?_
    rintro ⟨_, _⟩ ⟨_, _⟩ ⟨⟨-, hname, hparameters, -, -⟩, -⟩
    simp only [hname.lexeme, hparameters.length_eq]
  | classRef id =>
    refine map_eq_of_rel (class_relaid h id) fun cell cell' hcell => ?_
    rw [arity_relaid hcell]
    obtain ⟨_, _⟩ := cell
    obtain ⟨_, _⟩ := cell'
    obtain ⟨⟨-, hname, -, -, -⟩, -⟩ := hcell
    simp only [hname.lexeme]
  | _ => rfl

lemma render_relaid (depth : Nat) (path : List Container) (value : Value) :
    heap'.render depth path value = heap.render depth path value := by
  induction depth generalizing path value with
  | zero =>
    cases value <;> simp only [Heap.render, functionName_relaid h, className_relaid h, h.cursors]
  | succ depth ih =>
    have ih : ∀ path, heap'.render depth path = heap.render depth path := fun path =>
      funext (ih path)
    cases value <;> simp only [Heap.render, functionName_relaid h, className_relaid h, h.cursors,
      Heap.elements, h.arrays, Heap.entries, h.scopes, ih]

lemma text_relaid (value : Value) : heap'.text value = heap.text value := by
  simp only [Heap.text, Heap.containers, h.arrays, h.scopes, render_relaid h]

lemma references_relaid : heap'.references = heap.references := by
  funext cell
  cases cell with
  | array id => simp only [Heap.references, h.arrays]
  | scope id => simp only [Heap.references, h.scopes]
  | function id =>
    refine congrArg Option.toList (map_eq_of_rel (function_relaid h id) ?_)
    rintro f f' hf
    rw [hf.scope]
  | cursor id => simp only [Heap.references, h.cursors]

lemma cells_relaid : heap'.cells = heap.cells := by
  have hsize : heap'.functions.size = heap.functions.size := by
    simpa using h.functions.length_eq.symm
  simp only [Heap.cells, h.arrays, h.scopes, hsize, h.cursors]

lemma spread_relaid (fuel : Nat) (pending seen : List Cell) :
    heap'.spread fuel pending seen = heap.spread fuel pending seen := by
  induction fuel generalizing pending seen with
  | zero => rfl
  | succ fuel ih =>
    cases pending with
    | nil => rfl
    | cons cell pending => simp only [Heap.spread, references_relaid h, ih]

lemma holds_relaid (roots : List Cell) (target : Cell) :
    heap'.holds roots target = heap.holds roots target := by
  have hreachable : heap'.reachable = heap.reachable := by
    funext start
    simp only [Heap.reachable, Heap.referenceCount, cells_relaid h, references_relaid h,
      spread_relaid h]
  simp only [Heap.holds, Heap.onCircle, cells_relaid h, references_relaid h, hreachable]

lemma settings_relaid (id : ScopeId) :
    Connection.settings heap' id = Connection.settings heap id := by
  simp only [Connection.settings, Connection.setting, lookup_relaid h, text_relaid h]

lemma binary_relaid (operator : Category) (left right : Value) :
    heap'.binary operator left right = heap.binary operator left right := by
  have hadd : heap'.add left right = heap.add left right := by
    unfold Heap.add Heap.addend
    simp only [text_relaid h]
  unfold Heap.binary
  rw [hadd]

end Reading

variable {token token' : Token} {site site' : CallSite} {arguments arguments' : List ArgumentValue}
  {argument argument' : ArgumentValue}

section Actions

variable {α β γ δ : Type} {R : α → β → Prop} {S : γ → δ → Prop}

lemma machine_of_sameOutcome {outcome : Except Halt α × Machine}
    {outcome' : Except Halt β × Machine} (h : SameOutcome R outcome outcome') :
    outcome.2.Relaid outcome'.2 := by
  cases h with
  | ok _ hm => exact hm
  | error _ hm => exact hm

lemma relaid_pure {a : α} {b : β} (h : R a b) : Run.Relaid R (pure a) (pure b) :=
  fun _ _ _ hm => .ok h hm

variable {x : Run α} {y : Run β}

lemma relaid_bind {f : α → Run γ} {g : β → Run δ} (h : Run.Relaid R x y)
    (hfg : ∀ a b, R a b → Run.Relaid S (f a) (g b)) : Run.Relaid S (x >>= f) (y >>= g) := by
  intro c m m' hm
  have hxy := h c m m' hm
  change SameOutcome S (Run.bind x f c m) (Run.bind y g c m')
  unfold Run.bind
  generalize x c m = first at hxy ⊢
  generalize y c m' = second at hxy ⊢
  cases hxy with
  | ok h hm => exact hfg _ _ h c _ _ hm
  | error h hm => exact .error h hm

/-- Where both give the same, both go on from it. -/
lemma relaid_bind_same {y : Run α} {f : α → Run γ} {g : α → Run δ} (h : Run.Relaid Eq x y)
    (hfg : ∀ a, Run.Relaid S (f a) (g a)) : Run.Relaid S (x >>= f) (y >>= g) :=
  relaid_bind h fun a _ hab => hab ▸ hfg a

lemma relaid_ite {p : Prop} [Decidable p] {x' : Run α} {y' : Run β} (h : Run.Relaid R x y)
    (h' : Run.Relaid R x' y') : Run.Relaid R (if p then x else x') (if p then y else y') := by
  split
  · exact h
  · exact h'

lemma relaid_exhausted : Run.Relaid R (Run.halt .exhausted) (Run.halt .exhausted) :=
  fun _ _ _ hm => .error .exhausted hm

lemma relaid_fail (h : token.Relaid token') (fault : Fault) :
    Run.Relaid R (Run.fail token fault) (Run.fail token' fault) :=
  fun _ _ _ hm => .error (.failure ⟨h.lexeme, rfl⟩) hm

lemma relaid_lift (h : token.Relaid token') (result : Except Fault α) :
    Run.Relaid Eq (Run.lift token result) (Run.lift token' result) := by
  cases result with
  | ok a => exact relaid_pure rfl
  | error fault => exact relaid_fail h fault

lemma relaid_config : Run.Relaid Eq Run.config Run.config :=
  fun _ _ _ hm => .ok rfl hm

lemma relaid_machine : Run.Relaid Machine.Relaid Run.machine Run.machine :=
  fun _ _ _ hm => .ok hm hm

lemma relaid_heap : Run.Relaid Heap.Relaid Run.heap Run.heap :=
  fun _ _ _ hm => .ok hm.heap hm

lemma relaid_scope : Run.Relaid Eq Run.scope Run.scope :=
  fun _ _ _ hm => .ok hm.scope.symm hm

lemma relaid_modify {f g : Machine → Machine} (h : ∀ m m', m.Relaid m' → (f m).Relaid (g m')) :
    Run.Relaid Eq (Run.modify f) (Run.modify g) :=
  fun _ _ _ hm => .ok rfl (h _ _ hm)

lemma relaid_allocate {f : Heap → α × Heap} (hf : CodeBlind f) :
    Run.Relaid Eq (Run.allocate f) (Run.allocate f) := by
  intro c m m' hm
  obtain ⟨hvalue, hheap⟩ := relaid_of_blind hf hm.heap
  exact .ok hvalue.symm { hm with heap := hheap }

lemma relaid_record (level level' : Level) (text text' : String) :
    Run.Relaid Eq (Run.record level text) (Run.record level' text') :=
  relaid_modify fun _ _ hm => { hm with }

lemma relaid_text (value : Value) : Run.Relaid Eq (Run.text value) (Run.text value) :=
  relaid_bind relaid_heap fun _ _ h => relaid_pure (text_relaid h value).symm

lemma relaid_lookup (h : token.Relaid token') (id : ScopeId) (name : String) :
    Run.Relaid Eq (Run.lookup id name token) (Run.lookup id name token') := by
  refine relaid_bind relaid_heap fun _ _ hheap => ?_
  rw [lookup_relaid hheap]
  exact relaid_lift h _

lemma relaid_rebind (h : token.Relaid token') {f : Heap → Except ScopeError Unit × Heap}
    (hf : CodeBlind f) : Run.Relaid Eq (Run.rebind token f) (Run.rebind token' f) :=
  relaid_bind_same (relaid_allocate hf) fun _ => relaid_lift h _

lemma relaid_define {name name' : Token} (h : name.Relaid name') (id : ScopeId) (value : Value)
    (kind : BindingKind) :
    Run.Relaid Eq (Run.define id name value kind) (Run.define id name' value kind) := by
  unfold Run.define
  rw [h.lexeme]
  exact relaid_rebind h (blind_define id name.lexeme value kind)

lemma relaid_step (h : token.Relaid token') : Run.Relaid Eq (Run.step token) (Run.step token') := by
  refine relaid_bind_same (relaid_modify fun m m' hm => ?_) fun _ =>
    relaid_bind_same relaid_config fun c => ?_
  · exact { hm with steps := congrArg (· + 1) hm.steps }
  · split
    · refine relaid_bind relaid_machine fun m m' hm => ?_
      rw [hm.steps]
      exact relaid_ite (relaid_fail h _) (relaid_pure rfl)
    · exact relaid_pure rfl

lemma relaid_within (id : ScopeId) (h : Run.Relaid R x y) :
    Run.Relaid R (Run.within id x) (Run.within id y) := by
  intro c m m' hm
  have hinside : Machine.Relaid { m with scope := id, saved := m.scope :: m.saved }
      { m' with scope := id, saved := m'.scope :: m'.saved } :=
    { hm with scope := rfl, saved := by rw [hm.scope, hm.saved] }
  have hxy := h c _ _ hinside
  unfold Run.within
  generalize x c _ = first at hxy ⊢
  generalize y c _ = second at hxy ⊢
  cases hxy with
  | ok h hafter => exact .ok h { hafter with scope := hm.scope, saved := hm.saved }
  | error h hafter => exact .error h { hafter with scope := hm.scope, saved := hm.saved }

lemma relaid_holdingCells (cells : List Cell) (h : Run.Relaid R x y) :
    Run.Relaid R (Run.holdingCells cells x) (Run.holdingCells cells y) := by
  intro c m m' hm
  have hinside : Machine.Relaid { m with held := cells ++ m.held }
      { m' with held := cells ++ m'.held } :=
    { hm with held := by rw [hm.held] }
  have hxy := h c _ _ hinside
  unfold Run.holdingCells
  generalize x c _ = first at hxy ⊢
  generalize y c _ = second at hxy ⊢
  cases hxy with
  | ok h hafter => exact .ok h { hafter with held := hm.held }
  | error h hafter => exact .error h { hafter with held := hm.held }

lemma relaid_holding (values : List Value) (h : Run.Relaid R x y) :
    Run.Relaid R (Run.holding values x) (Run.holding values y) :=
  relaid_holdingCells _ h

lemma relaid_deeper (htoken : token.Relaid token') (h : Run.Relaid R x y) :
    Run.Relaid R (Run.deeper token x) (Run.deeper token' y) := by
  intro c m m' hm
  have hinside : Machine.Relaid { m with depth := m.depth + 1 } { m' with depth := m'.depth + 1 } :=
    { hm with depth := by rw [hm.depth] }
  have hxy := h c _ _ hinside
  unfold Run.deeper
  rw [hm.depth] at hxy ⊢
  split
  · exact .error (.failure ⟨htoken.lexeme, rfl⟩) hm
  · generalize x c _ = first at hxy ⊢
    generalize y c _ = second at hxy ⊢
    cases hxy with
    | ok h hafter => exact .ok h { hafter with depth := by rw [hafter.depth] }
    | error h hafter => exact .error h { hafter with depth := by rw [hafter.depth] }

lemma relaid_print (h : token.Relaid token') (line : String) :
    Run.Relaid Eq (Run.print token line) (Run.print token' line) := by
  refine relaid_bind_same relaid_config fun c => ?_
  split
  · exact relaid_fail h _
  · exact relaid_modify fun m m' hm => { hm with output := by rw [hm.output] }

lemma relaid_now : Run.Relaid Eq Run.now Run.now := by
  refine relaid_bind relaid_machine fun m m' hm => ?_
  rw [hm.readings]
  exact relaid_bind_same (relaid_modify fun _ _ h => { h with readings := rfl }) fun _ =>
    relaid_bind_same relaid_config fun _ => relaid_pure rfl

end Actions

section Arrays

variable {α β : Type} {R : α → β → Prop}

lemma relaid_allocate_bind {γ δ : Type} {f : Heap → α × Heap} {g : Heap → β × Heap}
    {k : α → Run γ} {k' : β → Run δ} {S : γ → δ → Prop}
    (h : ∀ heap heap', heap.Relaid heap' → (f heap).2.Relaid (g heap').2 ∧
      Run.Relaid S (k (f heap).1) (k' (g heap').1)) :
    Run.Relaid S (Run.allocate f >>= k) (Run.allocate g >>= k') := by
  intro c m m' hm
  obtain ⟨hheap, hk⟩ := h _ _ hm.heap
  exact hk c _ _ { hm with heap := hheap }

lemma relaid_mismatch (hsite : site.Relaid site') (expected : Nat)
    (harguments : List.Forall₂ ArgumentValue.Relaid arguments arguments') :
    Run.Relaid Eq (Run.ofResult (Elements.mismatch site expected arguments))
      (Run.ofResult (Elements.mismatch site' expected arguments')) := by
  unfold Elements.mismatch
  rw [harguments.length_eq]
  exact relaid_fail hsite.token _

lemma relaid_ofToken (h : token.Relaid token') (result : Except Fault Value) :
    Run.Relaid Eq (Run.ofResult (result.mapError (.ofToken token)))
      (Run.ofResult (result.mapError (.ofToken token'))) := by
  cases result with
  | ok value => exact relaid_pure rfl
  | error fault => exact relaid_fail h fault

lemma relaid_one_left (h : List.Forall₂ ArgumentValue.Relaid [argument] arguments') :
    ∃ argument', argument.Relaid argument' ∧ arguments' = [argument'] := by
  simp only [List.forall₂_cons_left_iff, List.forall₂_nil_left_iff] at h
  obtain ⟨argument', _, hargument, rfl, rfl⟩ := h
  exact ⟨argument', hargument, rfl⟩

lemma relaid_two_left {first second : ArgumentValue}
    (h : List.Forall₂ ArgumentValue.Relaid [first, second] arguments') :
    ∃ first' second', first.Relaid first' ∧ second.Relaid second' ∧
      arguments' = [first', second'] := by
  simp only [List.forall₂_cons_left_iff, List.forall₂_nil_left_iff] at h
  obtain ⟨first', _, hfirst, ⟨second', _, hsecond, rfl, rfl⟩, rfl⟩ := h
  exact ⟨first', second', hfirst, hsecond, rfl⟩

lemma index_relaid (h : argument.Relaid argument') {index : Float}
    (hindex : Elements.index argument = .ok index) : Elements.index argument' = .ok index := by
  unfold Elements.index at hindex ⊢
  rw [h.value]
  split at hindex
  · exact hindex
  · cases hindex

lemma index_error_relaid (h : argument.Relaid argument') {error : RuntimeError}
    (hindex : Elements.index argument = .error error) :
    ∃ error', Elements.index argument' = .error error' ∧ error.Relaid error' := by
  unfold Elements.index at hindex ⊢
  rw [h.value]
  split at hindex
  · cases hindex
  · cases hindex
    exact ⟨_, rfl, h.token.lexeme, rfl⟩

lemma relaid_failure {error error' : RuntimeError} (h : error.Relaid error') :
    Run.Relaid R (Run.ofResult (.error error)) (Run.ofResult (.error error')) :=
  fun _ _ _ hm => .error (.failure h) hm

/-- A method of an array does the same with the same arguments. -/
lemma call_relaid (hsite : site.Relaid site')
    (harguments : List.Forall₂ ArgumentValue.Relaid arguments arguments') (elements : Elements) :
    (elements.call site' arguments').2 = (elements.call site arguments).2 ∧
      Run.Relaid Eq (Run.ofResult (elements.call site arguments).1)
        (Run.ofResult (elements.call site' arguments').1) := by
  have hmethod : site'.method = site.method := by simp only [CallSite.method, hsite.member]
  have hlength := harguments.length_eq
  -- One run tells the case; the other is in the same one, since it has the same method and values.
  fun_cases Elements.call elements site arguments
  case case1 argument hname | case6 argument hname =>
    obtain ⟨argument', h, rfl⟩ := relaid_one_left harguments
    unfold Elements.call
    simp only [hmethod, hname, h.value]
    exact ⟨trivial, relaid_pure rfl⟩
  case case3 argument hname place hplace | case16 argument hname place hplace
      | case4 argument hname hplace | case17 argument hname hplace =>
    obtain ⟨argument', h, rfl⟩ := relaid_one_left harguments
    unfold Elements.call
    simp only [hmethod, hname, h.value, hplace]
    exact ⟨trivial, relaid_pure rfl⟩
  case case8 argument hname index hindex =>
    obtain ⟨argument', h, rfl⟩ := relaid_one_left harguments
    unfold Elements.call
    simp only [hmethod, hname, index_relaid h hindex]
    exact ⟨trivial, relaid_ofToken hsite.token _⟩
  case case9 argument hname error hindex =>
    obtain ⟨argument', h, rfl⟩ := relaid_one_left harguments
    obtain ⟨error', hindex', herror⟩ := index_error_relaid h hindex
    unfold Elements.call
    simp only [hmethod, hname, hindex']
    exact ⟨trivial, relaid_failure herror⟩
  case case11 argument value hname index hindex result after hset =>
    obtain ⟨argument', value', h, hvalue, rfl⟩ := relaid_two_left harguments
    unfold Elements.call
    simp only [hmethod, hname, index_relaid h hindex, hvalue.value, hset]
    exact ⟨trivial, relaid_ofToken hsite.token _⟩
  case case12 argument value hname error hindex =>
    obtain ⟨argument', value', h, hvalue, rfl⟩ := relaid_two_left harguments
    obtain ⟨error', hindex', herror⟩ := index_error_relaid h hindex
    unfold Elements.call
    simp only [hmethod, hname, hindex']
    exact ⟨trivial, relaid_failure herror⟩
  case case14 hname =>
    cases harguments
    unfold Elements.call
    simp only [hmethod, hname]
    exact ⟨trivial, relaid_pure rfl⟩
  case case2 hname hno | case5 hname hno | case7 hname hno | case10 hname hno
      | case18 hname hno =>
    have hone : arguments'.length ≠ 1 := by
      rw [← hlength]
      intro h
      obtain ⟨argument, rfl⟩ := List.length_eq_one_iff.mp h
      exact hno argument rfl
    rw [call_mismatch (by rw [hmethod, hname]; rfl) hone]
    exact ⟨rfl, relaid_mismatch hsite 1 harguments⟩
  case case13 hname hno =>
    have htwo : arguments'.length ≠ 2 := by
      rw [← hlength]
      intro h
      obtain ⟨argument, value, rfl⟩ := List.length_eq_two.mp h
      exact hno argument value rfl
    rw [call_mismatch (by rw [hmethod, hname]; rfl) htwo]
    exact ⟨rfl, relaid_mismatch hsite 2 harguments⟩
  case case15 hname hno =>
    have hnone : arguments'.length ≠ 0 := by
      rw [← hlength]
      simpa using hno
    rw [call_mismatch (by rw [hmethod, hname]; rfl) hnone]
    exact ⟨rfl, relaid_mismatch hsite 0 harguments⟩
  case case19 =>
    have hnone : Elements.arity? site'.method = none := by
      rw [hmethod]
      simp_all [Elements.arity?]
    rw [call_unknown hnone]
    exact ⟨rfl, relaid_fail hsite.token _⟩

lemma relaid_callArray (hsite : site.Relaid site')
    (harguments : List.Forall₂ ArgumentValue.Relaid arguments arguments') (id : ArrayId) :
    Run.Relaid Eq (Run.callArray id site arguments) (Run.callArray id site' arguments') := by
  refine relaid_allocate_bind fun heap heap' h => ?_
  obtain ⟨helements, hresult⟩ := call_relaid hsite harguments (heap.elements id)
  have hsame : heap'.elements id = heap.elements id := by simp only [Heap.elements, h.arrays]
  simp only [Heap.updateElements, Heap.takeElements, hsame]
  refine ⟨⟨h.scopes, ?_, h.functions, h.classes, h.cursors⟩, hresult⟩
  simp only [Heap.setElements, h.arrays, helements]

lemma relaid_updateElements (id : ArrayId) (f : Elements → α × Elements) :
    Run.Relaid Eq (Run.updateElements id f) (Run.updateElements id f) :=
  relaid_allocate (blind_updateElements id f)

lemma relaid_push (id : ArrayId) (value : Value) :
    Run.Relaid Eq (Run.push id value) (Run.push id value) :=
  relaid_updateElements id _

end Arrays

section Members

lemma relaid_cursor (id : CursorId) : Run.Relaid Eq (Run.cursor id) (Run.cursor id) :=
  relaid_bind relaid_heap fun _ _ h => relaid_pure (by rw [h.cursors])

variable {token token' : Token} (h : token.Relaid token')

include h

lemma relaid_cursorMember (id : CursorId) :
    Run.Relaid Eq (Run.cursorMember id token) (Run.cursorMember id token') := by
  unfold Run.cursorMember
  rw [h.lexeme]
  exact relaid_ite (relaid_pure rfl) (relaid_bind_same (relaid_cursor id) fun _ => relaid_lift h _)

lemma relaid_readMember (object : Value) :
    Run.Relaid Eq (Run.readMember object token) (Run.readMember object token') := by
  cases object with
  | scope id =>
    rw [Run.readMember, Run.readMember, h.lexeme]
    exact relaid_lookup h id _
  | cursor id => exact relaid_cursorMember h id
  | _ => exact relaid_pure rfl

lemma relaid_readIndex (object key : Value) :
    Run.Relaid Eq (Run.readIndex object key token) (Run.readIndex object key token') := by
  unfold Run.readIndex
  split
  · refine relaid_bind relaid_heap fun heap heap' hheap => ?_
    simp only [Heap.elements, hheap.arrays]
    exact relaid_lift h _
  · exact relaid_lookup h _ _
  · exact relaid_pure rfl

lemma relaid_writeMember (object value : Value) :
    Run.Relaid Eq (Run.writeMember object token value) (Run.writeMember object token' value) := by
  unfold Run.writeMember
  rw [h.lexeme]
  split
  · exact relaid_rebind h (blind_assignOwn _ _ _)
  · exact relaid_fail h _

lemma relaid_writeIndex (object key value : Value) :
    Run.Relaid Eq (Run.writeIndex object key token value)
      (Run.writeIndex object key token' value) := by
  unfold Run.writeIndex
  split
  · exact relaid_bind_same (relaid_updateElements _ _) fun _ =>
      relaid_bind_same (relaid_lift h _) fun _ => relaid_pure rfl
  · exact relaid_rebind h (blind_assignOwn _ _ _)
  · exact relaid_fail h _

lemma relaid_prototype : Run.Relaid Eq (Run.prototype token) (Run.prototype token') := by
  unfold Run.prototype
  rw [h.literal, h.lexeme]
  refine relaid_bind relaid_machine fun m m' hm => ?_
  rw [hm.globals]
  exact relaid_lookup h _ _

lemma relaid_checkCounts (targets values : Nat) :
    Run.Relaid Eq (Run.checkCounts token targets values)
      (Run.checkCounts token' targets values) :=
  relaid_ite (relaid_fail h _) (relaid_ite (relaid_fail h _) (relaid_pure rfl))

lemma relaid_advance {counter counter' : Token} (hcounter : counter.Relaid counter')
    (id : ScopeId) (range : Run.Range) :
    Run.Relaid Eq (Run.advance token counter id range)
      (Run.advance token' counter' id range) := by
  unfold Run.advance
  rw [hcounter.lexeme]
  refine relaid_bind_same (relaid_lookup hcounter id _) fun value => ?_
  split
  · exact relaid_bind_same (relaid_rebind hcounter (blind_assign _ _ _)) fun _ => relaid_pure rfl
  · exact relaid_fail h _

end Members

section Callees

variable {site site' : CallSite} (hsite : site.Relaid site')
  {arguments arguments' : List ArgumentValue}
  (harguments : List.Forall₂ ArgumentValue.Relaid arguments arguments')

include harguments

lemma values_relaid :
    arguments'.map ArgumentValue.value = arguments.map ArgumentValue.value := by
  induction harguments with
  | nil => rfl
  | cons h _ ih => rw [List.map_cons, List.map_cons, h.value, ih]

lemma relaid_checkTypes (expected : List ExpectedType) :
    Run.Relaid Eq (Run.checkTypes expected arguments) (Run.checkTypes expected arguments') := by
  induction harguments generalizing expected with
  | nil => cases expected <;> exact relaid_pure rfl
  | cons h _ ih =>
    cases expected with
    | nil => exact relaid_pure rfl
    | cons type others =>
      rw [Run.checkTypes, Run.checkTypes, h.value]
      exact relaid_ite (ih others) (relaid_fail h.token _)

include hsite

lemma relaid_checkCount (expected : List ExpectedType) :
    Run.Relaid Eq (Run.checkCount site expected arguments)
      (Run.checkCount site' expected arguments') := by
  unfold Run.checkCount
  rw [harguments.length_eq]
  exact relaid_ite (relaid_fail hsite.token _) (relaid_pure rfl)

omit harguments in
lemma relaid_settle {α : Type} (reply : ConnectionReply α) :
    Run.Relaid Eq (Run.settle site reply) (Run.settle site' reply) :=
  relaid_bind_same (relaid_modify fun _ _ hm => { hm with session := rfl }) fun _ =>
    relaid_lift hsite.token _

omit harguments hsite in
lemma relaid_connectionChoice :
    Run.Relaid Eq Run.connectionChoice Run.connectionChoice := by
  refine relaid_bind relaid_machine fun m m' hm => ?_
  have hroots : Run.Relaid Eq Run.roots Run.roots := by
    refine relaid_bind relaid_machine fun m m' hm => relaid_bind_same relaid_config fun c => ?_
    rw [hm.globals, hm.scope, hm.saved, hm.held]
    exact relaid_pure rfl
  refine relaid_bind_same hroots fun roots => ?_
  have hprovider : Connection.provider m'.heap m'.connection =
      Connection.provider m.heap m.connection := by
    simp only [Connection.provider, lookup_relaid hm.heap, hm.connection]
  have hselect (registry : Registry) (provider : Value) :
      registry.select m'.heap provider = registry.select m.heap provider := by
    simp only [Registry.select, text_relaid hm.heap]
  rw [hm.connection] at hprovider ⊢
  simp only [holds_relaid hm.heap, settings_relaid hm.heap, hprovider, hselect]
  exact relaid_ite (relaid_bind_same relaid_config fun _ => relaid_pure rfl) (relaid_pure rfl)

omit harguments in
lemma method_relaid : site'.method = site.method := by
  simp only [CallSite.method, hsite.member]

lemma relaid_callConnection :
    Run.Relaid Eq (Run.callConnection site arguments) (Run.callConnection site' arguments') := by
  unfold Run.callConnection
  rw [method_relaid hsite, values_relaid harguments]
  refine relaid_bind relaid_machine fun m m' hm => ?_
  rw [hm.session]
  split
  · exact relaid_bind_same (relaid_holding _ relaid_connectionChoice) fun _ =>
      relaid_bind_same (relaid_settle hsite _) fun _ => relaid_pure rfl
  · exact relaid_bind_same (relaid_settle hsite _) fun _ => relaid_pure rfl
  · have hlength := harguments.length_eq
    rcases harguments with - | ⟨h, - | ⟨-, -⟩⟩
    · exact relaid_fail hsite.token _
    · dsimp only
      rw [h.value]
      exact relaid_bind_same (relaid_text _) fun _ =>
        relaid_bind_same (relaid_settle hsite _) fun rows =>
          relaid_bind_same (relaid_allocate (blind_newCursor rows)) fun _ => relaid_pure rfl
    · dsimp only
      rw [hlength]
      exact relaid_fail hsite.token _
  · exact relaid_fail hsite.token _

lemma relaid_callNative (which : Native) :
    Run.Relaid Eq (Run.callNative which site arguments)
      (Run.callNative which site' arguments') := by
  have hcount := relaid_checkCount hsite harguments which.expected
  have htypes := relaid_checkTypes harguments which.expected
  cases which with
  | connection => exact relaid_callConnection hsite harguments
  | alltrim =>
    refine relaid_bind_same hcount fun _ => relaid_bind_same htypes fun _ => ?_
    rcases harguments with - | @⟨⟨_, _, _⟩, ⟨_, _, value⟩, _, _, ⟨-, -, rfl⟩, -⟩
    · exact relaid_pure rfl
    · cases value <;>
        first
        | exact relaid_pure rfl
        | exact relaid_bind_same (relaid_text _) fun _ => relaid_pure rfl
  | len =>
    refine relaid_bind_same hcount fun _ => ?_
    rcases harguments with - | @⟨⟨_, _, _⟩, ⟨_, _, value⟩, _, _, ⟨-, -, rfl⟩, -⟩
    · exact relaid_pure rfl
    · cases value <;> exact relaid_pure rfl
  | tick =>
    exact relaid_bind_same hcount fun _ => relaid_bind_same relaid_now fun _ => relaid_pure rfl
  | tack =>
    refine relaid_bind_same hcount fun _ => relaid_bind_same htypes fun _ => ?_
    rcases harguments with - | @⟨⟨_, _, _⟩, ⟨_, _, value⟩, _, _, ⟨-, -, rfl⟩, -⟩
    · exact relaid_bind_same relaid_now fun _ => relaid_pure rfl
    · cases value <;> exact relaid_bind_same relaid_now fun _ => relaid_pure rfl

lemma relaid_callCursor (id : CursorId) :
    Run.Relaid Eq (Run.callCursor id site arguments) (Run.callCursor id site' arguments') := by
  have hset (cursor : Cursor) :
      Run.Relaid Eq (Run.modify fun m => { m with heap := m.heap.setCursor id cursor })
        (Run.modify fun m => { m with heap := m.heap.setCursor id cursor }) :=
    relaid_modify fun m m' hm =>
      { hm with heap := { hm.heap with cursors := by simp only [Heap.setCursor, hm.heap.cursors] } }
  unfold Run.callCursor
  rw [method_relaid hsite, harguments.length_eq]
  refine relaid_ite (relaid_fail hsite.token _)
    (relaid_bind_same (relaid_cursor id) fun cursor => ?_)
  split
  · exact relaid_bind_same (hset _) fun _ => relaid_pure rfl
  · exact relaid_pure rfl
  · exact relaid_bind_same (hset _) fun _ => relaid_pure rfl
  · exact relaid_fail hsite.token _

omit harguments hsite in
lemma relaid_callClass (id : ClassId) :
    Run.Relaid Eq (Run.callClass id site arguments) (Run.callClass id site' arguments') :=
  relaid_bind relaid_heap fun _ _ _ =>
    relaid_bind_same (relaid_record _ _ _ _) fun _ => relaid_pure rfl

end Callees

section Declarations

lemma relaid_target (extent : Extent) : Run.Relaid Eq (Run.target extent) (Run.target extent) := by
  cases extent with
  | «local» => exact relaid_scope
  | global => exact relaid_bind relaid_machine fun _ _ hm => relaid_pure hm.globals.symm

lemma relaid_superclass {d d' : ClassDecl Stmt}
    (h : ClassDecl.Moved Token.Relaid Stmt.Relaid d d') :
    Run.Relaid Eq (Run.superclass d) (Run.superclass d') := by
  obtain ⟨htoken, -, hsuperclass, -, -⟩ := h
  cases hsuperclass with
  | none => exact relaid_pure rfl
  | some hname =>
    refine relaid_bind_same relaid_scope fun id => ?_
    rw [hname.lexeme]
    refine relaid_bind_same (relaid_lookup hname id _) fun value => ?_
    split
    · exact relaid_pure rfl
    · exact relaid_fail htoken _

lemma relaid_newFunction {closure closure' : Closure} (h : closure.Relaid closure') :
    Run.Relaid Eq (Run.allocate fun heap => heap.newFunction closure)
      (Run.allocate fun heap => heap.newFunction closure') := by
  intro c m m' hm
  have hsize : m.heap.functions.size = m'.heap.functions.size := by
    simpa using hm.heap.functions.length_eq
  refine .ok hsize { hm with heap := { hm.heap with functions := ?_ } }
  simpa [Heap.newFunction] using List.rel_append hm.heap.functions (.cons h .nil)

lemma relaid_newClass {cell cell' : ClassCell} (h : cell.Relaid cell') :
    Run.Relaid Eq (Run.allocate fun heap => heap.newClass cell)
      (Run.allocate fun heap => heap.newClass cell') := by
  intro c m m' hm
  have hsize : m.heap.classes.size = m'.heap.classes.size := by
    simpa using hm.heap.classes.length_eq
  refine .ok hsize { hm with heap := { hm.heap with classes := ?_ } }
  simpa [Heap.newClass] using List.rel_append hm.heap.classes (.cons h .nil)

lemma relaid_release {targets targets' : List Token}
    (h : List.Forall₂ Token.Relaid targets targets') :
    Run.Relaid Eq (Run.release targets) (Run.release targets') := by
  refine relaid_bind_same relaid_scope fun id => relaid_modify fun m m' hm => ?_
  have hfold : ∀ heap heap' : Heap, heap.Relaid heap' →
      (targets.foldl (fun heap target => heap.release id target.lexeme) heap).Relaid
        (targets'.foldl (fun heap target => heap.release id target.lexeme) heap') := by
    induction h with
    | nil => exact fun _ _ h => h
    | cons htarget _ ih =>
      intro heap heap' h
      rw [List.foldl_cons, List.foldl_cons, htarget.lexeme]
      exact ih _ _ (relaid_of_blind (blind_release id _) h).2
  exact { hm with heap := hfold _ _ hm.heap }

lemma relaid_defineAll {names names' : List Token} (h : List.Forall₂ Token.Relaid names names')
    (id : ScopeId) (values : List Value) :
    Run.Relaid Eq (Run.defineAll id (names.zip values)) (Run.defineAll id (names'.zip values)) := by
  induction h generalizing values with
  | nil => exact relaid_pure rfl
  | cons hname _ ih =>
    cases values with
    | nil => exact relaid_pure rfl
    | cons value values =>
      rw [List.zip_cons_cons, List.zip_cons_cons, Run.defineAll, Run.defineAll, hname.lexeme]
      exact relaid_ite (ih values)
        (relaid_bind_same (relaid_define hname id value _) fun _ => ih values)

end Declarations

section Parameters

variable {parameters parameters' : List Parameter}
  (hparameters : List.Forall₂ (Parameter.Moved Token.Relaid) parameters parameters')

include hparameters

lemma relaid_addressed (h : argument.Relaid argument') (position : Nat) :
    Run.Relaid (Option.Rel (Parameter.Moved Token.Relaid))
      (Run.addressed parameters position argument)
      (Run.addressed parameters' position argument') := by
  unfold Run.addressed
  rw [h.label, h.value]
  cases argument.label with
  | none =>
    cases argument.value with
    | null => exact relaid_pure .none
    | _ => exact relaid_pure (rel_getElem? hparameters position)
  | some label =>
    have hfound : Option.Rel (Parameter.Moved Token.Relaid)
        (parameters.find? (·.accepts label)) (parameters'.find? (·.accepts label)) := by
      refine rel_find? hparameters fun p q hpq => ?_
      obtain ⟨hname, hother, -⟩ := hpq
      cases hother with
      | none => simp only [Parameter.accepts, hname.lexeme, Option.any_none]
      | some hother => simp only [Parameter.accepts, hname.lexeme, Option.any_some, hother.lexeme]
    dsimp only
    generalize parameters.find? (·.accepts label) = found at hfound ⊢
    generalize parameters'.find? (·.accepts label) = found' at hfound ⊢
    cases hfound with
    | none => exact relaid_fail h.token _
    | some h => exact relaid_pure (.some h)

lemma relaid_bindArguments (h : List.Forall₂ ArgumentValue.Relaid arguments arguments')
    (id : ScopeId) (position : Nat) :
    Run.Relaid Eq (Run.bindArguments id parameters position arguments)
      (Run.bindArguments id parameters' position arguments') := by
  induction h generalizing position with
  | nil => exact relaid_pure rfl
  | cons hargument _ ih =>
    refine relaid_bind (relaid_addressed hparameters hargument position) fun _ _ hfound => ?_
    cases hfound with
    | none => exact ih (position + 1)
    | some hparameter =>
      obtain ⟨hname, -, -⟩ := hparameter
      dsimp only
      rw [hname.lexeme, hargument.value]
      exact relaid_bind_same (relaid_rebind hargument.token (blind_assignOwn id _ _)) fun _ =>
        ih (position + 1)

end Parameters

end Proofs

end XBase
