import XBase.Proofs.Transition
import XBase.Proofs.Walks

/-!
# Single acts

An act that evaluates nothing is a single one: it looks at the host and at the machine, makes a
change and gives a value, or it fails. It does not see the limits, and it never fails because of
them. Nor does it see what was counted, printed and recorded before it. Reading and writing names,
the builtins, arrays, cursors and the connection object are all single acts.
-/

namespace XBase

def Elements.arity? : String → Option Nat
  | "add" | "remove" | "contains" | "get" | "indexof" => some 1
  | "set" => some 2
  | "len" => some 0
  | _ => none

namespace Proofs

def isLimit : Fault → Bool
  | .stepBudgetExceeded _ | .callDepthExceeded _ => true
  | _ => false

/-- Whether a fault is raised for a `loop` or `exit` that no loop takes. -/
def isMisplaced : Fault → Bool
  | .controlOutsideLoop _ => true
  | _ => false

/-- Whether a fault is one of the values at hand. -/
def isPlain (fault : Fault) : Bool :=
  !isLimit fault && !isMisplaced fault

def Ordinary : Halt → Prop
  | .failure error => isLimit error.fault = false
  | .exhausted => False

/-- A result whose faults are plain ones. -/
def Harmless {α : Type} (result : Except Fault α) : Prop :=
  ∀ fault, result = .error fault → isPlain fault = true

/-- The same of a result whose errors have their place. -/
def Placed {α : Type} (result : Except RuntimeError α) : Prop :=
  ∀ error, result = .error error → isPlain error.fault = true

/-- What a machine has counted, printed and recorded. -/
structure Past where
  steps : Nat
  output : String
  log : Array Record

/-- The machine with a past before its own. -/
def withPast (past : Past) (m : Machine) : Machine :=
  { m with
    steps := past.steps + m.steps
    output := past.output ++ m.output
    log := past.log ++ m.log }

/-- An action that goes the same way whatever the past is. -/
def Forgetful (c : Config) {α : Type} (x : Run α) : Prop :=
  ∀ m past, x c (withPast past m) = ((x c m).1, withPast past (x c m).2)

structure Atomic {α : Type} (x : Run α) : Prop where
  change : ∀ c m, Change m (x c m).2
  past : ∀ c, Forgetful c x
  blind : ∀ c c' m, c.host = c'.host → x c m = x c' m
  halts : ∀ c m why, (x c m).1 = .error why → Ordinary why

lemma not_limit_of_plain {fault : Fault} (h : isPlain fault = true) : isLimit fault = false := by
  simp only [isPlain, Bool.and_eq_true, Bool.not_eq_true'] at h
  exact h.1

section Sequence

variable {α β : Type} {x : Run α} {f : α → Run β} {c : Config} {m m' : Machine}

lemma bind_ok {a : α} (h : x c m = (.ok a, m')) : (x >>= f) c m = f a c m' := by
  change Run.bind x f c m = _
  simp only [Run.bind, h]

lemma bind_error {why : Halt} (h : x c m = (.error why, m')) :
    (x >>= f) c m = (.error why, m') := by
  change Run.bind x f c m = _
  simp only [Run.bind, h]

lemma of_bind_eq_ok {b : β} (h : (x >>= f) c m = (.ok b, m')) :
    ∃ a middle, x c m = (.ok a, middle) ∧ f a c middle = (.ok b, m') := by
  rcases hx : x c m with ⟨why | a, middle⟩
  · rw [bind_error hx] at h
    cases h
  · rw [bind_ok hx] at h
    exact ⟨a, middle, rfl, h⟩

lemma forgetful_bind (hx : Forgetful c x) (hf : ∀ a, Forgetful c (f a)) :
    Forgetful c (x >>= f) := by
  intro m past
  have hp := hx m past
  rcases h : x c m with ⟨why | a, m'⟩
  · rw [h] at hp
    rw [bind_error h, bind_error hp]
  · rw [h] at hp
    rw [bind_ok h, bind_ok hp, hf a m' past]

lemma forgetful_holdingCells (cells : List Cell) (hx : Forgetful c x) :
    Forgetful c (Run.holdingCells cells x) := by
  intro m past
  let inside : Machine := { m with held := cells ++ m.held }
  change ((x c (withPast past inside)).1,
    { (x c (withPast past inside)).2 with held := m.held }) = _
  rw [hx inside past]
  rfl

end Sequence

section Rules

variable {α β : Type}

lemma atomic_pure (a : α) : Atomic (pure a : Run α) where
  change _ m := change_refl m
  past _ _ _ := rfl
  blind _ _ _ _ := rfl
  halts _ _ _ h := by cases h

lemma atomic_fail (token : Token) (fault : Fault) (h : isLimit fault = false) :
    Atomic (Run.fail token fault : Run α) where
  change _ m := change_refl m
  past _ _ _ := rfl
  blind _ _ _ _ := rfl
  halts _ _ why hw := by
    cases hw
    exact h

lemma atomic_read (observe : Machine → α) (h : ∀ m past, observe (withPast past m) = observe m) :
    Atomic (fun _ m => (.ok (observe m), m) : Run α) where
  change _ m := change_refl m
  past _ m past := by simp only [h m past]
  blind _ _ _ _ := rfl
  halts _ _ _ h := by cases h

lemma atomic_modify (f : Machine → Machine)
    (h : ∀ m, Change m (f m)) (hpast : ∀ m past, f (withPast past m) = withPast past (f m)) :
    Atomic (Run.modify f) where
  change _ m := h m
  past _ m past := congrArg (Prod.mk _) (hpast m past)
  blind _ _ _ _ := rfl
  halts _ _ _ h := by cases h

lemma atomic_allocate (f : Heap → α × Heap) (h : ∀ heap, Edits heap (f heap).2) :
    Atomic (Run.allocate f) where
  change _ m := change_of_edits m (h m.heap)
  past _ _ _ := rfl
  blind _ _ _ _ := rfl
  halts _ _ _ h := by cases h

lemma atomic_bind {x : Run α} {f : α → Run β} (hx : Atomic x) (hf : ∀ a, Atomic (f a)) :
    Atomic (x >>= f) where
  change c m := by
    have hc := hx.change c m
    rcases h : x c m with ⟨why | a, m'⟩
    · rw [bind_error h]
      rwa [h] at hc
    · rw [bind_ok h]
      rw [h] at hc
      exact change_trans hc ((hf a).change c m')
  past c := forgetful_bind (hx.past c) fun a => (hf a).past c
  blind c c' m hc := by
    have hb := hx.blind c c' m hc
    rcases h : x c m with ⟨why | a, m'⟩
    · rw [bind_error h, bind_error (hb ▸ h)]
    · rw [bind_ok h, bind_ok (hb ▸ h), (hf a).blind c c' m' hc]
  halts c m why hw := by
    have hh := hx.halts c m why
    rcases h : x c m with ⟨why' | a, m'⟩
    · rw [bind_error h] at hw
      cases hw
      exact hh (by rw [h])
    · rw [bind_ok h] at hw
      exact (hf a).halts c m' why hw

/-- What follows an allocation has to be a single act only for what the allocation can give. -/
lemma atomic_allocate_bind {f : Heap → α × Heap} {g : α → Run β}
    (hf : ∀ heap, Edits heap (f heap).2) (hg : ∀ heap, Atomic (g (f heap).1)) :
    Atomic (Run.allocate f >>= g) where
  change c m := change_trans (change_of_edits m (hf m.heap)) ((hg m.heap).change c _)
  past c m past := (hg m.heap).past c { m with heap := (f m.heap).2 } past
  blind c c' m h := (hg m.heap).blind c c' _ h
  halts c m why hw := (hg m.heap).halts c _ why hw

/-- An act may ask for the host, not for the limits. -/
lemma atomic_config {f : Config → Run β} (hf : ∀ c, Atomic (f c))
    (hhost : ∀ c c', c.host = c'.host → f c = f c') : Atomic (Run.config >>= f) where
  change c m := (hf c).change c m
  past c m past := (hf c).past c m past
  blind c c' m h := by
    change f c c m = f c' c' m
    rw [hhost c c' h]
    exact (hf c').blind c c' m h
  halts c m why hw := (hf c).halts c m why hw

/-- An act may ask for the machine, not for its past. -/
lemma atomic_machine {f : Machine → Run β} (hf : ∀ m, Atomic (f m))
    (hpast : ∀ m past, f (withPast past m) = f m) : Atomic (Run.machine >>= f) where
  change c m := (hf m).change c m
  past c m past := by
    change f (withPast past m) c (withPast past m) = _
    rw [hpast m past]
    exact (hf m).past c m past
  blind c c' m h := (hf m).blind c c' m h
  halts c m why hw := (hf m).halts c m why hw

lemma atomic_lift (token : Token) (result : Except Fault α) (h : Harmless result) :
    Atomic (Run.lift token result) := by
  cases result with
  | ok a => exact atomic_pure a
  | error fault => exact atomic_fail token fault (not_limit_of_plain (h fault rfl))

lemma atomic_ofResult (result : Except RuntimeError α) (h : Placed result) :
    Atomic (Run.ofResult result) := by
  cases result with
  | ok a => exact atomic_pure a
  | error error =>
    refine ⟨fun _ m => change_refl m, fun _ _ _ => rfl, fun _ _ _ _ => rfl, ?_⟩
    intro _ _ why hw
    cases hw
    exact not_limit_of_plain (h error rfl)

/-- Cells that are only held while an act looks around do not show. -/
lemma atomic_holding (values : List Value) {x : Run α} (hx : Atomic x)
    (hstay : ∀ c m, (x c m).2 = m) : Atomic (Run.holding values x) where
  change c m := by
    change Change m { (x c _).2 with held := m.held }
    rw [hstay]
    exact change_refl m
  past c := forgetful_holdingCells _ (hx.past c)
  blind c c' m h := by
    change ((x c _).1, { (x c _).2 with held := m.held }) =
      ((x c' _).1, { (x c' _).2 with held := m.held })
    rw [hx.blind c c' _ h]
  halts c m why hw := hx.halts c _ why hw

end Rules

section Arrays

variable {elements : Elements}

lemma slot_cases (elements : Elements) (index : Float) :
    (∃ place < elements.size, elements.slot index = .ok place) ∨
      elements.slot index = .error (.indexOutOfBounds index elements.size) := by
  unfold Elements.slot
  dsimp only
  split
  · next h =>
    simp only [Bool.and_eq_true, decide_eq_true_eq] at h
    exact .inl ⟨_, by omega, rfl⟩
  · exact .inr rfl

lemma getD_mem {place : Nat} (h : place < elements.size) : elements.getD place .null ∈ elements := by
  simp [h]

lemma get_cases (elements : Elements) (index : Float) :
    (∃ v ∈ elements, elements.get index = .ok v) ∨
      elements.get index = .error (.indexOutOfBounds index elements.size) := by
  unfold Elements.get
  rcases slot_cases elements index with ⟨place, hlt, hslot⟩ | hslot <;> rw [hslot]
  · exact .inl ⟨_, getD_mem hlt, rfl⟩
  · exact .inr rfl

lemma set_cases (elements : Elements) (index : Float) (value : Value) :
    (∃ v ∈ elements, ∃ place,
      elements.set index value = (.ok v, elements.setIfInBounds place value)) ∨
      elements.set index value = (.error (.indexOutOfBounds index elements.size), elements) := by
  unfold Elements.set
  rcases slot_cases elements index with ⟨place, hlt, hslot⟩ | hslot <;> rw [hslot]
  · exact .inl ⟨_, getD_mem hlt, place, rfl⟩
  · exact .inr rfl

/-- The faults of a method of an array. -/
inductive Refusal : Fault → Prop
  | unknownMethod : Refusal .unknownMethod
  | arityMismatch (expected given : Nat) : Refusal (.arityMismatch expected given)
  | indexNotNumber : Refusal .indexNotNumber
  | indexOutOfBounds (index : Float) (size : Nat) : Refusal (.indexOutOfBounds index size)

/-- What a method of an array may give and leave: it fails and changes nothing, or it hands over
nothing but elements, arguments and scalars. -/
inductive Answers (elements : Elements) (arguments : List ArgumentValue) :
    Except RuntimeError Value × Elements → Prop
  | refused (token : Token) {fault : Fault} (h : Refusal fault) :
      Answers elements arguments (.error (.ofToken token fault), elements)
  | gave {value : Value} {after : Elements}
      (hvalue : (∃ b, value = .boolean b) ∨ (∃ x, value = .number x) ∨ value ∈ elements)
      (hafter : ∀ v ∈ after, v ∈ elements ∨ ∃ argument ∈ arguments, v = argument.value) :
      Answers elements arguments (.ok value, after)

lemma call_answers (elements : Elements) (site : CallSite) (arguments : List ArgumentValue) :
    Answers elements arguments (elements.call site arguments) := by
  have hkept : ∀ v ∈ elements, v ∈ elements ∨ ∃ argument ∈ arguments, v = argument.value :=
    fun v hv => .inl hv
  have hindex {argument : ArgumentValue} {error : RuntimeError}
      (h : Elements.index argument = .error error) :
      Answers elements arguments (.error error, elements) := by
    unfold Elements.index at h
    split at h <;> cases h
    exact .refused _ .indexNotNumber
  fun_cases Elements.call elements site arguments
  case case1 argument _ =>
    refine .gave (.inl ⟨_, rfl⟩) fun v hv => ?_
    rcases Array.mem_push.mp hv with hold | rfl
    · exact .inl hold
    · exact .inr ⟨argument, by simp, rfl⟩
  case case3 place _ =>
    refine .gave (.inl ⟨_, rfl⟩) fun v hv => .inl ?_
    unfold Array.eraseIdxIfInBounds at hv
    split at hv
    · exact Array.mem_of_mem_eraseIdx hv
    · exact hv
  case case4 | case6 => exact .gave (.inl ⟨_, rfl⟩) hkept
  case case14 | case16 | case17 => exact .gave (.inr (.inl ⟨_, rfl⟩)) hkept
  case case8 index _ =>
    rcases get_cases elements index with ⟨v, hv, hget⟩ | hget <;> rw [hget]
    · exact .gave (.inr (.inr hv)) hkept
    · exact .refused _ (.indexOutOfBounds _ _)
  case case9 h | case12 h => exact hindex h
  case case11 value _ index _ result after hset =>
    rcases set_cases elements index value.value with ⟨v, hv, place, h⟩ | h <;> cases h.symm.trans hset
    · refine .gave (.inr (.inr hv)) fun other hother => ?_
      rcases Array.mem_or_eq_of_mem_setIfInBounds hother with hold | rfl
      · exact .inl hold
      · exact .inr ⟨value, by simp, rfl⟩
    · exact .refused _ (.indexOutOfBounds _ _)
  case case19 => exact .refused _ .unknownMethod
  all_goals exact .refused _ (.arityMismatch _ _)

/-- Where there is no such method, the number of arguments does not matter. -/
lemma call_unknown {site : CallSite} (h : Elements.arity? site.method = none)
    (elements : Elements) (arguments : List ArgumentValue) :
    elements.call site arguments =
      (.error (.ofToken site.token .unknownMethod), elements) := by
  fun_cases Elements.call elements site arguments
  case case19 => rfl
  all_goals simp_all [Elements.arity?]

lemma call_mismatch {site : CallSite} {n : Nat} (h : Elements.arity? site.method = some n)
    {arguments : List ArgumentValue} (hlength : arguments.length ≠ n) (elements : Elements) :
    elements.call site arguments = (Elements.mismatch site n arguments, elements) := by
  fun_cases Elements.call elements site arguments
  all_goals simp_all [Elements.arity?]

end Arrays
section Results

lemma harmless_ok {α : Type} (a : α) : Harmless (.ok a) := by
  intro fault h
  cases h

lemma harmless_error {α : Type} {fault : Fault} (h : isPlain fault = true) :
    Harmless (.error fault : Except Fault α) := by
  intro fault' hf
  cases hf
  exact h

lemma harmless_bind {α β : Type} {x : Except Fault α} {f : α → Except Fault β} (hx : Harmless x)
    (hf : ∀ a, Harmless (f a)) : Harmless (x >>= f) := by
  cases x with
  | ok a => exact hf a
  | error fault => exact harmless_error (hx fault rfl)

lemma harmless_mapError {ε α : Type} (result : Except ε α) (cause : ε → Fault)
    (h : ∀ error, isPlain (cause error) = true) : Harmless (result.mapError cause) := by
  cases result with
  | ok a => exact harmless_ok a
  | error error => exact harmless_error (h error)

lemma placed_ok {α : Type} (a : α) : Placed (.ok a) := by
  intro error h
  cases h

lemma placed_error {α : Type} {error : RuntimeError} (h : isPlain error.fault = true) :
    Placed (.error error : Except RuntimeError α) := by
  intro error' he
  cases he
  exact h

lemma harmless_get (elements : Elements) (index : Float) : Harmless (elements.get index) := by
  rcases get_cases elements index with ⟨v, -, h⟩ | h <;> rw [h]
  · exact harmless_ok v
  · exact harmless_error rfl

lemma harmless_set (elements : Elements) (index : Float) (value : Value) :
    Harmless (elements.set index value).1 := by
  rcases set_cases elements index value with ⟨v, -, _, h⟩ | h <;> rw [h]
  · exact harmless_ok v
  · exact harmless_error rfl

lemma harmless_numbers (left right : Value) : Harmless (left.numbers right) := by
  unfold Value.numbers
  split
  · exact harmless_ok _
  · exact harmless_error rfl

lemma harmless_add (heap : Heap) (left right : Value) : Harmless (heap.add left right) := by
  unfold Heap.add
  split
  · exact harmless_ok _
  · split <;> exact harmless_ok _
  · exact harmless_error rfl

lemma harmless_binary (heap : Heap) (operator : Category) (left right : Value) :
    Harmless (heap.binary operator left right) := by
  have hn := harmless_numbers left right
  unfold Heap.binary
  split
  · exact harmless_add heap left right
  · exact harmless_bind hn fun _ => harmless_ok _
  · exact harmless_bind hn fun _ => harmless_ok _
  · refine harmless_bind hn fun ⟨l, r⟩ => ?_
    dsimp only
    split
    · exact harmless_error rfl
    · exact harmless_ok _
  · exact harmless_bind hn fun _ => harmless_ok _
  · exact harmless_bind hn fun _ => harmless_ok _
  · exact harmless_bind hn fun _ => harmless_ok _
  · exact harmless_bind hn fun _ => harmless_ok _
  · exact harmless_ok _
  · exact harmless_ok _
  · exact harmless_error rfl

lemma harmless_unary (operator : Category) (right : Value) : Harmless (right.unary operator) := by
  unfold Value.unary
  split
  · exact harmless_ok _
  · exact harmless_ok _
  · exact harmless_ok _
  · exact harmless_error rfl
  · exact harmless_error rfl
  · exact harmless_error rfl

end Results

section Names

lemma edits_define (heap : Heap) (id : ScopeId) (name : String) (value : Value)
    (kind : BindingKind) : Edits heap (heap.define id name value kind).2 := by
  unfold Heap.define
  dsimp only
  split
  · exact .refl
  · next h => exact .single (.bind _ h)

lemma edits_assignOwn (heap : Heap) (id : ScopeId) (name : String) (value : Value) :
    Edits heap (heap.assignOwn id name value).2 := by
  unfold Heap.assignOwn
  dsimp only
  split
  · exact .refl
  · next h => exact .single (.bind _ h)

lemma edits_assign (heap : Heap) (id : ScopeId) (name : String) (value : Value) :
    Edits heap (heap.assign id name value).2 := by
  rw [assign_eq]
  exact edits_assignOwn heap _ name value

lemma lookup_eq (id : ScopeId) (name : String) (token : Token) (c : Config) (m : Machine) :
    Run.lookup id name token c m =
      ((m.heap.lookup id name).mapError fun why => .failure (.ofToken token (.scope why)), m) := by
  change Run.lift token ((m.heap.lookup id name).mapError Fault.scope) c m = _
  cases m.heap.lookup id name <;> rfl

lemma rebind_eq (token : Token) (f : Heap → Except ScopeError Unit × Heap) (c : Config)
    (m : Machine) :
    Run.rebind token f c m =
      ((f m.heap).1.mapError fun why => .failure (.ofToken token (.scope why)),
        { m with heap := (f m.heap).2 }) := by
  change Run.lift token ((f m.heap).1.mapError Fault.scope) c { m with heap := (f m.heap).2 } = _
  cases (f m.heap).1 <;> rfl

lemma atomic_rebind (token : Token) (f : Heap → Except ScopeError Unit × Heap)
    (h : ∀ heap, Edits heap (f heap).2) : Atomic (Run.rebind token f) :=
  atomic_bind (atomic_allocate f h) fun result =>
    atomic_lift token _ (harmless_mapError result Fault.scope fun _ => rfl)

lemma atomic_define (id : ScopeId) (name : Token) (value : Value) (kind : BindingKind) :
    Atomic (Run.define id name value kind) :=
  atomic_rebind name _ fun heap => edits_define heap id name.lexeme value kind

lemma atomic_heap : Atomic Run.heap :=
  atomic_read (fun m => m.heap) fun _ _ => rfl

lemma atomic_scope : Atomic Run.scope :=
  atomic_read (fun m => m.scope) fun _ _ => rfl

lemma atomic_text (value : Value) : Atomic (Run.text value) :=
  atomic_bind atomic_heap fun heap => atomic_pure (heap.text value)

lemma atomic_record (level : Level) (text : String) : Atomic (Run.record level text) :=
  atomic_modify _ (fun m => change_quiet m (m.log.push ⟨level, text⟩) m.readings (talks_refl _))
    fun m past => by simp only [withPast, Array.push_append]

lemma atomic_lookup (id : ScopeId) (name : String) (token : Token) :
    Atomic (Run.lookup id name token) :=
  atomic_bind atomic_heap fun _ =>
    atomic_lift token _ (harmless_mapError _ Fault.scope fun _ => rfl)

lemma atomic_print (token : Token) (line : String) : Atomic (Run.print token line) := by
  refine atomic_config (fun c => ?_) (fun c c' h => by simp only [h])
  split
  · exact atomic_fail token _ rfl
  · refine atomic_modify _ (fun m => ?_) fun m past => ?_
    · have hc := Change.mk m.heap (line ++ "\n") m.log m.session m.readings
        (Relation.ReflTransGen.refl (r := Edit)) (talks_refl _)
      simpa only [String.append_assoc] using hc
    · simp only [withPast, String.append_assoc]

lemma atomic_now : Atomic Run.now := by
  refine atomic_machine (fun m => atomic_bind (atomic_modify _ (fun m' => ?_) fun _ _ => rfl) fun _ =>
    atomic_config (fun c => atomic_pure _) (fun c c' h => by simp only [h])) fun _ _ => rfl
  exact change_quiet m' m'.log (m.readings + 1) (talks_refl _)

lemma atomic_target (extent : Extent) : Atomic (Run.target extent) :=
  match extent with
  | .local => atomic_scope
  | .global => atomic_machine (fun m => atomic_pure m.globals) fun _ _ => rfl

lemma atomic_superclass (declaration : ClassDecl Stmt) : Atomic (Run.superclass declaration) := by
  unfold Run.superclass
  split
  · exact atomic_pure none
  · refine atomic_bind atomic_scope fun id => atomic_bind (atomic_lookup id _ _) fun value => ?_
    split
    · exact atomic_pure _
    · exact atomic_fail _ _ rfl

lemma atomic_checkCounts (token : Token) (targets values : Nat) :
    Atomic (Run.checkCounts token targets values) := by
  unfold Run.checkCounts
  split
  · exact atomic_fail token _ rfl
  · split
    · exact atomic_fail token _ rfl
    · exact atomic_pure ()

lemma atomic_advance (token counter : Token) (id : ScopeId) (range : Run.Range) :
    Atomic (Run.advance token counter id range) := by
  refine atomic_bind (atomic_lookup id _ _) fun value => ?_
  split
  · exact atomic_bind (atomic_rebind counter _ fun heap => edits_assign heap _ _ _) fun _ =>
      atomic_pure _
  · exact atomic_fail token _ rfl

lemma atomic_addressed (parameters : List Parameter) (position : Nat) (argument : ArgumentValue) :
    Atomic (Run.addressed parameters position argument) := by
  unfold Run.addressed
  split
  · split <;> exact atomic_pure _
  · split
    · exact atomic_pure _
    · exact atomic_fail _ _ rfl

end Names

section Members

lemma edits_updateElements {α : Type} (heap : Heap) (id : ArrayId)
    (f : Elements → α × Elements) : Edits heap (heap.updateElements id f).2 :=
  (Relation.ReflTransGen.single (.setElements heap id #[])).tail (.setElements _ id _)

lemma atomic_updateElements {α β : Type} (id : ArrayId) {f : Elements → α × Elements}
    {g : α → Run β} (hg : ∀ elements, Atomic (g (f elements).1)) :
    Atomic (Run.updateElements id f >>= g) :=
  atomic_allocate_bind (fun heap => edits_updateElements heap id f) fun heap =>
    hg (heap.elements id)

lemma atomic_push (id : ArrayId) (value : Value) : Atomic (Run.push id value) :=
  atomic_allocate _ fun heap =>
    edits_updateElements heap id fun elements => ((), elements.push value)

lemma placed_call (elements : Elements) (site : CallSite) (arguments : List ArgumentValue) :
    Placed (elements.call site arguments).1 := by
  generalize hcall : elements.call site arguments = answer
  cases hcall ▸ call_answers elements site arguments with
  | refused _ h => cases h <;> exact placed_error rfl
  | gave _ _ => exact placed_ok _

lemma atomic_callArray (id : ArrayId) (site : CallSite) (arguments : List ArgumentValue) :
    Atomic (Run.callArray id site arguments) :=
  atomic_updateElements id fun elements => atomic_ofResult _ (placed_call elements site arguments)

lemma atomic_cursor (id : CursorId) : Atomic (Run.cursor id) :=
  atomic_bind atomic_heap fun _ => atomic_pure _

lemma atomic_cursorMember (id : CursorId) (property : Token) :
    Atomic (Run.cursorMember id property) := by
  unfold Run.cursorMember
  split
  · exact atomic_pure _
  · exact atomic_bind (atomic_cursor id) fun _ =>
      atomic_lift property _ (harmless_mapError _ Fault.host fun _ => rfl)

lemma atomic_readMember (object : Value) (property : Token) :
    Atomic (Run.readMember object property) := by
  unfold Run.readMember
  split
  · exact atomic_lookup _ _ _
  · exact atomic_cursorMember _ _
  · exact atomic_pure _

lemma atomic_readIndex (object key : Value) (bracket : Token) :
    Atomic (Run.readIndex object key bracket) := by
  unfold Run.readIndex
  split
  · exact atomic_bind atomic_heap fun _ => atomic_lift bracket _ (harmless_get _ _)
  · exact atomic_lookup _ _ _
  · exact atomic_pure _

lemma atomic_writeIndex (object key : Value) (bracket : Token) (value : Value) :
    Atomic (Run.writeIndex object key bracket value) := by
  unfold Run.writeIndex
  split
  · next id index =>
    exact atomic_updateElements id fun elements =>
      atomic_bind (atomic_lift bracket _ (harmless_set elements index value)) fun _ =>
        atomic_pure ()
  · exact atomic_rebind bracket _ fun heap => edits_assignOwn heap _ _ _
  · exact atomic_fail bracket _ rfl

lemma atomic_writeMember (object : Value) (property : Token) (value : Value) :
    Atomic (Run.writeMember object property value) := by
  unfold Run.writeMember
  split
  · exact atomic_rebind property _ fun heap => edits_assignOwn heap _ _ _
  · exact atomic_fail property _ rfl

lemma atomic_prototype (name : Token) : Atomic (Run.prototype name) :=
  atomic_machine (fun _ => atomic_lookup _ _ _) fun _ _ => rfl

end Members

section Callees

lemma atomic_checkCallee (callee : Expr) (value : Value) (arguments : Nat) :
    Atomic (Run.checkCallee callee value arguments) := by
  refine atomic_bind atomic_heap fun heap => ?_
  split
  · exact atomic_fail _ _ rfl
  · split
    · exact atomic_fail _ _ rfl
    · exact atomic_pure ()

lemma atomic_checkCount (site : CallSite) (expected : List ExpectedType)
    (arguments : List ArgumentValue) : Atomic (Run.checkCount site expected arguments) := by
  unfold Run.checkCount
  split
  · exact atomic_fail _ _ rfl
  · exact atomic_pure ()

lemma atomic_checkTypes (expected : List ExpectedType) (arguments : List ArgumentValue) :
    Atomic (Run.checkTypes expected arguments) := by
  induction expected generalizing arguments with
  | nil => exact atomic_pure ()
  | cons type others ih =>
    cases arguments with
    | nil => exact atomic_pure ()
    | cons argument arguments =>
      rw [Run.checkTypes]
      split
      · exact ih arguments
      · exact atomic_fail _ _ rfl

lemma atomic_roots : Atomic Run.roots :=
  atomic_machine (fun _ => atomic_config (fun _ => atomic_pure _) (fun c c' h => by simp only [h]))
    fun _ _ => rfl

lemma atomic_connectionChoice : Atomic Run.connectionChoice := by
  refine atomic_machine (fun m => atomic_bind atomic_roots fun roots => ?_) fun _ _ => rfl
  split
  · exact atomic_config (fun _ => atomic_pure _) (fun c c' h => by simp only [h])
  · exact atomic_pure _

lemma connectionChoice_ok (c : Config) (m : Machine) :
    ∃ choice, Run.connectionChoice c m = (.ok choice, m) := by
  have hr : Run.roots c m = (.ok _, m) := rfl
  have hm : Run.machine c m = (.ok m, m) := rfl
  unfold Run.connectionChoice
  rw [bind_ok hm, bind_ok hr]
  split <;> exact ⟨_, rfl⟩

lemma connectionChoice_stays (c : Config) (m : Machine) : (Run.connectionChoice c m).2 = m := by
  obtain ⟨choice, hchoice⟩ := connectionChoice_ok c m
  rw [hchoice]

lemma holding_connectionChoice (values : List Value) (c : Config) (m : Machine) :
    ∃ choice, Run.holding values Run.connectionChoice c m = (.ok choice, m) := by
  obtain ⟨choice, hchoice⟩ := connectionChoice_ok c
    { m with held := values.filterMap Value.cell? ++ m.held }
  unfold Run.holding Run.holdingCells
  rw [hchoice]
  exact ⟨choice, rfl⟩

/-- A method of the connection object is called for the session that is held. -/
def transact {α : Type} (site : CallSite) (method : Option DriverSession → ConnectionReply α) :
    Run α :=
  fun c m => Run.settle site (method m.session) c m

lemma transact_eq {α : Type} (site : CallSite) (method : Option DriverSession → ConnectionReply α)
    (c : Config) (m : Machine) : transact site method c m =
      ((Run.lift site.token ((method m.session).result.mapError Fault.host) c m).1,
        { m with session := (method m.session).held, log := m.log ++ (method m.session).log }) := by
  unfold transact Run.settle
  cases (method m.session).result <;> rfl

lemma atomic_transact {α : Type} (site : CallSite) {method : Option DriverSession → ConnectionReply α}
    (h : ∀ held, Talks held (method held).held) : Atomic (transact site method) := by
  have hlift (held : Option DriverSession) : Atomic (Run.lift site.token _) :=
    atomic_lift site.token _ (harmless_mapError (method held).result Fault.host fun _ => rfl)
  refine ⟨fun c m => ?_, fun c m past => ?_, fun c c' m hc => ?_, fun c m why hw => ?_⟩
  · rw [transact_eq]
    exact change_quiet m _ m.readings (h m.session)
  · have hpast := congrArg Prod.fst ((hlift m.session).past c m past)
    have hlog : past.log ++ m.log ++ (method m.session).log =
        past.log ++ (m.log ++ (method m.session).log) := by
      simp [← Array.toList_inj]
    rw [transact_eq, transact_eq]
    simp only [withPast, hlog] at hpast ⊢
    rw [hpast]
  · rw [transact_eq, transact_eq, (hlift m.session).blind c c' m hc]
  · rw [transact_eq] at hw
    exact (hlift m.session).halts c m why hw

section Methods

variable {site : CallSite} (arguments : List ArgumentValue)

lemma callConnection_connect (h : site.method = "connect") :
    Run.callConnection site arguments =
      (Run.holding (arguments.map ArgumentValue.value) Run.connectionChoice >>= fun choice =>
        transact site (Connection.connect choice) >>= fun _ => pure (.boolean true)) := by
  funext c m
  obtain ⟨choice, hchoice⟩ := holding_connectionChoice (arguments.map ArgumentValue.value) c m
  simp only [Run.callConnection, h]
  rw [bind_ok (rfl : Run.machine c m = (.ok m, m)), bind_ok hchoice, bind_ok hchoice]
  rfl

lemma callConnection_disconnect (h : site.method = "disconnect") :
    Run.callConnection site arguments =
      (transact site Connection.disconnect >>= fun _ => pure (.boolean true)) := by
  simp only [Run.callConnection, h]
  rfl

lemma callConnection_open (h : site.method = "open") (argument : ArgumentValue) :
    Run.callConnection site [argument] =
      (Run.text argument.value >>= fun table => transact site (Connection.rows table) >>= fun rows =>
        (Run.allocate fun heap => heap.newCursor rows) >>= fun id => pure (.cursor id)) := by
  simp only [Run.callConnection, h]
  rfl

lemma callConnection_refused (hopen : site.method = "open" → arguments.length ≠ 1)
    (hconnect : site.method ≠ "connect") (hdisconnect : site.method ≠ "disconnect") :
    ∃ fault, (fault = .unknownMethod ∨ fault = .arityMismatch 1 arguments.length) ∧
      Run.callConnection site arguments = Run.fail site.token fault := by
  by_cases h : site.method = "open"
  · refine ⟨_, .inr rfl, ?_⟩
    simp only [Run.callConnection, h]
    cases arguments with
    | nil => rfl
    | cons argument others =>
      cases others with
      | nil => exact absurd rfl (hopen h)
      | cons _ _ => rfl
  · refine ⟨_, .inl rfl, ?_⟩
    simp only [Run.callConnection]
    rfl

lemma atomic_callConnection (site : CallSite) (arguments : List ArgumentValue) :
    Atomic (Run.callConnection site arguments) := by
  by_cases hconnect : site.method = "connect"
  · rw [callConnection_connect arguments hconnect]
    refine atomic_bind (atomic_holding _ atomic_connectionChoice connectionChoice_stays) fun choice =>
      atomic_bind (atomic_transact site fun held => ?_) fun _ => atomic_pure _
    simpa only [(outcome_eq held).1] using talks_outcome (.connect choice) held
  by_cases hdisconnect : site.method = "disconnect"
  · rw [callConnection_disconnect arguments hdisconnect]
    refine atomic_bind (atomic_transact site fun held => ?_) fun _ => atomic_pure _
    simpa only [(outcome_eq held).2.2] using talks_outcome .disconnect held
  by_cases hopen : site.method = "open" → arguments.length ≠ 1
  · obtain ⟨fault, hfault, heq⟩ := callConnection_refused arguments hopen hconnect hdisconnect
    rw [heq]
    rcases hfault with rfl | rfl <;> exact atomic_fail _ _ rfl
  · obtain ⟨hmethod, hlength⟩ := Classical.not_imp.mp hopen
    obtain ⟨argument, rfl⟩ := List.length_eq_one_iff.mp (Classical.not_not.mp hlength)
    rw [callConnection_open hmethod]
    refine atomic_bind (atomic_text _) fun table =>
      atomic_bind (atomic_transact site fun held => ?_) fun rows =>
      atomic_bind (atomic_allocate _ fun heap => .single (.newCursor heap rows)) fun _ =>
      atomic_pure _
    simpa only [(outcome_eq held).2.1] using talks_outcome (.open table) held

end Methods

lemma atomic_callNative (which : Native) (site : CallSite) (arguments : List ArgumentValue) :
    Atomic (Run.callNative which site arguments) := by
  cases which with
  | connection => exact atomic_callConnection site arguments
  | alltrim =>
    refine atomic_bind (atomic_checkCount site _ arguments) fun _ =>
      atomic_bind (atomic_checkTypes _ arguments) fun _ => ?_
    split
    · exact atomic_pure _
    · exact atomic_pure _
    · exact atomic_bind (atomic_text _) fun _ => atomic_pure _
  | len =>
    refine atomic_bind (atomic_checkCount site _ arguments) fun _ => ?_
    split <;> exact atomic_pure _
  | tick =>
    exact atomic_bind (atomic_checkCount site _ arguments) fun _ =>
      atomic_bind atomic_now fun _ => atomic_pure _
  | tack =>
    refine atomic_bind (atomic_checkCount site _ arguments) fun _ =>
      atomic_bind (atomic_checkTypes _ arguments) fun _ => ?_
    split <;> exact atomic_bind atomic_now fun _ => atomic_pure _

lemma atomic_setCursor (id : CursorId) (cursor : Cursor) :
    Atomic (Run.modify fun m => { m with heap := m.heap.setCursor id cursor }) :=
  atomic_modify _ (fun m => change_of_edits m (.single (.setCursor m.heap id cursor)))
    fun _ _ => rfl

lemma atomic_callCursor (id : CursorId) (site : CallSite) (arguments : List ArgumentValue) :
    Atomic (Run.callCursor id site arguments) := by
  unfold Run.callCursor
  split
  · exact atomic_fail _ _ rfl
  · refine atomic_bind (atomic_cursor id) fun cursor => ?_
    split
    · exact atomic_bind (atomic_setCursor id _) fun _ => atomic_pure _
    · exact atomic_pure _
    · exact atomic_bind (atomic_setCursor id _) fun _ => atomic_pure _
    · exact atomic_fail _ _ rfl

lemma atomic_callClass (id : ClassId) (site : CallSite) (arguments : List ArgumentValue) :
    Atomic (Run.callClass id site arguments) :=
  atomic_bind atomic_heap fun _ => atomic_bind (atomic_record _ _) fun _ => atomic_pure _

end Callees

end Proofs

end XBase
