import XBase.Proofs.Law

/-!
# Lawful acts

A single act that is given lawful values leaves the machine under the law and gives a lawful value.
It does not fail because of the types of an operator or of a target, which is left to the operators
and the targets themselves, nor because of control flow.
-/

namespace XBase.Proofs

/-- Whether a fault is raised for operands that an operator does not take, or for an object that
cannot be written to. -/
def isTypeFault : Fault → Bool
  | .incompatibleTypes | .invalidMemberTarget => true
  | _ => false

/-- Whether a fault is one that a law finds a cause for in the code. -/
def isCaused (fault : Fault) : Bool :=
  isTypeFault fault || isMisplaced fault

namespace Law

variable {ω : Type} {c : Config} (law : Law ω c)

/-- A machine that is under a law. -/
structure Governs (w : ω) (m : Machine) : Prop where
  heap : law.Obeyed w m.heap
  keep : law.keep w m.heap
  home : m.globals = law.home
  session : ∀ held, m.session = some held → law.driver held.driver

/-- The outcome of a lawful act. -/
structure Permitted (w : ω) (m : Machine) {α : Type} (outcome : Except Halt α × Machine)
    (post : Nat → α → Prop) : Prop where
  governs : law.Governs w outcome.2
  scope : outcome.2.scope = m.scope
  size : m.heap.scopes.size ≤ outcome.2.heap.scopes.size
  result : ∀ a, outcome.1 = .ok a → post outcome.2.heap.scopes.size a
  calm : ∀ error, outcome.1 = .error (.failure error) → isCaused error.fault = false

/-- An act in the scope `s` that is lawful when there are `n` scopes or more. What it gives
satisfies `post`, which is told how many scopes there are. -/
def Permits (s : ScopeId) (w : ω) (n : Nat) {α : Type} (x : Run α) (post : Nat → α → Prop) : Prop :=
  ∀ m, m.scope = s → n ≤ m.heap.scopes.size → law.Governs w m → law.Permitted w m (x c m) post

abbrev Any {α : Type} : Nat → α → Prop :=
  fun _ _ => True

variable {token : Token} {heap : Heap} {v : Value}

section Rules

variable {s : ScopeId} {w : ω} {n : Nat} {α β : Type} {post : Nat → α → Prop}
  {post' : Nat → β → Prop}

lemma permits_pure {a : α} (h : ∀ n', n ≤ n' → post n' a) : law.Permits s w n (pure a) post := by
  intro m hs hn hm
  refine ⟨hm, rfl, Nat.le_refl _, ?_, ?_⟩
  · intro b hb
    cases hb
    exact h _ hn
  · intro error herror
    cases herror

lemma permits_fail {fault : Fault} (h : isCaused fault = false) :
    law.Permits s w n (Run.fail token fault) post := by
  intro m hs hn hm
  refine ⟨hm, rfl, Nat.le_refl _, ?_, ?_⟩
  · intro b hb
    cases hb
  · intro error herror
    cases herror
    exact h

lemma permits_bind {x : Run α} {f : α → Run β} (hx : law.Permits s w n x post)
    (hf : ∀ n' a, n ≤ n' → post n' a → law.Permits s w n' (f a) post') :
    law.Permits s w n (x >>= f) post' := by
  intro m hs hn hm
  have hfirst := hx m hs hn hm
  rcases h : x c m with ⟨why | a, m'⟩
  · rw [h] at hfirst
    rw [bind_error h]
    refine ⟨hfirst.governs, hfirst.scope, hfirst.size, ?_, ?_⟩
    · intro b hb
      cases hb
    · intro error herror
      cases herror
      exact hfirst.calm error rfl
  · rw [h] at hfirst
    rw [bind_ok h]
    have hrest := hf m'.heap.scopes.size a (Nat.le_trans hn hfirst.size) (hfirst.result a rfl) m'
      (hfirst.scope.trans hs) (Nat.le_refl _) hfirst.governs
    exact ⟨hrest.governs, hrest.scope.trans hfirst.scope, Nat.le_trans hfirst.size hrest.size,
      hrest.result, hrest.calm⟩

lemma permits_weaken {x : Run α} {other : Nat → α → Prop} (hx : law.Permits s w n x other)
    (h : ∀ n' a, n ≤ n' → other n' a → post n' a) : law.Permits s w n x post := by
  intro m hs hn hm
  have hout := hx m hs hn hm
  exact ⟨hout.governs, hout.scope, hout.size,
    fun a ha => h _ a (Nat.le_trans hn hout.size) (hout.result a ha), hout.calm⟩

lemma permits_config : law.Permits s w n Run.config fun _ config => config = c := by
  intro m hs hn hm
  refine ⟨hm, rfl, Nat.le_refl _, ?_, ?_⟩
  · intro config hconfig
    cases hconfig
    rfl
  · intro error herror
    cases herror

lemma permits_machine :
    law.Permits s w n Run.machine fun n' m => law.Governs w m ∧ m.heap.scopes.size = n' := by
  intro m hs hn hm
  refine ⟨hm, rfl, Nat.le_refl _, ?_, ?_⟩
  · intro found hfound
    cases hfound
    exact ⟨hm, rfl⟩
  · intro error herror
    cases herror

lemma permits_heap :
    law.Permits s w n Run.heap fun n' heap => law.Obeyed w heap ∧ heap.scopes.size = n' := by
  intro m hs hn hm
  refine ⟨hm, rfl, Nat.le_refl _, ?_, ?_⟩
  · intro found hfound
    cases hfound
    exact ⟨hm.heap, rfl⟩
  · intro error herror
    cases herror

lemma permits_scope : law.Permits s w n Run.scope fun _ id => id = s := by
  intro m hs hn hm
  refine ⟨hm, rfl, Nat.le_refl _, ?_, ?_⟩
  · intro id hid
    cases hid
    exact hs
  · intro error herror
    cases herror

lemma permits_modify {f : Machine → Machine} (hgoverns : ∀ m, law.Governs w m → law.Governs w (f m))
    (hscope : ∀ m, (f m).scope = m.scope)
    (hsize : ∀ m, (f m).heap.scopes.size = m.heap.scopes.size) :
    law.Permits s w n (Run.modify f) Any := by
  intro m hs hn hm
  refine ⟨hgoverns m hm, hscope m, Nat.le_of_eq (hsize m).symm, fun _ _ => trivial, ?_⟩
  intro error herror
  cases herror

lemma size_edits {heap' : Heap} (h : law.Edits w heap heap') :
    heap'.scopes.size = heap.scopes.size := by
  induction h with
  | refl => rfl
  | tail _ hedit ih => exact (law.size_edit hedit).trans ih

lemma governs_edits {m : Machine} (hm : law.Governs w m) (h : law.Edits w m.heap heap) :
    law.Governs w { m with heap } := by
  induction h with
  | refl => exact hm
  | tail _ hedit ih =>
    exact ⟨law.obeyed_edit ih.heap hedit, law.keep_edit ih.keep hedit, ih.home, ih.session⟩

lemma permits_allocate {f : Heap → α × Heap}
    (h : ∀ heap, n ≤ heap.scopes.size → law.Obeyed w heap → law.keep w heap →
      law.Edits w heap (f heap).2 ∧ post heap.scopes.size (f heap).1) :
    law.Permits s w n (Run.allocate f) post := by
  intro m hs hn hm
  obtain ⟨hedits, hpost⟩ := h m.heap hn hm.heap hm.keep
  have hsize : (f m.heap).2.scopes.size = m.heap.scopes.size := law.size_edits hedits
  refine ⟨law.governs_edits hm hedits, rfl, Nat.le_of_eq hsize.symm, ?_, ?_⟩
  · intro a ha
    cases ha
    change post (f m.heap).2.scopes.size _
    rw [hsize]
    exact hpost
  · intro error herror
    cases herror

lemma permits_lift {result : Except Fault α} (hok : ∀ a, result = .ok a → ∀ n', n ≤ n' → post n' a)
    (hcalm : ∀ fault, result = .error fault → isCaused fault = false) :
    law.Permits s w n (Run.lift token result) post := by
  cases result with
  | ok a => exact law.permits_pure (hok a rfl)
  | error fault => exact law.permits_fail (hcalm fault rfl)

lemma permits_lift_mapError {ε : Type} {result : Except ε α} {cause : ε → Fault}
    (hcause : ∀ error, isCaused (cause error) = false)
    (hok : ∀ a, result = .ok a → ∀ n', n ≤ n' → post n' a) :
    law.Permits s w n (Run.lift token (result.mapError cause)) post := by
  cases result with
  | ok a => exact law.permits_pure (hok a rfl)
  | error error => exact law.permits_fail (hcause error)

end Rules

section Names

variable {s id : ScopeId} {w : ω} {n : Nat}

lemma permits_text (v : Value) : law.Permits s w n (Run.text v) Any :=
  law.permits_bind law.permits_heap fun _ _ _ _ => law.permits_pure fun _ _ => trivial

lemma permits_record (level : Level) (text : String) :
    law.Permits s w n (Run.record level text) Any :=
  law.permits_modify (fun _ hm => ⟨hm.heap, hm.keep, hm.home, hm.session⟩) (fun _ => rfl)
    fun _ => rfl

lemma permits_print (token : Token) (line : String) :
    law.Permits s w n (Run.print token line) Any := by
  refine law.permits_bind law.permits_config fun n' config _ hconfig => ?_
  split
  · exact law.permits_fail rfl
  · exact law.permits_modify (fun _ hm => ⟨hm.heap, hm.keep, hm.home, hm.session⟩) (fun _ => rfl)
      fun _ => rfl

lemma permits_now : law.Permits s w n Run.now Any :=
  law.permits_bind law.permits_machine fun _ _ _ _ =>
    law.permits_bind
      (law.permits_modify (fun _ hm => ⟨hm.heap, hm.keep, hm.home, hm.session⟩) (fun _ => rfl)
        fun _ => rfl)
      fun _ _ _ _ => law.permits_bind law.permits_config fun _ _ _ _ =>
        law.permits_pure fun _ _ => trivial

lemma permits_lookup (hid : law.knows (.scope id)) (name : String) (token : Token) :
    law.Permits s w n (Run.lookup id name token) (law.value w) := by
  refine law.permits_bind law.permits_heap fun n' heap _ ⟨hheap, hsize⟩ => ?_
  refine law.permits_lift_mapError (fun _ => rfl) fun v hv n'' hn => ?_
  have hvalue := law.value_lookup hheap hid hv
  rw [hsize] at hvalue
  exact law.value_mono hn hvalue

lemma permits_rebind {f : Heap → Except ScopeError Unit × Heap}
    (h : ∀ heap, n ≤ heap.scopes.size → law.Obeyed w heap → law.Edits w heap (f heap).2) :
    law.Permits s w n (Run.rebind token f) Any := by
  have hallocate : law.Permits s w n (Run.allocate f) Any :=
    law.permits_allocate fun heap hn hheap _ => ⟨h heap hn hheap, trivial⟩
  exact law.permits_bind hallocate fun _ _ _ _ =>
    law.permits_lift_mapError (fun _ => rfl) fun _ _ _ _ => trivial

lemma permits_define (hid : law.opens id) (hv : law.value w n v) (name : Token)
    (kind : BindingKind) : law.Permits s w n (Run.define id name v kind) Any :=
  law.permits_rebind fun _ hn _ => law.edits_define hid (law.value_mono hn hv) _ _

lemma permits_assign (hid : law.opens id) (hv : law.value w n v) (token : Token) (name : String) :
    law.Permits s w n (Run.rebind token fun heap => heap.assign id name v) Any :=
  law.permits_rebind fun _ hn hheap => law.edits_assign hheap hid (law.value_mono hn hv) _

lemma permits_assignOwn (hid : law.opens id) (hv : law.value w n v) (token : Token)
    (name : String) :
    law.Permits s w n (Run.rebind token fun heap => heap.assignOwn id name v) Any :=
  law.permits_rebind fun _ hn _ =>
    law.edits_assignOwn (law.knows_of_opens hid) (law.value_mono hn hv) fun _ => hid

lemma permits_target (hs : law.opens s) (extent : Extent) :
    law.Permits s w n (Run.target extent) fun _ id => law.opens id := by
  cases extent with
  | «local» =>
    refine law.permits_weaken law.permits_scope fun _ id _ hid => ?_
    rw [hid]
    exact hs
  | global =>
    refine law.permits_bind law.permits_machine fun _ m _ hm => law.permits_pure fun _ _ => ?_
    rw [hm.1.home]
    exact law.opens_home

lemma permits_superclass (hs : law.knows (.scope s)) (declaration : ClassDecl Stmt) :
    law.Permits s w n (Run.superclass declaration) Any := by
  unfold Run.superclass
  split
  · exact law.permits_pure fun _ _ => trivial
  · refine law.permits_bind law.permits_scope fun _ id _ hid => ?_
    rw [hid]
    refine law.permits_bind (law.permits_lookup hs _ _) fun _ v _ _ => ?_
    split
    · exact law.permits_pure fun _ _ => trivial
    · exact law.permits_fail rfl

lemma permits_checkCounts (token : Token) (targets values : Nat) :
    law.Permits s w n (Run.checkCounts token targets values) Any := by
  unfold Run.checkCounts
  split
  · exact law.permits_fail rfl
  · split
    · exact law.permits_fail rfl
    · exact law.permits_pure fun _ _ => trivial

lemma permits_advance (hid : law.opens id) (token counter : Token) (range : Run.Range) :
    law.Permits s w n (Run.advance token counter id range) Any := by
  refine law.permits_bind (law.permits_lookup (law.knows_of_opens hid) _ _) fun n' v _ _ => ?_
  cases v with
  | number current =>
    have hnext : law.value w n' (.number (current + range.increment)) := trivial
    exact law.permits_bind (law.permits_assign hid hnext _ _) fun _ _ _ _ =>
      law.permits_pure fun _ _ => trivial
  | _ => exact law.permits_fail rfl

lemma permits_addressed (parameters : List Parameter) (position : Nat) (argument : ArgumentValue) :
    law.Permits s w n (Run.addressed parameters position argument) Any := by
  unfold Run.addressed
  split
  · split <;> exact law.permits_pure fun _ _ => trivial
  · split
    · exact law.permits_pure fun _ _ => trivial
    · exact law.permits_fail rfl

lemma permits_prototype (name : Token) :
    law.Permits s w n (Run.prototype name) (law.value w) := by
  refine law.permits_bind law.permits_machine fun _ m _ hm => ?_
  rw [hm.1.home]
  exact law.permits_lookup law.knows_home _ _

end Names

section Allocations

variable {s : ScopeId} {w : ω} {n : Nat}

lemma permits_newArray {values : List Value} (h : ∀ v ∈ values, law.value w n v) :
    law.Permits s w n (Run.allocate fun heap => heap.newArray values.toArray)
      fun _ id => law.knows (.array id) := by
  refine law.permits_allocate fun heap hn _ hkeep => ⟨.single (.newArray ?_), ?_⟩
  · intro v hv
    exact law.value_mono hn (h v (by simpa using hv))
  · have hlacks : Lacks heap (.array heap.arrays.size) := Nat.le_refl _
    exact law.knows_of_lacks hkeep hlacks

lemma permits_newFunction {closure : Closure} (hplace : law.place n closure.scope)
    (hcode : law.Code (Stmt.functionNodes closure.declaration)) :
    law.Permits s w n (Run.allocate fun heap => heap.newFunction closure)
      fun _ id => law.knows (.function id) := by
  refine law.permits_allocate fun heap hn _ hkeep =>
    ⟨.single (.newFunction (law.place_mono hn hplace) hcode), ?_⟩
  have hlacks : Lacks heap (.function heap.functions.size) := Nat.le_refl _
  exact law.knows_of_lacks hkeep hlacks

lemma permits_newClass (cell : ClassCell) :
    law.Permits s w n (Run.allocate fun heap => heap.newClass cell) Any :=
  law.permits_allocate fun _ _ _ _ => ⟨.single (.newClass cell), trivial⟩

end Allocations

section Arrays

variable {s : ScopeId} {w : ω} {n : Nat} {id : ArrayId}

lemma permits_updateElements {α : Type} (hid : law.knows (.array id))
    {f : Elements → α × Elements} {post : Nat → α → Prop}
    (hf : ∀ n' elements, n ≤ n' → (∀ v ∈ elements, law.value w n' v) →
      (∀ v ∈ (f elements).2, law.value w n' v) ∧ post n' (f elements).1) :
    law.Permits s w n (Run.updateElements id f) post := by
  refine law.permits_allocate fun heap hn hheap _ => ?_
  obtain ⟨hvalues, hpost⟩ := hf heap.scopes.size (heap.elements id) hn (hheap.element id hid)
  exact ⟨law.edits_updateElements hid hvalues, hpost⟩

lemma permits_push (hid : law.knows (.array id)) (hv : law.value w n v) :
    law.Permits s w n (Run.push id v) Any := by
  refine law.permits_updateElements hid fun n' elements hn helements => ⟨?_, trivial⟩
  intro found hfound
  rcases Array.mem_push.mp hfound with hold | rfl
  · exact helements found hold
  · exact law.value_mono hn hv

lemma permits_callArray (hid : law.knows (.array id)) (site : CallSite)
    {arguments : List ArgumentValue}
    (harguments : ∀ argument ∈ arguments, law.value w n argument.value) :
    law.Permits s w n (Run.callArray id site arguments) (law.value w) := by
  have hupdate : law.Permits s w n
      (Run.updateElements id fun elements => elements.call site arguments)
      fun n' result => (∃ v, result = .ok v ∧ law.value w n' v) ∨
        ∃ token fault, result = .error (.ofToken token fault) ∧ isCaused fault = false := by
    refine law.permits_updateElements hid fun n' elements hn helements => ?_
    generalize hcall : elements.call site arguments = answer
    cases hcall ▸ call_answers elements site arguments with
    | refused token h => exact ⟨helements, .inr ⟨token, _, rfl, by cases h <;> rfl⟩⟩
    | gave hvalue hafter =>
      refine ⟨fun v hv => ?_, .inl ⟨_, rfl, ?_⟩⟩
      · rcases hafter v hv with hold | ⟨argument, hargument, rfl⟩
        · exact helements v hold
        · exact law.value_mono hn (harguments argument hargument)
      · rcases hvalue with ⟨_, rfl⟩ | ⟨_, rfl⟩ | hold
        · trivial
        · trivial
        · exact helements _ hold
  refine law.permits_bind hupdate fun n' result hn hresult => ?_
  rcases hresult with ⟨v, rfl, hv⟩ | ⟨token, fault, rfl, hcalm⟩
  · exact law.permits_pure fun n'' hn' => law.value_mono hn' hv
  · exact law.permits_fail hcalm

end Arrays

section Cursors

variable {s : ScopeId} {w : ω} {n : Nat} {id : CursorId}

lemma permits_cursor (hid : law.knows (.cursor id)) :
    law.Permits s w n (Run.cursor id) fun n' cursor => law.Rows w n' cursor.rows := by
  refine law.permits_bind law.permits_heap fun n' heap _ ⟨hheap, hsize⟩ =>
    law.permits_pure fun n'' hn => ?_
  cases hfound : heap.cursors[id]? with
  | none =>
    intro row hrow
    cases hrow
  | some cursor =>
    have hrows := hheap.column id cursor hid hfound
    rw [hsize] at hrows
    exact law.rows_mono hn hrows

lemma permits_cursorMember (hid : law.knows (.cursor id)) (property : Token) :
    law.Permits s w n (Run.cursorMember id property) (law.value w) := by
  unfold Run.cursorMember
  split
  · exact law.permits_pure fun _ _ => hid
  · refine law.permits_bind (law.permits_cursor hid) fun n' cursor _ hrows => ?_
    refine law.permits_lift_mapError (fun _ => rfl) fun v hv n'' hn => law.value_mono hn ?_
    unfold Cursor.column at hv
    split at hv
    · cases hv
    · split at hv
      · cases hv
      · next row hrow =>
        split at hv
        · next entry hentry =>
          cases hv
          exact hrows row (List.mem_of_getElem? hrow) entry (List.mem_of_find?_eq_some hentry)
        · cases hv

lemma permits_setCursor (hid : law.knows (.cursor id)) {cursor : Cursor}
    (h : law.Rows w n cursor.rows) :
    law.Permits s w n (Run.modify fun m => { m with heap := m.heap.setCursor id cursor }) Any := by
  intro m hs hn hm
  have hedits : law.Edits w m.heap (m.heap.setCursor id cursor) :=
    .single (.setCursor hid (law.rows_mono hn h))
  refine ⟨law.governs_edits hm hedits, rfl, Nat.le_refl _, fun _ _ => trivial, ?_⟩
  intro error herror
  cases herror

lemma rows_advance (cursor : Cursor) : cursor.advance.rows = cursor.rows := by
  unfold Cursor.advance
  split <;> rfl

lemma permits_callCursor (hid : law.knows (.cursor id)) (site : CallSite)
    (arguments : List ArgumentValue) :
    law.Permits s w n (Run.callCursor id site arguments) (law.value w) := by
  unfold Run.callCursor
  split
  · exact law.permits_fail rfl
  · refine law.permits_bind (law.permits_cursor hid) fun n' cursor _ hrows => ?_
    have hadvance : law.Rows w n' cursor.advance.rows := by
      rw [rows_advance]
      exact hrows
    split
    · exact law.permits_bind (law.permits_setCursor hid hadvance) fun _ _ _ _ =>
        law.permits_pure fun _ _ => trivial
    · exact law.permits_pure fun _ _ => trivial
    · exact law.permits_bind (law.permits_setCursor hid hrows) fun _ _ _ _ =>
        law.permits_pure fun _ _ => trivial
    · exact law.permits_fail rfl

end Cursors

section Connection

variable {s : ScopeId} {w : ω} {n : Nat}

lemma permits_settle {α : Type} (site : CallSite) {reply : ConnectionReply α}
    {post : Nat → α → Prop} (hheld : ∀ held, reply.held = some held → law.driver held.driver)
    (hok : ∀ a, reply.result = .ok a → ∀ n', n ≤ n' → post n' a) :
    law.Permits s w n (Run.settle site reply) post := by
  have hmodify : law.Permits s w n
      (Run.modify fun m => { m with session := reply.held, log := m.log ++ reply.log }) Any :=
    law.permits_modify (fun _ hm => ⟨hm.heap, hm.keep, hm.home, hheld⟩) (fun _ => rfl) fun _ => rfl
  exact law.permits_bind hmodify fun n' _ hn _ =>
    law.permits_lift_mapError (fun _ => rfl) fun a ha n'' hn' => hok a ha n'' (Nat.le_trans hn hn')

lemma except_bind_eq_ok {ε α β : Type} {x : Except ε α} {f : α → Except ε β} {b : β}
    (h : (x >>= f) = .ok b) : ∃ a, x = .ok a ∧ f a = .ok b := by
  cases x with
  | error e => cases h
  | ok a => exact ⟨a, rfl, h⟩

/-- The driver that a setting selects is registered. -/
lemma driver_of_select {provider : Value} {driver : Driver}
    (h : c.host.drivers.select heap provider = .ok driver) : law.driver driver := by
  have hnumbered : ∃ number, c.host.drivers.driver? number = some driver := by
    unfold Registry.select at h
    dsimp only at h
    repeat' split at h
    -- However the number is found, it is looked up in the same way.
    all_goals
      obtain ⟨number, -, hfound⟩ := except_bind_eq_ok h
      split at hfound
      · next hnumber =>
        cases hfound
        exact ⟨number, hnumber⟩
      · cases hfound
  obtain ⟨number, hnumber⟩ := hnumbered
  obtain ⟨entry, hentry, rfl⟩ := Option.map_eq_some_iff.mp hnumber
  exact law.registry entry (List.mem_reverse.mp (List.mem_of_find?_eq_some hentry))

lemma permits_connectionChoice :
    law.Permits s w n Run.connectionChoice fun _ choice =>
      ∀ driver settings, choice = .ok (driver, settings) → law.driver driver := by
  refine law.permits_bind law.permits_machine fun _ m _ _ => ?_
  have hroots : ∀ n', law.Permits s w n' Run.roots Any := fun n' =>
    law.permits_bind law.permits_machine fun _ _ _ _ =>
      law.permits_bind law.permits_config fun _ _ _ _ => law.permits_pure fun _ _ => trivial
  refine law.permits_bind (hroots _) fun _ roots _ _ => ?_
  split
  · refine law.permits_bind law.permits_config fun _ config _ hconfig =>
      law.permits_pure fun _ _ driver settings hchoice => ?_
    rw [hconfig] at hchoice
    cases hselect : c.host.drivers.select m.heap (Connection.provider m.heap m.connection) with
    | ok found =>
      rw [hselect] at hchoice
      cases hchoice
      exact law.driver_of_select hselect
    | error message =>
      rw [hselect] at hchoice
      cases hchoice
  · refine law.permits_pure fun _ _ driver settings hchoice => ?_
    cases hchoice

lemma permits_holding {α : Type} (values : List Value) {x : Run α} {post : Nat → α → Prop}
    (hx : law.Permits s w n x post) : law.Permits s w n (Run.holding values x) post := by
  intro m hs hn hm
  have hout := hx { m with held := values.filterMap Value.cell? ++ m.held } hs hn
    ⟨hm.heap, hm.keep, hm.home, hm.session⟩
  exact ⟨⟨hout.governs.heap, hout.governs.keep, hout.governs.home, hout.governs.session⟩,
    hout.scope, hout.size, hout.result, hout.calm⟩

lemma held_connect {choice : Except String (Driver × Settings)} {held : Option DriverSession}
    (hchoice : ∀ driver settings, choice = .ok (driver, settings) → law.driver driver)
    (hheld : ∀ found, held = some found → law.driver found.driver) :
    ∀ found, (Connection.connect choice held).held = some found → law.driver found.driver := by
  intro found hfound
  unfold Connection.connect at hfound
  split at hfound
  · cases hfound
    exact hheld _ rfl
  · split at hfound
    · cases hfound
    · dsimp only at hfound
      split at hfound
      · cases hfound
      · cases hfound
        exact hchoice _ _ rfl

lemma permits_rows (htables : law.tables) {m : Machine} (hm : law.Governs w m)
    (hn : m.heap.scopes.size ≤ n) (table : String) (site : CallSite) :
    law.Permits s w n (Run.settle site (Connection.rows table m.session)) (law.Rows w) := by
  refine law.permits_settle site (fun held hheld => ?_) fun rows hrows n' hn' => ?_
  · unfold Connection.rows at hheld
    split at hheld
    · cases hheld
    · next session hsession =>
      cases hheld
      exact hm.session session hsession
  · unfold Connection.rows at hrows
    split at hrows
    · cases hrows
    · next session hsession =>
      have hfound := law.rows_of_driver hm.keep htables (hm.session session hsession) hrows
      exact law.rows_mono (Nat.le_trans hn hn') hfound

lemma permits_newCursor {rows : List Row} (h : law.Rows w n rows) :
    law.Permits s w n (Run.allocate fun heap => heap.newCursor rows)
      fun _ id => law.knows (.cursor id) := by
  refine law.permits_allocate fun heap hn _ hkeep =>
    ⟨.single (.newCursor (law.rows_mono hn h)), ?_⟩
  have hlacks : Lacks heap (.cursor heap.cursors.size) := Nat.le_refl _
  exact law.knows_of_lacks hkeep hlacks

lemma permits_callConnection (htables : law.tables) (site : CallSite)
    (arguments : List ArgumentValue) :
    law.Permits s w n (Run.callConnection site arguments) (law.value w) := by
  refine law.permits_bind law.permits_machine fun n' m _ ⟨hm, hsize⟩ => ?_
  have hany : ∀ {n'' : Nat} {reply : ConnectionReply Unit} (a : Unit), reply.result = .ok a →
      ∀ n''', n'' ≤ n''' → Any n''' a := fun _ _ _ _ => trivial
  dsimp only
  split
  · refine law.permits_bind (law.permits_holding _ law.permits_connectionChoice)
      fun _ choice _ hchoice => ?_
    exact law.permits_bind
      (law.permits_settle site (law.held_connect hchoice hm.session) hany)
      fun _ _ _ _ => law.permits_pure fun _ _ => trivial
  · have hheld : ∀ found, (Connection.disconnect m.session).held = some found →
        law.driver found.driver := by
      intro found hfound
      unfold Connection.disconnect at hfound
      split at hfound <;> cases hfound
    exact law.permits_bind (law.permits_settle site hheld hany)
      fun _ _ _ _ => law.permits_pure fun _ _ => trivial
  · split
    · refine law.permits_bind (law.permits_text _) fun n'' table hn _ => ?_
      have hless : m.heap.scopes.size ≤ n'' := hsize ▸ hn
      refine law.permits_bind (law.permits_rows htables hm hless table site)
        fun _ rows _ hrows => ?_
      refine law.permits_bind (law.permits_newCursor hrows) fun _ id _ hid => ?_
      exact law.permits_pure fun _ _ => hid
    · exact law.permits_fail rfl
  · exact law.permits_fail rfl

lemma permits_checkCount (site : CallSite) (expected : List ExpectedType)
    (arguments : List ArgumentValue) :
    law.Permits s w n (Run.checkCount site expected arguments) Any := by
  unfold Run.checkCount
  split
  · exact law.permits_fail rfl
  · exact law.permits_pure fun _ _ => trivial

lemma permits_checkTypes (expected : List ExpectedType) (arguments : List ArgumentValue) :
    law.Permits s w n (Run.checkTypes expected arguments) Any := by
  induction expected generalizing arguments with
  | nil => exact law.permits_pure fun _ _ => trivial
  | cons type others ih =>
    cases arguments with
    | nil => exact law.permits_pure fun _ _ => trivial
    | cons argument arguments =>
      rw [Run.checkTypes]
      split
      · exact ih arguments
      · exact law.permits_fail rfl

lemma permits_callNative {which : Native} (hwhich : law.value w n (.native which))
    (site : CallSite) (arguments : List ArgumentValue) :
    law.Permits s w n (Run.callNative which site arguments) (law.value w) := by
  cases which with
  | connection => exact law.permits_callConnection hwhich site arguments
  | alltrim =>
    refine law.permits_bind (law.permits_checkCount site _ arguments) fun _ _ _ _ =>
      law.permits_bind (law.permits_checkTypes _ arguments) fun _ _ _ _ => ?_
    split
    · exact law.permits_pure fun _ _ => trivial
    · exact law.permits_pure fun _ _ => trivial
    · exact law.permits_bind (law.permits_text _) fun _ _ _ _ =>
        law.permits_pure fun _ _ => trivial
  | len =>
    refine law.permits_bind (law.permits_checkCount site _ arguments) fun _ _ _ _ => ?_
    split <;> exact law.permits_pure fun _ _ => trivial
  | tick =>
    exact law.permits_bind (law.permits_checkCount site _ arguments) fun _ _ _ _ =>
      law.permits_bind law.permits_now fun _ _ _ _ => law.permits_pure fun _ _ => trivial
  | tack =>
    refine law.permits_bind (law.permits_checkCount site _ arguments) fun _ _ _ _ =>
      law.permits_bind (law.permits_checkTypes _ arguments) fun _ _ _ _ => ?_
    split <;> exact law.permits_bind law.permits_now fun _ _ _ _ =>
      law.permits_pure fun _ _ => trivial

lemma permits_callClass (id : ClassId) (site : CallSite) (arguments : List ArgumentValue) :
    law.Permits s w n (Run.callClass id site arguments) (law.value w) :=
  law.permits_bind law.permits_heap fun _ _ _ _ =>
    law.permits_bind (law.permits_record _ _) fun _ _ _ _ => law.permits_pure fun _ _ => trivial

lemma permits_checkCallee (callee : Expr) (v : Value) (arguments : Nat) :
    law.Permits s w n (Run.checkCallee callee v arguments) Any := by
  refine law.permits_bind law.permits_heap fun _ _ _ _ => ?_
  split
  · exact law.permits_fail rfl
  · split
    · exact law.permits_fail rfl
    · exact law.permits_pure fun _ _ => trivial

end Connection

section Members

variable {s : ScopeId} {w : ω} {n : Nat}

lemma permits_readMember {object : Value} (hobject : law.value w n object) (property : Token) :
    law.Permits s w n (Run.readMember object property) (law.value w) := by
  cases object with
  | scope id => exact law.permits_lookup (law.knows_of_handle hobject) _ _
  | cursor id => exact law.permits_cursorMember hobject property
  | _ => exact law.permits_pure fun _ hn => law.value_mono hn hobject

lemma permits_readIndex {object : Value} (hobject : law.value w n object) (key : Value)
    (bracket : Token) : law.Permits s w n (Run.readIndex object key bracket) (law.value w) := by
  unfold Run.readIndex
  split
  · next id index =>
    refine law.permits_bind law.permits_heap fun n' heap _ ⟨hheap, hsize⟩ => ?_
    have helements := hheap.element id hobject
    rw [hsize] at helements
    rcases get_cases (heap.elements id) index with ⟨v, hv, hget⟩ | hget <;> rw [hget]
    · exact law.permits_pure fun n'' hn => law.value_mono hn (helements v hv)
    · exact law.permits_fail rfl
  · exact law.permits_lookup (law.knows_of_handle hobject) _ _
  · exact law.permits_pure fun _ hn => law.value_mono hn hobject

lemma permits_writeElement {id : ArrayId} (hid : law.knows (.array id)) (hv : law.value w n v)
    (index : Float) (bracket : Token) :
    law.Permits s w n (Run.writeIndex (.array id) (.number index) bracket v) Any := by
  have hupdate : law.Permits s w n
      (Run.updateElements id fun elements => elements.set index v)
      fun _ result => ∀ fault, result = .error fault → isCaused fault = false := by
    refine law.permits_updateElements hid fun n' elements hn helements => ?_
    rcases set_cases elements index v with ⟨_, -, place, hset⟩ | hset <;> rw [hset]
    · refine ⟨fun other hother => ?_, fun fault hfault => by cases hfault⟩
      rcases Array.mem_or_eq_of_mem_setIfInBounds hother with hold | rfl
      · exact helements other hold
      · exact law.value_mono hn hv
    · exact ⟨helements, fun fault hfault => by cases hfault; rfl⟩
  refine law.permits_bind hupdate fun _ result _ hcalm => ?_
  have hlift : ∀ n', law.Permits s w n' (Run.lift bracket result) Any := fun n' =>
    law.permits_lift (fun _ _ _ _ => trivial) hcalm
  exact law.permits_bind (hlift _) fun _ _ _ _ => law.permits_pure fun _ _ => trivial

end Members

end Law

end XBase.Proofs
