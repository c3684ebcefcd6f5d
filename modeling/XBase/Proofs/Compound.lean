import XBase.Proofs.Shadowing

/-!
# Compound assignment

A statement `target op= value` evaluates the value, reads the target, combines the two and writes
the target. The object and the key of a target are evaluated for the reading and once more for the
writing. What is read may be the name of a scope around the object, what is written is always the
object's own.
-/

namespace XBase.Proofs

inductive Location where
  | binding (id : ScopeId) (key : String)
  | element (id : ArrayId) (place : Nat)
deriving DecidableEq

namespace Location

variable (heap : Heap)

def read? : Location → Option Value
  | binding id key => (heap.own? id key).map Binding.value
  | element id place => (heap.elements id)[place]?

def write (value : Value) : Location → Heap
  | binding id key => heap.bind id key ⟨.variable, value⟩
  | element id place => heap.setElements id ((heap.elements id).setIfInBounds place value)

/-- Whether there is such a scope or such an element. -/
def Within : Location → Prop
  | binding id _ => id < heap.scopes.size
  | element id place => place < (heap.elements id).size

/-- The location that is read at a key of an object: a name is that of the nearest scope. -/
def source? : Value → Value → Option Location
  | .scope id, .text name =>
    (heap.owner? id (Text.lower name)).map (binding · (Text.lower name))
  | .array id, .number index => (Elements.slot (heap.elements id) index).toOption.map (element id)
  | _, _ => none

/-- The location that is written at a key of an object: a name is that of the object itself. -/
def sink? : Value → Value → Option Location
  | .scope id, .text name => some (binding id (Text.lower name))
  | .array id, .number index => (Elements.slot (heap.elements id) index).toOption.map (element id)
  | _, _ => none

end Location

section Elements

variable {heap : Heap} {id other : ArrayId}

lemma elements_setElements_self (elements : Elements) (h : id < heap.arrays.size) :
    (heap.setElements id elements).elements id = elements := by
  simp [Heap.elements, Heap.setElements, h]

lemma elements_setElements_of_ne (elements : Elements) (h : id ≠ other) :
    (heap.setElements id elements).elements other = heap.elements other := by
  simp [Heap.elements, Heap.setElements, h]

lemma updateElements_eq {α : Type} (f : Elements → α × Elements) :
    heap.updateElements id f =
      ((f (heap.elements id)).1, heap.setElements id (f (heap.elements id)).2) := by
  simp [Heap.updateElements, Heap.takeElements, Heap.setElements]

lemma slot_eq {elements : Elements} {index : Float} {place : Nat}
    (h : (elements.slot index).toOption = some place) :
    place = (Decimal.integerPart index).toNat := by
  unfold Elements.slot at h
  dsimp only at h
  split at h
  · cases h
    rfl
  · cases h

lemma slot_lt {elements : Elements} {index : Float} {place : Nat}
    (h : elements.slot index = .ok place) : place < elements.size := by
  unfold Elements.slot at h
  dsimp only at h
  split at h
  · next hin =>
    cases h
    simp only [Bool.and_eq_true, decide_eq_true_eq] at hin
    omega
  · cases h

lemma size_of_place {place : Nat} (h : place < (heap.elements id).size) :
    id < heap.arrays.size := by
  refine Nat.lt_of_not_le fun hid => ?_
  simp [Heap.elements, hid] at h

end Elements

section Locations

variable {heap : Heap} {loc other : Location} {v : Value}

lemma read?_write (h : loc.Within heap) : loc.read? (loc.write heap v) = some v := by
  cases loc with
  | binding id key => simp [Location.read?, Location.write, own?_bind_self heap id key _ h]
  | element id place =>
    have hplace : place < (heap.elements id).size := h
    simp [Location.read?, Location.write, hplace,
      elements_setElements_self _ (size_of_place hplace)]

lemma read?_write_of_ne (h : other ≠ loc) : other.read? (loc.write heap v) = other.read? heap := by
  cases loc with
  | binding id key =>
    cases other with
    | binding id' key' =>
      have hne : id = id' → key ≠ key' := by
        rintro rfl rfl
        exact h rfl
      simp [Location.read?, Location.write, own?_bind_of_ne heap id' id key' _ hne]
    | element id' place => rfl
  | element id place =>
    cases other with
    | binding id' key => rfl
    | element id' place' =>
      by_cases hid : id = id'
      · subst hid
        have hplace : place ≠ place' := by
          rintro rfl
          exact h rfl
        by_cases hin : id < heap.arrays.size
        · simp [Location.read?, Location.write, elements_setElements_self _ hin, hplace]
        · simp [Location.read?, Location.write, Heap.elements, Heap.setElements, hin]
      · simp [Location.read?, Location.write, elements_setElements_of_ne _ hid]

lemma sink_of_source {o k : Value} (h : Location.source? heap o k = some loc) :
    ∃ place, Location.sink? heap o k = some place := by
  cases o with
  | scope id =>
    cases k with
    | text name => exact ⟨_, rfl⟩
    | _ => cases h
  | array id =>
    cases k with
    | number index => exact ⟨loc, h⟩
    | _ => cases h
  | _ => cases h

/-- What is written at a key of an object is what was read there, except that a name may be read in
a scope around the object. -/
lemma sink_eq_source_iff {heap' : Heap} {o k : Value}
    (hsource : Location.source? heap o k = some loc)
    (hsink : Location.sink? heap' o k = some other) :
    other = loc ↔ ∀ id name, o = .scope id → k = .text name →
      (heap.own? id (Text.lower name)).isSome := by
  cases o with
  | scope id =>
    cases k with
    | text name =>
      obtain ⟨owner, howner, rfl⟩ := Option.map_eq_some_iff.mp hsource
      cases hsink
      constructor
      · rintro h id' name' ⟨⟩ ⟨⟩
        cases h
        obtain ⟨binding, hown⟩ := own?_of_owner? howner
        simp [hown]
      · intro h
        obtain ⟨binding, hown⟩ := Option.isSome_iff_exists.mp (h id name rfl rfl)
        rw [owner?_own hown] at howner
        cases howner
        rfl
    | _ => cases hsink
  | array id =>
    cases k with
    | number index =>
      -- The place of an index does not depend on the size of the array, only whether there is one.
      obtain ⟨place, hplace, rfl⟩ := Option.map_eq_some_iff.mp hsource
      obtain ⟨place', hplace', rfl⟩ := Option.map_eq_some_iff.mp hsink
      rw [slot_eq hplace, slot_eq hplace']
      constructor
      · rintro - id' name ⟨⟩
      · exact fun _ => rfl
    | _ => cases hsink
  | _ => cases hsink

end Locations

def isName : Expr → Bool
  | .name _ => true
  | _ => false

def landing? (target : Expr) (heap : Heap) (o k : Value) : Option Location :=
  if isName target then (Location.source? heap o k).or (Location.sink? heap o k)
  else Location.sink? heap o k

lemma sink_of_landing {target : Expr} {heap : Heap} {o k : Value} {place : Location}
    (h : landing? target heap o k = some place) :
    ∃ other, Location.sink? heap o k = some other := by
  unfold landing? at h
  split at h
  · rcases Option.or_eq_some_iff.mp h with hsource | ⟨-, hsink⟩
    · exact sink_of_source hsource
    · exact ⟨place, hsink⟩
  · exact ⟨place, h⟩

/-- A name is written where it was read. Of the other targets, those whose object has the name from
a scope around it are not. -/
lemma landing_eq_source_iff {target : Expr} {heap heap' : Heap} {o k : Value}
    {source place : Location} (hsource : Location.source? heap o k = some source)
    (hplace : landing? target heap' o k = some place)
    (hsame : isName target = true → heap' = heap) :
    place = source ↔ isName target = true ∨ ∀ id name, o = .scope id → k = .text name →
      (heap.own? id (Text.lower name)).isSome := by
  unfold landing? at hplace
  by_cases hname : isName target = true
  · rw [if_pos hname, hsame hname, hsource, Option.some_or] at hplace
    cases hplace
    exact ⟨fun _ => .inl hname, fun _ => rfl⟩
  · rw [if_neg hname] at hplace
    rw [sink_eq_source_iff hsource hplace]
    exact ⟨.inr, fun h => h.resolve_left hname⟩

/-- The object and the key of a target are evaluated, with some values in hand; a key is evaluated
with the object among them. -/
inductive Located (levels : Nat) (c : Config) (inner outer : List Value) :
    Expr → Machine → Value → Value → Machine → Prop
  | name (token : Token) (m : Machine) :
    Located levels c inner outer (.name token) m (.scope m.scope) (.text token.lexeme) m
  | member {object : Expr} {property : Token} {m m' : Machine} {o : Value}
      (hobject : Run.holding (inner ++ outer) (object.eval (below levels)) c m = (.ok o, m')) :
    Located levels c inner outer (.member object property) m o (.text property.lexeme) m'
  | index {object key : Expr} {bracket : Token} {m between m' : Machine} {o k : Value}
      (hobject : Run.holding (inner ++ outer) (object.eval (below levels)) c m = (.ok o, between))
      (hkey : Run.holding (inner ++ o :: outer) (key.eval (below levels)) c between = (.ok k, m')) :
    Located levels c inner outer (.index object bracket key) m o k m'

section Holding

variable {α β : Type} {c : Config} {m m' : Machine}

lemma holding_holding (inner outer : List Value) (x : Run α) :
    Run.holding outer (Run.holding inner x) = Run.holding (inner ++ outer) x := by
  funext c m
  simp [Run.holding, Run.holdingCells]

lemma holding_bind {values : List Value} {x : Run α} {f : α → Run β}
    (hx : ∀ m, (x c m).2.held = m.held) (m : Machine) :
    Run.holding values (x >>= f) c m =
      (Run.holding values x >>= fun a => Run.holding values (f a)) c m := by
  let inside : Machine := { m with held := values.filterMap Value.cell? ++ m.held }
  have hheld := hx inside
  have hholding {γ : Type} (y : Run γ) : Run.holding values y c m =
      ((y c inside).1, { (y c inside).2 with held := m.held }) := rfl
  rcases h : x c inside with ⟨why | a, after⟩
  · have hfirst := (hholding x).trans (by rw [h])
    rw [bind_error hfirst, hholding, bind_error h]
  · have hfirst := (hholding x).trans (by rw [h])
    rw [h] at hheld
    rw [bind_ok hfirst, hholding, bind_ok h]
    change _ = ((f a c { after with held := inside.held }).1,
      { (f a c { after with held := inside.held }).2 with held := m.held })
    rw [← hheld]

lemma of_holding_bind_eq_ok {values : List Value} {x : Run α} {f : α → Run β} {b : β}
    (hx : ∀ m, (x c m).2.held = m.held) (h : Run.holding values (x >>= f) c m = (.ok b, m')) :
    ∃ a middle, Run.holding values x c m = (.ok a, middle) ∧
      Run.holding values (f a) c middle = (.ok b, m') :=
  of_bind_eq_ok ((holding_bind hx m).symm.trans h)

lemma held_eval (levels : Nat) (e : Expr) (m : Machine) :
    (e.eval (below levels) c m).2.held = m.held :=
  (run_keeps levels c (evalComposition e : Composition Signal.maxRounds _) m).held

end Holding

section Reading

variable {c : Config} {m m' : Machine} {o k v : Value} {values : List Value}

lemma stays_lookup (id : ScopeId) (name : String) (token : Token) (m : Machine) :
    (Run.lookup id name token c m).2 = m := by
  rw [lookup_eq]

lemma stays_lift {α : Type} (token : Token) (result : Except Fault α) (m : Machine) :
    (Run.lift token result c m).2 = m := by
  cases result <;> rfl

lemma stays_readMember (o : Value) (property : Token) (m : Machine) :
    (Run.readMember o property c m).2 = m := by
  cases o with
  | scope id => exact stays_lookup id _ property m
  | cursor id =>
    rw [Run.readMember, Run.cursorMember]
    split
    · rfl
    · exact stays_lift property _ m
  | _ => rfl

lemma stays_readIndex (o k : Value) (bracket : Token) (m : Machine) :
    (Run.readIndex o k bracket c m).2 = m := by
  unfold Run.readIndex
  split
  · exact stays_lift bracket _ m
  · exact stays_lookup _ _ bracket m
  · rfl

lemma of_holding_stays {α : Type} {x : Run α} {a : α} (hx : ∀ m, (x c m).2 = m)
    (h : Run.holding values x c m = (.ok a, m')) :
    m' = m ∧ (x c { m with held := values.filterMap Value.cell? ++ m.held }).1 = .ok a := by
  let inside : Machine := { m with held := values.filterMap Value.cell? ++ m.held }
  have hstays : (x c inside).2 = inside := hx inside
  change ((x c inside).1, { (x c inside).2 with held := m.held }) = _ at h
  rw [hstays] at h
  exact ⟨(congrArg Prod.snd h).symm, congrArg Prod.fst h⟩

lemma source_of_lookup {id : ScopeId} {name : String} {token : Token}
    (h : (Run.lookup id name token c m).1 = .ok v) :
    ∃ source, Location.source? m.heap (.scope id) (.text name) = some source ∧
      source.read? m.heap = some v := by
  rw [lookup_eq, Heap.lookup, get_eq] at h
  cases howner : m.heap.owner? id (Text.lower name) with
  | none =>
    rw [howner] at h
    cases h
  | some owner =>
    obtain ⟨binding, hown⟩ := own?_of_owner? howner
    simp only [howner, Option.bind_some, hown] at h
    cases h
    exact ⟨.binding owner (Text.lower name), by simp [Location.source?, howner],
      by simp [Location.read?, hown]⟩

lemma source_of_readIndex {bracket : Token} (h : (Run.readIndex o k bracket c m).1 = .ok v)
    {heap : Heap} {place : Location} (hsink : Location.sink? heap o k = some place) :
    ∃ source, Location.source? m.heap o k = some source ∧ source.read? m.heap = some v := by
  cases o with
  | scope id =>
    cases k with
    | text name => exact source_of_lookup h
    | _ => cases hsink
  | array id =>
    cases k with
    | number index =>
      change (Run.lift bracket (Elements.get (m.heap.elements id) index) c m).1 = _ at h
      cases hslot : Elements.slot (m.heap.elements id) index with
      | error fault =>
        rw [Elements.get, hslot] at h
        cases h
      | ok place =>
        have hlt := slot_lt hslot
        rw [Elements.get, hslot] at h
        cases h
        exact ⟨.element id place, by simp [Location.source?, hslot, Except.toOption],
          by simp [Location.read?, hlt]⟩
    | _ => cases hsink
  | _ => cases hsink

lemma source_of_readMember {property : Token} (h : (Run.readMember o property c m).1 = .ok v)
    {heap : Heap} {place : Location}
    (hsink : Location.sink? heap o (.text property.lexeme) = some place) :
    ∃ source, Location.source? m.heap o (.text property.lexeme) = some source ∧
      source.read? m.heap = some v := by
  cases o with
  | scope id => exact source_of_lookup h
  | _ => cases hsink

end Reading

section Writing

variable {c : Config} {m final : Machine} {o k v : Value} {values : List Value}

lemma assignOwn_eq_ok {heap after : Heap} {id : ScopeId} {name : String}
    (h : heap.assignOwn id name v = (.ok (), after)) :
    after = (Location.binding id (Text.lower name)).write heap v := by
  unfold Heap.assignOwn at h
  dsimp only at h
  split at h
  · cases h
  · cases h
    rfl

lemma of_rebind_eq_ok {token : Token} {f : Heap → Except ScopeError Unit × Heap}
    (h : Run.rebind token f c m = (.ok (), final)) :
    ∃ after, f m.heap = (.ok (), after) ∧ final = { m with heap := after } := by
  rw [rebind_eq] at h
  rcases hf : f m.heap with ⟨why | ⟨⟩, after⟩
  · rw [hf] at h
    cases h
  · rw [hf] at h
    cases h
    exact ⟨after, rfl, rfl⟩

/-- An action that writes a value to one location, such as it finds it. -/
def WritesTo (c : Config) (x : Run Unit) (v : Value) (find : Heap → Option Location) : Prop :=
  ∀ m final, x c m = (.ok (), final) →
    ∃ place, find m.heap = some place ∧ final = { m with heap := place.write m.heap v }

lemma writesTo_index (o k : Value) (bracket : Token) (v : Value) :
    WritesTo c (Run.writeIndex o k bracket v) v (Location.sink? · o k) := by
  intro m final h
  cases o with
  | scope id =>
    cases k with
    | text name =>
      obtain ⟨after, hassign, rfl⟩ := of_rebind_eq_ok h
      exact ⟨_, rfl, by rw [assignOwn_eq_ok hassign]⟩
    | _ => cases h
  | array id =>
    cases k with
    | number index =>
      let changed := m.heap.updateElements id fun elements => Elements.set elements index v
      have hset : (Run.lift bracket changed.1 >>= fun _ => pure ()) c
        { m with heap := changed.2 } = (.ok (), final) := h
      dsimp only [changed] at hset
      rw [updateElements_eq, Elements.set] at hset
      cases hslot : Elements.slot (m.heap.elements id) index with
      | error fault =>
        rw [hslot] at hset
        cases hset
      | ok place =>
        rw [hslot] at hset
        cases hset
        exact ⟨.element id place, by simp [Location.sink?, hslot, Except.toOption], rfl⟩
    | _ => cases h
  | _ => cases h

lemma writesTo_name (id : ScopeId) (token : Token) (v : Value) :
    WritesTo c (Run.rebind token fun heap => heap.assign id token.lexeme v) v
      (landing? (.name token) · (.scope id) (.text token.lexeme)) := by
  intro m final h
  obtain ⟨after, hassign, rfl⟩ := of_rebind_eq_ok h
  rw [assign_eq] at hassign
  refine ⟨.binding ((m.heap.owner? id (Text.lower token.lexeme)).getD id) _, ?_,
    by rw [assignOwn_eq_ok hassign]⟩
  cases howner : m.heap.owner? id (Text.lower token.lexeme) <;>
    simp [landing?, isName, Location.source?, Location.sink?, howner]

lemma writesTo_member (o : Value) (property : Token) (v : Value) :
    WritesTo c (Run.writeMember o property v) v (Location.sink? · o (.text property.lexeme)) := by
  intro m final h
  cases o with
  | scope id =>
    obtain ⟨after, hassign, rfl⟩ := of_rebind_eq_ok h
    exact ⟨_, rfl, by rw [assignOwn_eq_ok hassign]⟩
  | _ => cases h

lemma writesTo_holding {x : Run Unit} {find : Heap → Option Location} (h : WritesTo c x v find) :
    WritesTo c (Run.holding values x) v find := by
  intro m final hfinal
  let inside : Machine := { m with held := values.filterMap Value.cell? ++ m.held }
  change ((x c inside).1, { (x c inside).2 with held := m.held }) = _ at hfinal
  rcases hx : x c inside with ⟨result, after⟩
  rw [hx] at hfinal
  cases hfinal
  obtain ⟨place, hplace, rfl⟩ := h inside after hx
  exact ⟨place, hplace, rfl⟩

end Writing

section Update

lemma of_lift_eq_ok {α : Type} {c : Config} {token : Token} {result : Except Fault α} {a : α}
    {m m' : Machine} (h : Run.lift token result c m = (.ok a, m')) : result = .ok a ∧ m' = m := by
  cases result with
  | error fault => cases h
  | ok b =>
    cases h
    exact ⟨rfl, rfl⟩

variable {levels : Nat} {c : Config} {m r final : Machine} {target : Expr} {v : Value}
  {values : List Value}

/-- A target whose value is known has been located, and the value is that of the location. -/
lemma located_of_eval (htarget : target.isTarget = true)
    (h : Run.holding values (target.eval (below levels)) c m = (.ok v, r)) :
    ∃ o k, Located levels c [] values target m o k r ∧
      ∀ heap place, Location.sink? heap o k = some place →
        ∃ source, Location.source? r.heap o k = some source ∧ source.read? r.heap = some v := by
  cases target with
  | name token =>
    rw [Expr.eval] at h
    obtain ⟨rfl, hread⟩ := of_holding_stays (fun m => stays_lookup m.scope _ token m) h
    have hlookup : (Run.lookup r.scope token.lexeme token c
        { r with held := values.filterMap Value.cell? ++ r.held }).1 = .ok v := hread
    have hsource := source_of_lookup hlookup
    exact ⟨_, _, .name token r, fun _ _ _ => hsource⟩
  | member object property =>
    rw [Expr.eval] at h
    obtain ⟨o, between, hobject, hread⟩ := of_holding_bind_eq_ok (held_eval levels object) h
    obtain ⟨rfl, hread⟩ := of_holding_stays (stays_readMember o property) hread
    exact ⟨o, _, .member hobject, fun _ _ => source_of_readMember hread⟩
  | index object bracket key =>
    rw [Expr.eval] at h
    obtain ⟨o, between, hobject, h⟩ := of_holding_bind_eq_ok (held_eval levels object) h
    obtain ⟨k, between', hkey, hread⟩ := of_holding_bind_eq_ok (fun _ => rfl) h
    rw [holding_holding] at hkey
    obtain ⟨rfl, hread⟩ := of_holding_stays (stays_readIndex o k bracket) hread
    exact ⟨o, k, .index hobject hkey, fun _ _ => source_of_readIndex hread⟩
  | _ => cases htarget

/-- A target that has been written has been located, and nothing else has been written. -/
lemma located_of_assign
    (h : Run.holding values (target.assign (below levels) v) c m = (.ok (), final)) :
    target.isTarget = true ∧ ∃ o k w place, Located levels c [v] values target m o k w ∧
      landing? target w.heap o k = some place ∧
      final = { w with heap := place.write w.heap v } := by
  cases target with
  | name token =>
    have hwrite : Run.holding values (Run.rebind token fun heap =>
      heap.assign m.scope token.lexeme v) c m = (.ok (), final) := h
    obtain ⟨place, hplace, hfinal⟩ :=
      writesTo_holding (writesTo_name m.scope token v) m final hwrite
    exact ⟨rfl, _, _, m, place, .name token m, hplace, hfinal⟩
  | member object property =>
    rw [Expr.assign] at h
    obtain ⟨o, w, hobject, hwrite⟩ := of_holding_bind_eq_ok (fun _ => rfl) h
    rw [holding_holding] at hobject
    obtain ⟨place, hplace, hfinal⟩ := writesTo_holding (writesTo_member o property v) w final hwrite
    exact ⟨rfl, o, _, w, place, .member hobject, hplace, hfinal⟩
  | index object bracket key =>
    rw [Expr.assign] at h
    obtain ⟨o, between, hobject, h⟩ := of_holding_bind_eq_ok (fun _ => rfl) h
    obtain ⟨k, w, hkey, hwrite⟩ := of_holding_bind_eq_ok (fun _ => rfl) h
    rw [holding_holding] at hobject hkey
    obtain ⟨place, hplace, hfinal⟩ := writesTo_holding (writesTo_index o k bracket v) w final hwrite
    exact ⟨rfl, o, k, w, place, .index hobject hkey, hplace, hfinal⟩
  | _ => cases h

/-- A compound assignment that ends evaluates its value, evaluates the object and the key of its
target and reads there, evaluates the object and the key again and writes there what the operator
makes of the two values; it does nothing else. The location that is written is the one that was read
if both evaluations find the same object and key, except for the name of a scope that has it from a
scope around it. -/
theorem update_reads_then_writes {operator : Token} {value : Expr} {signal : Signal}
    (h : (Stmt.update operator target value).exec (below levels) c m = (.ok signal, final)) :
    ∃ right left result m₁ o k r o' k' w place,
      signal = .normal ∧
      value.eval (below levels) c { m with steps := m.steps + 1 } = (.ok right, m₁) ∧
      Run.holding [right] (target.eval (below levels)) c m₁ = (.ok left, r) ∧
      Located levels c [] [right] target m₁ o k r ∧
      r.heap.binary operator.category left right = .ok result ∧
      Located levels c [result] [left, right] target r o' k' w ∧
      landing? target w.heap o' k' = some place ∧
      final = { w with heap := place.write w.heap result } ∧
      (place.Within w.heap → place.read? final.heap = some result) ∧
      (∀ other, other ≠ place → other.read? final.heap = other.read? w.heap) ∧
      (isName target = true → m₁ = r ∧ r = w ∧ o' = o ∧ k' = k) ∧
      (o' = o → k' = k → ∃ source, Location.source? r.heap o k = some source ∧
        source.read? r.heap = some left ∧
        (place = source ↔ isName target = true ∨ ∀ id name, o = .scope id → k = .text name →
          (r.heap.own? id (Text.lower name)).isSome)) := by
  rw [Stmt.exec] at h
  obtain ⟨_, m₀, hstep, h⟩ := of_bind_eq_ok h
  obtain ⟨right, m₁, hright, h⟩ := of_bind_eq_ok h
  obtain ⟨left, r, hleft, h⟩ := of_bind_eq_ok h
  obtain ⟨heap, r', hheap, h⟩ := of_bind_eq_ok h
  obtain ⟨result, r'', hresult, h⟩ := of_bind_eq_ok h
  obtain ⟨_, final', hwrite, hend⟩ := of_bind_eq_ok h
  cases hheap
  cases hend
  obtain rfl := of_step_eq_ok hstep
  obtain ⟨hresult, rfl⟩ := of_lift_eq_ok hresult
  obtain ⟨htarget, o', k', w, place, hlocated', hplace, rfl⟩ := located_of_assign hwrite
  obtain ⟨o, k, hlocated, hsource⟩ := located_of_eval htarget hleft
  -- A name has no parts to evaluate: reading and writing start from the same machine.
  have hstill : isName target = true → m₁ = r'' ∧ r'' = w ∧ o' = o ∧ k' = k := by
    intro hname
    cases target with
    | name token =>
      cases hlocated
      cases hlocated'
      exact ⟨rfl, rfl, rfl, rfl⟩
    | _ => cases hname
  refine ⟨right, left, result, m₁, o, k, r'', o', k', w, place, rfl, hright, hleft, hlocated,
    hresult, hlocated', hplace, rfl, read?_write, fun _ => read?_write_of_ne, hstill, ?_⟩
  rintro rfl rfl
  obtain ⟨other, hsink⟩ := sink_of_landing hplace
  obtain ⟨source, hsource, hread⟩ := hsource w.heap other hsink
  refine ⟨source, hsource, hread, landing_eq_source_iff hsource hplace fun hname => ?_⟩
  rw [(hstill hname).2.1]

end Update

/-- What a text does in a session of its own. -/
def runAlone (source : String) : UnitReport × Session :=
  (Session.new ⟨⟨none, 2⟩, bareHost⟩ .closed "").run source

/-- A module that binds `x`, and a function that prints a line and gives the module back. -/
def choosing : String :=
  "module m\nx = \"a\"\nendmodule\nfunction pick()\n? \"picked\"\nreturn m\nendfunc\n"

/-- A module without names beside a name `x`. -/
def inheriting : String :=
  "x = \"a\"\nmodule m\nendmodule\n"

def memberX (object : Expr) : Expr :=
  .member object (nameToken "x")

def appendToX (object : Expr) : Stmt :=
  .update ⟨.compoundAssign, .plus, "+=", none, .start⟩ (memberX object) (textLiteral "b")

lemma eq_ok_of_isOk {α : Type} {outcome : Except Halt α × Machine}
    (h : outcome.1.isOk = true) : ∃ a final, outcome = (.ok a, final) := by
  obtain ⟨_ | a, final⟩ := outcome
  · cases h
  · exact ⟨a, final, rfl⟩

/-- The function that gives the module is called for the reading and for the writing. -/
theorem update_calls_twice :
    let c : Config := ⟨⟨none, 2⟩, bareHost⟩
    let m := current (runAlone choosing).2
    let object := Expr.call (.name (nameToken "pick")) []
    ∃ right left result m₁ o k r o' k' w place,
      Located 2 c [] [right] (memberX object) m₁ o k r ∧
      Located 2 c [result] [left, right] (memberX object) r o' k' w ∧
      (appendToX object).exec (below 2) c m =
        (.ok .normal, { w with heap := Location.write w.heap result place }) := by
  intro c m object
  have hok : ((appendToX object).exec (below 2) c m).1.isOk = true := by decide +kernel
  obtain ⟨signal, final, hrun⟩ := eq_ok_of_isOk hok
  obtain ⟨right, left, result, m₁, o, k, r, o', k', w, place, rfl, -, -, hlocated, -, hlocated', -,
    rfl, -⟩ := update_reads_then_writes hrun
  exact ⟨right, left, result, m₁, o, k, r, o', k', w, place, hlocated, hlocated', hrun⟩

/-- A module is written where it was not read: the `x` that the module sees stays as it is, and the
module gets one of its own. A function in the target is called twice. -/
theorem update_moves_and_repeats :
    let c : Config := ⟨⟨none, 2⟩, bareHost⟩
    let m := current (runAlone inheriting).2
    let object := Expr.name (nameToken "m")
    ((object.eval (below 2) c m).1.toOption.bind Value.cell? = some (.scope 3) ∧
        Location.source? m.heap (.scope 3) (.text "x") = some (.binding 0 "x")) ∧
      (∃ signal final, (appendToX object).exec (below 2) c m = (.ok signal, final) ∧
        ((Location.binding 0 "x").read? final.heap).map final.heap.text = some "a" ∧
        ((Location.binding 3 "x").read? final.heap).map final.heap.text = some "ab") ∧
      (runAlone (choosing ++ "pick().x += \"b\"\n? m.x\n")).1.output = "picked\npicked\nab\n" := by
  intro c m object
  let outcome := (appendToX object).exec (below 2) c m
  obtain ⟨hfound, hok, hread, hwritten⟩ :
      ((object.eval (below 2) c m).1.toOption.bind Value.cell? = some (.scope 3) ∧
        Location.source? m.heap (.scope 3) (.text "x") = some (.binding 0 "x")) ∧
      outcome.1.isOk = true ∧
      ((Location.binding 0 "x").read? outcome.2.heap).map outcome.2.heap.text = some "a" ∧
      ((Location.binding 3 "x").read? outcome.2.heap).map outcome.2.heap.text = some "ab" := by
    decide +kernel
  obtain ⟨signal, final, hrun⟩ := eq_ok_of_isOk hok
  rw [hrun] at hread hwritten
  exact ⟨hfound, ⟨signal, final, hrun, hread, hwritten⟩, by decide +kernel⟩

end XBase.Proofs
