import Mathlib.Data.Bool.AllAny
import XBase.Proofs.Labels

/-!
# Cursors walk their rows

A cursor is opened on all rows of a table and moves forward, one row with each call of `next`, until
it is behind the last one. What it shows depends on the number of these calls and on whether it was
closed, but on nothing that is done to other cursors or to the connection.
-/

namespace XBase

inductive CursorUse where
  | connection (site : CallSite) (arguments : List ArgumentValue)
  | call (id : CursorId) (site : CallSite) (arguments : List ArgumentValue)
  | read (id : CursorId) (property : Token)

namespace CursorUse

def act (invoke : Invocation) : CursorUse → Run Value
  | connection site arguments => Run.apply invoke (.native .connection) site arguments
  | call id site arguments => Run.apply invoke (.cursor id) site arguments
  | read id property => Run.readMember (.cursor id) property

/-- Whether a use calls a method of a cursor, without arguments. -/
def calls (id : CursorId) (method : String) : CursorUse → Bool
  | call other site [] => other == id && site.method == method
  | _ => false

def move (use : CursorUse) (id : CursorId) (cursor : Cursor) : Cursor :=
  if use.calls id "next" then cursor.advance
  else if use.calls id "close" then { cursor with closed := true }
  else cursor

/-- The machine after uses, some of which may fail. -/
def after (invoke : Invocation) (c : Config) (m : Machine) (uses : List CursorUse) : Machine :=
  uses.foldl (fun m use => (use.act invoke c m).2) m

end CursorUse

/-- The cursor of an identity in a machine; one that is missing is empty and closed. -/
def Machine.cursorAt (m : Machine) (id : CursorId) : Cursor :=
  (m.heap.cursors[id]?).getD ⟨[], 0, true⟩

def Machine.withCursor (m : Machine) (id : CursorId) (cursor : Cursor) : Machine :=
  { m with heap := m.heap.setCursor id cursor }

namespace Proofs

section Names

lemma ascii_of_lowerFrom {before cs : List Char}
    (h : ∀ d ∈ Text.lowerFrom before cs, d.toNat < 128 ∧ d ≠ 'i' ∧ d ≠ 'k') :
    ∀ c ∈ cs, c.toNat < 128 := by
  induction cs generalizing before with
  | nil => simp
  | cons c after ih =>
    rw [lowerFrom_cons, List.forall_mem_append] at h
    refine List.forall_mem_cons.mpr ⟨?_, ih h.2⟩
    unfold lowerHere at h
    split at h
    · have hsigma := h.1 _ List.mem_cons_self
      split at hsigma <;> exact absurd hsigma.1 (by decide)
    · obtain ⟨d, hd⟩ := List.exists_mem_of_ne_nil _ (lowerChar_ne_nil c)
      obtain ⟨hascii, hi, hk⟩ := h.1 d hd
      exact (ascii_of_mem_lowerChar hd hascii hi hk).1

/-- A member is a method for reading exactly if it is one for calling. -/
lemma isMethod_iff (name : String) :
    Cursor.isMethod name = true ↔ Text.lower name ∈ ["next", "eof", "close"] := by
  have hsame : ∀ method ∈ ["next", "eof", "close"],
      (Text.sameUpToAsciiCase method name = true ↔ Text.lower name = method) := by
    intro method hmethod
    have hlower : Text.lower method = method ∧
        ∀ d ∈ method.toList, d.toNat < 128 ∧ d ≠ 'i' ∧ d ≠ 'k' := by
      simp only [List.mem_cons, List.not_mem_nil, or_false] at hmethod
      rcases hmethod with rfl | rfl | rfl <;>
        exact ⟨by decide +kernel, List.all_iff_forall_prop.mp (by decide +kernel)⟩
    constructor
    · intro h
      rw [← ((sameUpToAsciiCase_iff _ _).mp h).1, hlower.1]
    · intro h
      have hname : Text.IsAscii name := by
        refine @ascii_of_lowerFrom [] _ fun d hd => hlower.2 d ?_
        rw [← h, Text.lower, String.toList_ofList]
        exact hd
      rw [sameUpToAsciiCase_iff_of_ascii (fun d hd => (hlower.2 d hd).1) hname, hlower.1, h]
  rw [Cursor.isMethod, List.any_eq_true]
  constructor
  · rintro ⟨method, hmethod, h⟩
    rwa [(hsame method hmethod).mp h]
  · intro h
    exact ⟨_, h, (hsame _ h).mpr rfl⟩

end Names

section Acts

variable {invoke : Invocation} {c : Config} {m : Machine} {id other : CursorId} {cursor : Cursor}
  {site : CallSite} {arguments : List ArgumentValue}

lemma withCursor_self (m : Machine) (id : CursorId) : m.withCursor id (m.cursorAt id) = m := by
  have hcursors : m.heap.cursors.setIfInBounds id (m.cursorAt id) = m.heap.cursors := by
    unfold Array.setIfInBounds
    split
    · next h => simp [Machine.cursorAt, h]
    · rfl
  unfold Machine.withCursor Heap.setCursor
  rw [hcursors]

lemma call_next (m : Machine) (id : CursorId) (hsite : site.method = "next") :
    Run.callCursor id site [] c m = (.ok (.boolean !(m.cursorAt id).advance.atEnd),
      m.withCursor id (m.cursorAt id).advance) := by
  simp only [Run.callCursor, hsite]
  rfl

lemma call_eof (m : Machine) (id : CursorId) (hsite : site.method = "eof") :
    Run.callCursor id site [] c m = (.ok (.boolean (m.cursorAt id).atEnd), m) := by
  simp only [Run.callCursor, hsite]
  rfl

lemma call_close (m : Machine) (id : CursorId) (hsite : site.method = "close") :
    Run.callCursor id site [] c m = (.ok (.boolean true),
      m.withCursor id { m.cursorAt id with closed := true }) := by
  simp only [Run.callCursor, hsite]
  rfl

lemma call_moves (m : Machine) (id : CursorId) (site : CallSite) (arguments : List ArgumentValue) :
    (Run.callCursor id site arguments c m).2 =
      m.withCursor id ((CursorUse.call id site arguments).move id (m.cursorAt id)) := by
  cases arguments with
  | cons argument arguments => exact (withCursor_self m id).symm
  | nil =>
    by_cases hnext : site.method = "next"
    · rw [call_next m id hnext]
      simp [CursorUse.move, CursorUse.calls, hnext]
    by_cases hclose : site.method = "close"
    · rw [call_close m id hclose]
      simp [CursorUse.move, CursorUse.calls, hclose]
    · have hstill : (CursorUse.call id site []).move id (m.cursorAt id) = m.cursorAt id := by
        simp [CursorUse.move, CursorUse.calls, hnext, hclose]
      rw [hstill, withCursor_self]
      by_cases heof : site.method = "eof"
      · rw [call_eof m id heof]
      · simp only [Run.callCursor]
        rfl

lemma member_stays (id : CursorId) (property : Token) (c : Config) (m : Machine) :
    (Run.cursorMember id property c m).2 = m := by
  unfold Run.cursorMember
  split
  · rfl
  · change (Run.lift property (((m.cursorAt id).column property.lexeme).mapError Fault.host) c m).2 = m
    cases (m.cursorAt id).column property.lexeme <;> rfl

/-- A result that is no cursor, and a machine with the same cells. -/
structure Cursorless (heap : Heap) (outcome : Except Halt Value × Machine) : Prop where
  result : ∀ id, outcome.1 ≠ .ok (.cursor id)
  heap : outcome.2.heap = heap

lemma cursorless_error {heap : Heap} (halt : Halt) (h : m.heap = heap) :
    Cursorless heap (.error halt, m) :=
  ⟨(fun _ hid => by cases hid), h⟩

lemma cursorless_transact {α : Type} (method : Option DriverSession → ConnectionReply α) :
    Cursorless m.heap ((transact site method >>= fun _ => pure (.boolean true)) c m) := by
  have htransact := transact_eq site method c m
  cases hresult : (method m.session).result with
  | error message =>
    rw [hresult] at htransact
    rw [bind_error htransact]
    exact cursorless_error _ rfl
  | ok a =>
    rw [hresult] at htransact
    rw [bind_ok htransact]
    exact ⟨(fun _ h => by cases h), rfl⟩

lemma opens_cursor {session : DriverSession} {argument : ArgumentValue} {rows : List Row}
    (hmethod : site.method = "open") (hsession : m.session = some session)
    (hrows : session.driver.rows session.settings session.calls (m.heap.text argument.value) =
      .ok rows) :
    ∃ after, Run.callConnection site [argument] c m = (.ok (.cursor m.heap.cursors.size), after) ∧
      after.heap = (m.heap.newCursor rows).2 := by
  have htext : Run.text argument.value c m = (.ok (m.heap.text argument.value), m) := rfl
  have hresult : (Connection.rows (m.heap.text argument.value) m.session).result = .ok rows := by
    rw [hsession]
    exact hrows
  have htransact := transact_eq site (Connection.rows (m.heap.text argument.value)) c m
  rw [hresult] at htransact
  rw [callConnection_open hmethod, bind_ok htext, bind_ok htransact]
  exact ⟨_, rfl, rfl⟩

/-- A call of the connection object opens a cursor on the rows that the session reads of a table, or
it leaves all cursors alone. -/
lemma callConnection_cases (site : CallSite) (arguments : List ArgumentValue) (c : Config)
    (m : Machine) :
    (∃ session table rows after, m.session = some session ∧ arguments = [table] ∧
      session.driver.rows session.settings session.calls (m.heap.text table.value) = .ok rows ∧
      Run.callConnection site arguments c m = (.ok (.cursor m.heap.cursors.size), after) ∧
      after.heap = (m.heap.newCursor rows).2) ∨
    Cursorless m.heap (Run.callConnection site arguments c m) := by
  by_cases hconnect : site.method = "connect"
  · obtain ⟨choice, hchoice⟩ := holding_connectionChoice (arguments.map ArgumentValue.value) c m
    rw [callConnection_connect arguments hconnect, bind_ok hchoice]
    exact .inr (cursorless_transact _)
  by_cases hdisconnect : site.method = "disconnect"
  · rw [callConnection_disconnect arguments hdisconnect]
    exact .inr (cursorless_transact _)
  by_cases hopen : site.method = "open" → arguments.length ≠ 1
  · obtain ⟨fault, -, hfail⟩ := callConnection_refused arguments hopen hconnect hdisconnect
    rw [hfail]
    exact .inr (cursorless_error _ rfl)
  · obtain ⟨hmethod, hlength⟩ := Classical.not_imp.mp hopen
    obtain ⟨argument, rfl⟩ := List.length_eq_one_iff.mp (Classical.not_not.mp hlength)
    cases hresult : (Connection.rows (m.heap.text argument.value) m.session).result with
    | error message =>
      have htext : Run.text argument.value c m = (.ok (m.heap.text argument.value), m) := rfl
      have htransact := transact_eq site (Connection.rows (m.heap.text argument.value)) c m
      rw [hresult] at htransact
      rw [callConnection_open hmethod, bind_ok htext, bind_error htransact]
      exact .inr (cursorless_error _ rfl)
    | ok rows =>
      cases hsession : m.session with
      | none =>
        rw [hsession] at hresult
        cases hresult
      | some session =>
        rw [hsession] at hresult
        obtain ⟨after, hcall, hheap⟩ := opens_cursor hmethod hsession hresult
        exact .inl ⟨session, argument, rows, after, rfl, rfl, hresult, hcall, hheap⟩

lemma act_moves (invoke : Invocation) (c : Config) (use : CursorUse)
    (h : m.heap.cursors[id]? = some cursor) :
    (use.act invoke c m).2.heap.cursors[id]? = some (use.move id cursor) := by
  cases use with
  | connection site arguments =>
    change (Run.callConnection site arguments c m).2.heap.cursors[id]? = some cursor
    rcases callConnection_cases site arguments c m with
      ⟨_, _, rows, after, -, -, -, hcall, hheap⟩ | hcursorless
    · rw [hcall, hheap]
      have hlt := (Array.getElem?_eq_some_iff.mp h).1
      simpa [Heap.newCursor, Array.getElem?_push, Nat.ne_of_lt hlt] using h
    · rw [hcursorless.heap, h]
  | call other site arguments =>
    change (Run.callCursor other site arguments c m).2.heap.cursors[id]? = _
    rw [call_moves]
    by_cases hother : other = id
    · subst hother
      have hcell : m.cursorAt other = cursor := by rw [Machine.cursorAt, h, Option.getD_some]
      have hlt := (Array.getElem?_eq_some_iff.mp h).1
      simp [Machine.withCursor, Heap.setCursor, hlt, hcell]
    · have hstill : (CursorUse.call other site arguments).move id cursor = cursor := by
        cases arguments <;> simp [CursorUse.move, CursorUse.calls, hother]
      simpa [Machine.withCursor, Heap.setCursor, hother, hstill] using h
  | read other property =>
    change (Run.cursorMember other property c m).2.heap.cursors[id]? = some cursor
    rw [member_stays]
    exact h

lemma after_moves (invoke : Invocation) (c : Config) (uses : List CursorUse)
    (h : m.heap.cursors[id]? = some cursor) :
    (CursorUse.after invoke c m uses).heap.cursors[id]? =
      some (uses.foldl (fun cursor use => use.move id cursor) cursor) := by
  induction uses generalizing m cursor with
  | nil => exact h
  | cons use uses ih => exact ih (act_moves invoke c use h)

lemma atEnd_min (rows : List Row) (k : Nat) (closed : Bool) :
    Cursor.atEnd ⟨rows, min k rows.length, closed⟩ = decide (rows.length ≤ k) :=
  decide_eq_decide.mpr (by dsimp only; omega)

lemma advance_min (rows : List Row) (k : Nat) (closed : Bool) :
    Cursor.advance ⟨rows, min k rows.length, closed⟩ = ⟨rows, min (k + 1) rows.length, closed⟩ := by
  rw [Cursor.advance, atEnd_min]
  by_cases h : rows.length ≤ k
  · rw [if_pos (decide_eq_true h), Nat.min_eq_right h, Nat.min_eq_right (Nat.le_succ_of_le h)]
  · rw [if_neg (by simpa using h), Nat.min_eq_left (by omega), Nat.min_eq_left (by omega)]

lemma not_close_of_next {use : CursorUse} (h : use.calls id "next" = true) :
    use.calls id "close" = false := by
  unfold CursorUse.calls at h ⊢
  split at h
  · simp_all
  · cases h

/-- Each call of `next` counts one row, and a cursor stays closed. -/
lemma moves_count (rows : List Row) (uses : List CursorUse) (k : Nat) (closed : Bool) :
    uses.foldl (fun cursor use => use.move id cursor) ⟨rows, min k rows.length, closed⟩ =
      ⟨rows, min (k + uses.countP (·.calls id "next")) rows.length,
        closed || uses.any (·.calls id "close")⟩ := by
  induction uses generalizing k closed with
  | nil => simp
  | cons use uses ih =>
    rw [List.foldl_cons, List.any_cons]
    cases hnext : use.calls id "next" with
    | true =>
      rw [CursorUse.move, if_pos hnext, advance_min, ih, List.countP_cons_of_pos hnext,
        not_close_of_next hnext, Bool.false_or, Nat.add_right_comm, Nat.add_assoc]
    | false =>
      rw [CursorUse.move, if_neg (by simp [hnext]), List.countP_cons_of_neg (by simp [hnext])]
      cases use.calls id "close" with
      | true => rw [if_pos rfl, ih, Bool.true_or, Bool.or_true]
      | false => rw [if_neg Bool.false_ne_true, ih, Bool.false_or]

end Acts

/-- What a cursor on some rows shows after `k` calls of `next`. -/
structure Traverses (invoke : Invocation) (c : Config) (m : Machine) (id : CursorId)
    (rows : List Row) (k : Nat) (closed : Bool) : Prop where
  cell : m.heap.cursors[id]? = some ⟨rows, min k rows.length, closed⟩
  next {site : CallSite} (h : site.method = "next") :
    ((CursorUse.call id site []).act invoke c m).1 =
      .ok (.boolean (min (k + 1) rows.length < rows.length))
  eof {site : CallSite} (h : site.method = "eof") :
    (CursorUse.call id site []).act invoke c m = (.ok (.boolean (rows.length ≤ k)), m)
  close {site : CallSite} (h : site.method = "close") :
    ((CursorUse.call id site []).act invoke c m).1 = .ok (.boolean true)
  /-- The name of a method is no column, and gives the cursor to call the method of. -/
  method {property : Token} (h : Cursor.isMethod property.lexeme = true) :
    (CursorUse.read id property).act invoke c m = (.ok (.cursor id), m)
  /-- Another name gives the first column of the row that has it. -/
  column {property : Token} (h : Cursor.isMethod property.lexeme = false) (hopen : closed = false)
    {before behind : Row} {name : String} {value : Value}
    (hrow : rows[k]? = some (before ++ (name, value) :: behind))
    (hname : Text.sameUpToAsciiCase name property.lexeme = true)
    (hfirst : ∀ entry ∈ before, Text.sameUpToAsciiCase entry.1 property.lexeme = false) :
    (CursorUse.read id property).act invoke c m = (.ok value, m)
  /-- A name that no column has, a place behind the last row and a closed cursor are errors. -/
  missing {property : Token} (h : Cursor.isMethod property.lexeme = false) (hopen : closed = false)
    {row : Row} (hrow : rows[k]? = some row)
    (hnone : ∀ entry ∈ row, Text.sameUpToAsciiCase entry.1 property.lexeme = false) :
    (CursorUse.read id property).act invoke c m = (.error (.failure (.ofToken property
      (.host ("Column `" ++ property.lexeme ++ "` not found.")))), m)
  passed {property : Token} (h : Cursor.isMethod property.lexeme = false) (hopen : closed = false)
    (hpassed : rows.length ≤ k) : (CursorUse.read id property).act invoke c m =
      (.error (.failure (.ofToken property (.host "The cursor is at end of file."))), m)
  shut {property : Token} (h : Cursor.isMethod property.lexeme = false) (hclosed : closed = true) :
    (CursorUse.read id property).act invoke c m =
      (.error (.failure (.ofToken property (.host "The cursor is closed."))), m)

section Traversal

variable {invoke : Invocation} {c : Config} {m : Machine} {id : CursorId} {rows : List Row}
  {k : Nat} {closed : Bool} {property : Token}

lemma read_column (h : Cursor.isMethod property.lexeme = false) :
    (CursorUse.read id property).act invoke c m =
      Run.lift property (((m.cursorAt id).column property.lexeme).mapError Fault.host) c m := by
  change Run.cursorMember id property c m = _
  unfold Run.cursorMember
  rw [if_neg (by simp [h])]
  rfl

lemma traverses (hcell : m.heap.cursors[id]? = some ⟨rows, min k rows.length, closed⟩) :
    Traverses invoke c m id rows k closed := by
  have hcursor : m.cursorAt id = ⟨rows, min k rows.length, closed⟩ := by
    rw [Machine.cursorAt, hcell, Option.getD_some]
  have hposition {row : Row} (hrow : rows[k]? = some row) : rows[min k rows.length]? = some row := by
    rwa [Nat.min_eq_left (Nat.le_of_lt (List.getElem?_eq_some_iff.mp hrow).1)]
  refine { cell := hcell, next := ?_, eof := ?_, close := ?_, method := ?_, column := ?_,
           missing := ?_, passed := ?_, shut := ?_ }
  · intro site hsite
    change (Run.callCursor id site [] c m).1 = _
    have hmore : (!decide (rows.length ≤ k + 1)) =
        decide (min (k + 1) rows.length < rows.length) := by
      rw [← decide_not]
      exact decide_eq_decide.mpr (by omega)
    rw [call_next m id hsite, hcursor, advance_min, atEnd_min, hmore]
  · intro site hsite
    change Run.callCursor id site [] c m = _
    rw [call_eof m id hsite, hcursor, atEnd_min]
  · intro site hsite
    change (Run.callCursor id site [] c m).1 = _
    rw [call_close m id hsite]
  · intro property hmethod
    change Run.cursorMember id property c m = _
    rw [Run.cursorMember, if_pos hmethod]
    rfl
  · intro property hmethod hopen before behind name value hrow hname hfirst
    have hfind : (before ++ (name, value) :: behind).find?
        (fun entry => Text.sameUpToAsciiCase entry.1 property.lexeme) = some (name, value) := by
      rw [List.find?_append, List.find?_eq_none.mpr fun entry h => by simp [hfirst entry h],
        Option.none_or, List.find?_cons, hname]
    rw [read_column hmethod, hcursor, Cursor.column, if_neg (by simp [hopen])]
    simp only [hposition hrow, hfind]
    rfl
  · intro property hmethod hopen row hrow hnone
    have hfind : row.find? (fun entry => Text.sameUpToAsciiCase entry.1 property.lexeme) = none :=
      List.find?_eq_none.mpr fun entry h => by simp [hnone entry h]
    rw [read_column hmethod, hcursor, Cursor.column, if_neg (by simp [hopen])]
    simp only [hposition hrow, hfind]
    rfl
  · intro property hmethod hopen hpassed
    have hend : rows[min k rows.length]? = none := List.getElem?_eq_none (by omega)
    rw [read_column hmethod, hcursor, Cursor.column, if_neg (by simp [hopen])]
    simp only [hend]
    rfl
  · intro property hmethod hclosed
    rw [read_column hmethod, hcursor, Cursor.column, if_pos hclosed]
    rfl

lemma rows_ofTables {tables : List Table} {settings : Settings} {calls : List SessionCall}
    {name : String} (h : (Driver.ofTables tables).rows settings calls name = .ok rows) :
    ∃ table, Table.find? tables name = some table ∧ rows = table.rows.map table.columns.zip := by
  simp only [Driver.ofTables] at h
  split at h
  · cases h
  · cases hfind : Table.find? tables name with
    | none =>
      rw [hfind] at h
      cases h
    | some table =>
      rw [hfind] at h
      exact ⟨table, rfl, (Except.ok.inj h).symm⟩

/-- A cursor that is opened stands on the first of all rows that the session has of the table that is
asked for. Whatever is then done to it, to other cursors and to the connection, it has moved as many
rows as `next` was called on it, but not beyond the last one, and its rows are the same. -/
theorem cursors_walk_their_rows {after : Machine} {site : CallSite}
    {arguments : List ArgumentValue} (hopen : (CursorUse.connection site arguments).act invoke c m =
      (.ok (.cursor id), after)) :
    id = m.heap.cursors.size ∧
      (∃ rows, (∃ session name, m.session = some session ∧ arguments = [name] ∧
          session.driver.rows session.settings session.calls (m.heap.text name.value) = .ok rows ∧
          ∀ tables, session.driver = .ofTables tables → ∃ table,
            Table.find? tables (m.heap.text name.value) = some table ∧
              rows = table.rows.map table.columns.zip) ∧
        ∀ uses, Traverses invoke c (CursorUse.after invoke c after uses) id rows
          (uses.countP (·.calls id "next")) (uses.any (·.calls id "close"))) ∧
      ∀ name, Cursor.isMethod name = true ↔ Text.lower name ∈ ["next", "eof", "close"] := by
  replace hopen : Run.callConnection site arguments c m = (.ok (.cursor id), after) := hopen
  rcases callConnection_cases site arguments c m with
    ⟨session, name, rows, m', hsession, hname, hrows, hcall, hheap⟩ | hcursorless
  · cases hopen.symm.trans hcall
    have htables (tables : List Table) (h : session.driver = .ofTables tables) : ∃ table,
        Table.find? tables (m.heap.text name.value) = some table ∧
          rows = table.rows.map table.columns.zip :=
      rows_ofTables (h ▸ hrows)
    refine ⟨rfl, ⟨rows, ⟨session, name, hsession, hname, hrows, htables⟩, fun uses => traverses ?_⟩,
      isMethod_iff⟩
    have hcell : after.heap.cursors[m.heap.cursors.size]? =
        some ⟨rows, min 0 rows.length, false⟩ := by
      rw [hheap]
      simp [Heap.newCursor]
    rw [after_moves invoke c uses hcell, moves_count, Nat.zero_add, Bool.false_or]
  · exact absurd (congrArg Prod.fst hopen) (hcursorless.result id)

def people : Table :=
  ⟨"People", ["id", "name"], [[.number 1, .text "ada"], [.number 2]]⟩

def peopleSession : DriverSession :=
  ⟨.ofTables [people], ⟨"", "", "", "", "", ""⟩, []⟩

def opening : CallSite × ArgumentValue :=
  (⟨nameToken "Open", some "Open"⟩, ⟨nameToken "people", none, .text "people"⟩)

theorem people_walked :
    let c : Config := ⟨⟨none, 2⟩, bareHost⟩
    let m := { Machine.start bareHost with session := some peopleSession }
    ∃ after, (CursorUse.connection opening.1 [opening.2]).act (below 1) c m =
        (.ok (.cursor 0), after) ∧
      ∀ uses, Traverses (below 1) c (CursorUse.after (below 1) c after uses) 0
        [[("id", .number 1), ("name", .text "ada")], [("id", .number 2)]]
        (uses.countP (·.calls 0 "next")) (uses.any (·.calls 0 "close")) := by
  intro c m
  have hfind : Table.find? [people] "people" = some people :=
    List.find?_cons_of_pos (by decide +kernel)
  have hrows : peopleSession.driver.rows peopleSession.settings peopleSession.calls
      (m.heap.text opening.2.value) = .ok people.namedRows := by
    simp [peopleSession, opening, Driver.ofTables, Heap.text, Heap.render, hfind]
  have hmethod : opening.1.method = "open" := by decide +kernel
  obtain ⟨after, hopen, -⟩ := opens_cursor (c := c) hmethod rfl hrows
  replace hopen : (CursorUse.connection opening.1 [opening.2]).act (below 1) c m =
    (.ok (.cursor 0), after) := hopen
  obtain ⟨-, ⟨rows, ⟨_, _, hsession, hname, -, htables⟩, htraverses⟩, -⟩ :=
    cursors_walk_their_rows hopen
  cases hsession
  cases hname
  obtain ⟨table, htable, rfl⟩ := htables _ rfl
  cases hfind.symm.trans htable
  exact ⟨after, hopen, htraverses⟩

end Traversal

end Proofs

end XBase
