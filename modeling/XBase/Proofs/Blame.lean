import XBase.Proofs.Obedience
import XBase.Proofs.Order

/-!
# Failures because of types

Every node of a program that has been read is in order, so an operator is one that evaluation knows,
and what is written to is something that can be written to. A run of such programs fails for
incompatible types only at a `+` or a `+=` whose left operand is neither a text nor a number, and
for an invalid target only at a member or an index.
-/

noncomputable section

namespace XBase.Proofs

section Operators

/-- Whether something can be added to a value. -/
def takesSum : Value → Bool
  | .text _ | .number _ => true
  | _ => false

lemma isBinary_of_isArithmetic {operator : Category} (h : operator.isArithmetic = true) :
    operator.isBinary = true := by
  cases operator <;> first | rfl | cases h

variable {heap : Heap} {operator : Category} {l r v : Value} {fault : Fault}

lemma add_fails (h : heap.add l r = .error fault) :
    takesSum l = false ∧ fault = .incompatibleTypes := by
  cases l with
  | text => cases h
  | number n =>
    simp only [Heap.add] at h
    split at h <;> cases h
  | _ =>
    cases h
    exact ⟨rfl, rfl⟩

lemma numbers_calm {f : Float × Float → Except Fault Value}
    (hf : ∀ pair, f pair = .error fault → isTypeFault fault = false)
    (h : (l.numbers r >>= f) = .error fault) : isTypeFault fault = false := by
  cases hnumbers : l.numbers r with
  | ok pair =>
    rw [hnumbers] at h
    exact hf pair h
  | error fault' =>
    rw [hnumbers] at h
    cases h
    unfold Value.numbers at hnumbers
    split at hnumbers
    · cases hnumbers
    · cases hnumbers
      rfl

/-- Of the operators of a binary expression only a sum fails because of types. -/
lemma binary_fails (hoperator : operator.isBinary = true)
    (h : heap.binary operator l r = .error fault) (hfault : isTypeFault fault = true) :
    operator = .plus ∧ takesSum l = false ∧ fault = .incompatibleTypes := by
  cases operator with
  | plus => exact ⟨rfl, add_fails h⟩
  | minus | times | greater | greaterEq | less | lessEq =>
    have hcalm := numbers_calm (fun _ h => by cases h) h
    cases hcalm.symm.trans hfault
  | «over» =>
    have hcalm : isTypeFault fault = false := by
      refine numbers_calm (fun (x, y) h => ?_) h
      dsimp only at h
      split at h
      · cases h
        rfl
      · cases h
    cases hcalm.symm.trans hfault
  | equal | notEqual => cases h
  | _ => cases hoperator

lemma unary_calm
    (hoperator : (operator == .bang || operator == .plus || operator == .minus) = true)
    (h : v.unary operator = .error fault) : isTypeFault fault = false := by
  cases operator with
  | bang => cases h
  | plus | minus => cases v <;> cases h <;> rfl
  | _ => cases hoperator

end Operators

lemma not_misplaced (h : isTypeFault fault = true) : isMisplaced fault = false := by
  cases fault <;> first | rfl | cases h

section Deeds

/-- A sum that fails because of its left operand, on its own or as part of an assignment. -/
inductive FailsToAdd (c : Config) (levels : Nat) (m : Machine) : Deed → RuntimeError → Prop
  | sum {left right : Expr} {operator : Token} {l r : Value} {m' m'' : Machine}
      (hplus : operator.category = .plus)
      (hleft : left.eval (below levels) c m = (.ok l, m'))
      (hright : Run.holding [l] (right.eval (below levels)) c m' = (.ok r, m''))
      (hsum : takesSum l = false) :
      FailsToAdd c levels m (.evaluate (.binary left operator right))
        (.ofToken operator .incompatibleTypes)
  | update {target value : Expr} {operator : Token} {l r : Value} {m' m'' : Machine}
      (hplus : operator.category = .plus)
      (hvalue : value.eval (below levels) c { m with steps := m.steps + 1 } = (.ok r, m'))
      (htarget : Run.holding [r] (target.eval (below levels)) c m' = (.ok l, m''))
      (hsum : takesSum l = false) :
      FailsToAdd c levels m (.execute (.update operator target value))
        (.ofToken operator .incompatibleTypes)

/-- A member or an index that cannot be written to because of its object. -/
inductive FailsToWrite (c : Config) (levels : Nat) (m : Machine) : Deed → RuntimeError → Prop
  | member {object : Expr} {property : Token} {v o : Value} {m' : Machine}
      (hobject : Run.holding [v] (object.eval (below levels)) c m = (.ok o, m'))
      (hscope : ∀ id, o ≠ .scope id) :
      FailsToWrite c levels m (.write (.member object property) v)
        (.ofToken property .invalidMemberTarget)
  | index {object key : Expr} {bracket : Token} {v o k : Value} {m' m'' : Machine}
      (hobject : Run.holding [v] (object.eval (below levels)) c m = (.ok o, m'))
      (hkey : Run.holding [v, o] (key.eval (below levels)) c m' = (.ok k, m''))
      (hwritable : isWritable o k = false) :
      FailsToWrite c levels m (.write (.index object bracket key) v)
        (.ofToken bracket .invalidMemberTarget)

variable {c : Config} {levels : Nat} {m : Machine} {deed : Deed} {error : RuntimeError}

/-- A node in order fails because of types as a sum or as something written to. -/
lemma raises_inOrder (h : Raises c levels m deed error) (hnode : deed.node.inOrder = true)
    (hfault : isTypeFault error.fault = true) :
    FailsToAdd c levels m deed error ∧ error.fault = .incompatibleTypes ∨
      FailsToWrite c levels m deed error ∧ error.fault = .invalidMemberTarget := by
  cases h with
  | unary hright h => cases (unary_calm hnode h).symm.trans hfault
  | binary hleft hright h =>
    obtain ⟨hplus, hsum, rfl⟩ := binary_fails hnode h hfault
    exact .inl ⟨.sum hplus hleft hright hsum, rfl⟩
  | update hvalue htarget h =>
    obtain ⟨hplus, hsum, rfl⟩ := binary_fails (isBinary_of_isArithmetic hnode) h hfault
    exact .inl ⟨.update hplus hvalue htarget hsum, rfl⟩
  | member hobject hscope => exact .inr ⟨.member hobject hscope, rfl⟩
  | index hobject hkey hwritable => exact .inr ⟨.index hobject hkey hwritable, rfl⟩
  | other htarget => cases htarget.symm.trans hnode

end Deeds

section Sessions

/-- Whether a unit has failed for a target, or else for an operand, if it has failed because of
types. -/
def typeFault? (report : UnitReport) : Option Bool :=
  match report.error with
  | some (.runtime ⟨_, _, .incompatibleTypes⟩) => some false
  | some (.runtime ⟨_, _, .invalidMemberTarget⟩) => some true
  | _ => none

lemma exists_of_typeFault? {report : UnitReport} {target : Bool}
    (h : typeFault? report = some target) :
    ∃ error, report.error = some (.runtime error) ∧
      error.fault = if target then .invalidMemberTarget else .incompatibleTypes := by
  unfold typeFault? at h
  split at h
  · next position lexeme herror =>
    cases h
    exact ⟨_, herror, rfl⟩
  · next position lexeme herror =>
    cases h
    exact ⟨_, herror, rfl⟩
  · cases h

/-- What a session does at one of its moments: it acts on a node of its texts or of its host. -/
def Does (session : Session) (sources : List String) (levels : Nat) (m : Machine) (deed : Deed) :
    Prop :=
  (InCode session.library sources deed.node ∨ InHost session.config.host deed.node) ∧
    Within (current session) (history session sources) m (deed.moments levels session.config m)

/-- Every node of every program that is read from a text is in order, those of imported modules
included. So if a unit of a session fails for incompatible types, the session has computed a sum,
by `+` or `+=`, whose left operand is neither a text nor a number, and the failure is that of this
sum. If it fails for an invalid target, the session has written to a member or an index, and the
failure is that of this target. -/
theorem parsed_programs_in_order (library : Library) :
    (∀ text program, (SourceUnit.parse library text).result = .ok program →
      ∀ node ∈ Stmt.allNodes program, node.inOrder = true) ∧
    ∀ (config : Config) (directory : String),
      (∀ node, InHost config.host node → node.inOrder = true) →
      ∀ (sources : List String) (source : String) (error : RuntimeError),
        let session := Session.new config library directory
        ((runAll session sources).run source).1.error = some (.runtime error) →
        (error.fault = .incompatibleTypes → ∃ levels m deed,
          Does session (sources ++ [source]) levels m deed ∧
            FailsToAdd config levels m deed error) ∧
        (error.fault = .invalidMemberTarget → ∃ levels m deed,
          Does session (sources ++ [source]) levels m deed ∧
            FailsToWrite config levels m deed error) := by
  have hprograms : ∀ text program, (SourceUnit.parse library text).result = .ok program →
      ∀ node ∈ Stmt.allNodes program, node.inOrder = true :=
    fun text program hprogram => program_inOrder hprogram
  refine ⟨hprograms, ?_⟩
  intro config directory hhost sources source error session herror
  have hcause (hfault : isTypeFault error.fault = true) : ∃ levels m deed,
      Does session (sources ++ [source]) levels m deed ∧
        (FailsToAdd config levels m deed error ∧ error.fault = .incompatibleTypes ∨
          FailsToWrite config levels m deed error ∧ error.fault = .invalidMemberTarget) := by
    obtain ⟨hmisplaced, -⟩ | ⟨m, deed, levels, hnode, hstretch, hraises⟩ :=
      run_blamed herror (by simp [isCaused, hfault])
    · exact absurd hmisplaced (by simp [not_misplaced hfault])
    refine ⟨levels, m, deed, ⟨hnode, hstretch⟩, raises_inOrder hraises ?_ hfault⟩
    rcases hnode with ⟨text, -, program, hprogram, hnode⟩ | hnode
    · exact hprograms text program hprogram _ hnode
    · exact hhost _ hnode
  constructor
  · intro hfault
    obtain ⟨levels, m, deed, hdoes, ⟨hadd, -⟩ | ⟨-, hother⟩⟩ := hcause (hfault ▸ rfl)
    · exact ⟨levels, m, deed, hdoes, hadd⟩
    · cases hfault.symm.trans hother
  · intro hfault
    obtain ⟨levels, m, deed, hdoes, ⟨-, hother⟩ | ⟨hwrite, -⟩⟩ := hcause (hfault ▸ rfl)
    · cases hfault.symm.trans hother
    · exact ⟨levels, m, deed, hdoes, hwrite⟩

/-- A unit that adds to a boolean, and one that writes to a member of it. -/
theorem boolean_operand_and_target_fail :
    let session := Session.new ⟨⟨none, 2⟩, bareHost⟩ (Library.ofModules []) ""
    let sum := "local n = .t.\nn += \"x\""
    let write := "n.x = \"y\""
    (∀ node, InHost bareHost node → node.inOrder = true) ∧
      (∃ error, (session.run sum).1.error = some (.runtime error) ∧
        error.fault = .incompatibleTypes ∧ ∃ levels m deed,
          Does session [sum] levels m deed ∧ FailsToAdd session.config levels m deed error) ∧
      ∃ error, ((session.run sum).2.run write).1.error = some (.runtime error) ∧
        error.fault = .invalidMemberTarget ∧ ∃ levels m deed,
          Does session [sum, write] levels m deed ∧
            FailsToWrite session.config levels m deed error := by
  intro session sum write
  have hhost : ∀ node, InHost bareHost node → node.inOrder = true := by
    rintro node ⟨id, closure, hclosure, -⟩
    simp [bareHost, Heap.empty] at hclosure
  have hsum : typeFault? (session.run sum).1 = some false := by decide +kernel
  have hwrite : typeFault? ((session.run sum).2.run write).1 = some true := by decide +kernel
  obtain ⟨error, herror, hfault⟩ := exists_of_typeFault? hsum
  obtain ⟨error', herror', hfault'⟩ := exists_of_typeFault? hwrite
  obtain ⟨-, hcauses⟩ := parsed_programs_in_order session.library
  have hfirst := hcauses session.config "" hhost [] sum error herror
  have hsecond := hcauses session.config "" hhost [sum] write error' herror'
  exact ⟨hhost, ⟨error, herror, hfault, hfirst.1 hfault⟩, error', herror', hfault',
    hsecond.2 hfault'⟩

end Sessions

end XBase.Proofs

end
