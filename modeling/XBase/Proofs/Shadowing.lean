import XBase.Proofs.Ownership
import XBase.Proofs.Restoration
import XBase.Proofs.ScopeGraph

/-!
# What a constant declaration looks at

A declaration `const x = e` is refused for the sake of a constant that is seen from where it stands.
A variable in between hides the constants beyond it, so a chain of scopes may hold a constant of
the same name that does not stand in the way.
-/

namespace XBase

/-- Some scope of the chain, at any level, binds a lowercase name as a constant. -/
def Heap.ConstantOnChain (heap : Heap) (id : ScopeId) (key : String) : Prop :=
  ∃ scope ∈ heap.chain id, ∃ value, heap.own? scope key = some ⟨.constant, value⟩

/-- The nearest scope of the chain that binds a lowercase name binds it as a variable, which hides
what the scopes beyond bind the name to. -/
def Heap.Hides (heap : Heap) (id : ScopeId) (key : String) : Prop :=
  ∃ owner value, heap.nearest? id key = some owner ∧ heap.own? owner key = some ⟨.variable, value⟩

namespace Proofs

section Kinds

variable (heap : Heap) (id : ScopeId) {name key : String}

/-- The nearest binding is a constant if the chain has one that no variable hides. -/
lemma kindOf_constant_iff (hname : Text.lower name = key) :
    heap.kindOf id name = some .constant ↔ heap.ConstantOnChain id key ∧ ¬heap.Hides id key := by
  rw [kindOf_eq heap id hname, owner?_eq_nearest?]
  constructor
  · intro hkind
    cases hnearest : heap.nearest? id key with
    | none => simp [hnearest] at hkind
    | some owner =>
      rw [hnearest, Option.bind_some] at hkind
      obtain ⟨⟨kind, value⟩, hown, rfl⟩ := Option.map_eq_some_iff.mp hkind
      refine ⟨⟨owner, List.mem_of_find?_eq_some hnearest, value, hown⟩, ?_⟩
      rintro ⟨other, found, hother, hfound⟩
      rw [hnearest] at hother
      cases hother
      rw [hown] at hfound
      cases hfound
  · rintro ⟨⟨scope, hscope, value, hconstant⟩, hseen⟩
    -- a chain with a binding has a nearest one
    have hsome : (heap.nearest? id key).isSome :=
      List.find?_isSome.mpr ⟨scope, hscope, by simp [hconstant]⟩
    obtain ⟨owner, hnearest⟩ := Option.isSome_iff_exists.mp hsome
    obtain ⟨⟨kind, found⟩, hown⟩ := own?_of_owner? ((owner?_eq_nearest? heap id key).trans hnearest)
    have hkind : kind ≠ .variable := by
      rintro rfl
      exact hseen ⟨owner, found, hnearest, hown⟩
    rw [hnearest, Option.bind_some, hown]
    cases kind
    · contradiction
    · rfl

lemma define_free (value : Value) (kind : BindingKind)
    (h : (heap.own? id (Text.lower name)).map Binding.kind ≠ some .constant) :
    heap.define id name value kind = (.ok (), heap.bind id (Text.lower name) ⟨kind, value⟩) := by
  unfold Heap.define
  dsimp only
  split
  · next hconstant => exact absurd hconstant h
  · rfl

/-- A name whose nearest binding is no constant can be declared. -/
lemma define_of_kindOf (value : Value) (kind : BindingKind)
    (h : heap.kindOf id name ≠ some .constant) :
    heap.define id name value kind = (.ok (), heap.bind id (Text.lower name) ⟨kind, value⟩) := by
  refine define_free heap id value kind fun hconstant => ?_
  obtain ⟨binding, hbound, hkind⟩ := Option.map_eq_some_iff.mp hconstant
  rw [kindOf_eq heap id rfl, owner?_own hbound, Option.bind_some, hbound] at h
  exact h (congrArg some hkind)

end Kinds

section Statement

variable {invoke : Invocation} {c : Config} {m counted evaluated : Machine} {token name : Token}
  {value : Expr} {v : Value}

lemma exec_const (hstep : Run.step token c m = (.ok (), counted))
    (hvalue : value.eval invoke c counted = (.ok v, evaluated)) :
    (Stmt.const token name value).exec invoke c m =
      if evaluated.heap.kindOf evaluated.scope name.lexeme = some .constant then
        (.error (.failure (.ofToken name (.scope (.constantRedefinition name.lexeme)))), evaluated)
      else
        (.ok .normal, { evaluated with
          heap := evaluated.heap.bind evaluated.scope (Text.lower name.lexeme)
            ⟨.constant, v⟩ }) := by
  have hscope : Run.scope c evaluated = (.ok evaluated.scope, evaluated) := rfl
  have hheap : Run.heap c evaluated = (.ok evaluated.heap, evaluated) := rfl
  have htoken : (Stmt.const token name value).token = token := rfl
  rw [Stmt.exec, htoken, bind_ok hstep]
  rw [bind_ok hvalue, bind_ok hscope, bind_ok hheap]
  simp only [beq_iff_eq]
  split
  · rfl
  · next hkind =>
    have hdefine := define_of_kindOf evaluated.heap evaluated.scope v .constant hkind
    have hrun : Run.define evaluated.scope name v .constant c evaluated =
        (.ok (), { evaluated with
          heap := evaluated.heap.bind evaluated.scope (Text.lower name.lexeme)
            ⟨.constant, v⟩ }) := by
      have hallocate : Run.allocate
          (fun heap => heap.define evaluated.scope name.lexeme v .constant) c evaluated =
          (.ok (.ok ()), { evaluated with
            heap := evaluated.heap.bind evaluated.scope (Text.lower name.lexeme)
              ⟨.constant, v⟩ }) := by
        simp only [Run.allocate, hdefine]
      rw [Run.define, Run.rebind, bind_ok hallocate]
      rfl
    rw [bind_ok hrun]
    rfl

/-- The value of an expression is found in the scope where it is asked for, which stays. -/
lemma eval_in_scope {levels : Nat} (hscope : m.scope < m.heap.scopes.size)
    (hstep : Run.step token c m = (.ok (), counted))
    (hvalue : value.eval (Run.invoke levels) c counted = (.ok v, evaluated)) :
    evaluated.scope = m.scope ∧ m.scope < evaluated.heap.scopes.size := by
  have hcounted : counted = { m with steps := m.steps + 1 } := by
    rcases step_cases token c m with ⟨h, -⟩ | ⟨_, -, -, h⟩
    · exact congrArg Prod.snd (hstep.symm.trans h)
    · cases hstep.symm.trans h
  have hafter : ((Task.expression value).run levels c counted).2 = evaluated :=
    congrArg Prod.snd hvalue
  have hkept := task_preserves kept_preserved (.expression value) levels c counted
  have hleads := task_leads (respected_depth c) (.expression value) levels counted
    (fun _ h => by cases h)
  have hgrows := grows_path hleads.path
  rw [hleads.finish_eq, hafter, hcounted] at hgrows
  rw [hafter, hcounted] at hkept
  exact ⟨hkept.scope, Nat.lt_of_lt_of_le hscope hgrows.size⟩

end Statement

/-- Whether a constant can be declared depends on the nearest binding of its name only. Where the
value is known, the declaration fails, with everything as the value left it, if some scope of the
chain binds the name as a constant and no nearer variable hides it; else it binds the name as a
constant in the current scope and changes nothing else. -/
theorem const_refused_for_seen_constant (levels : Nat) (c : Config) (m counted evaluated : Machine)
    (token name : Token) (value : Expr) (v : Value) (hscope : m.scope < m.heap.scopes.size)
    (hstep : Run.step token c m = (.ok (), counted))
    (hvalue : value.eval (Run.invoke levels) c counted = (.ok v, evaluated)) :
    let key := Text.lower name.lexeme
    let heap := evaluated.heap
    let outcome := (Stmt.const token name value).exec (Run.invoke levels) c m
    let refusal : Except Halt Signal × Machine :=
      (.error (.failure (.ofToken name (.scope (.constantRedefinition name.lexeme)))), evaluated)
    (outcome = refusal ↔ heap.ConstantOnChain m.scope key ∧ ¬heap.Hides m.scope key) ∧
    (outcome ≠ refusal → ∃ after, heap.DiffersAt after m.scope key (some ⟨.constant, v⟩) ∧
      outcome = (.ok .normal, { evaluated with heap := after })) := by
  dsimp only
  obtain ⟨hsame, hsize⟩ := eval_in_scope hscope hstep hvalue
  rw [exec_const hstep hvalue, hsame, ← kindOf_constant_iff evaluated.heap m.scope rfl]
  split
  · next hkind => exact ⟨⟨fun _ => hkind, fun _ => rfl⟩, fun hne => absurd rfl hne⟩
  · next hkind =>
    refine ⟨⟨fun h => ?_, fun h => absurd h hkind⟩, fun _ => ⟨_, differs_bind hsize _, rfl⟩⟩
    cases congrArg Prod.fst h

/-- A machine whose innermost scope sees a variable, beyond which there is a constant of the same
name. -/
def behindVariable : Machine :=
  { Machine.start bareHost with heap := nested, scope := 2 }

def textLiteral (text : String) : Expr :=
  .literal ⟨.text, .literal, text, some (.text text), .start⟩

/-- The constant behind a variable does not keep another one from being declared. -/
theorem const_declared_behind_variable :
    let c : Config := ⟨⟨none, 2⟩, bareHost⟩
    let m := behindVariable
    let statement := Stmt.const (nameToken "const") (nameToken "total") (textLiteral "new")
    m.scope < m.heap.scopes.size ∧
      ∃ after, m.heap.DiffersAt after m.scope "total" (some ⟨.constant, .text "new"⟩) ∧
        statement.exec (Run.invoke 2) c m =
          (.ok .normal, { m with steps := 1, heap := after }) := by
  intro c m statement
  have hscope : m.scope < m.heap.scopes.size := by decide +kernel
  have hlower : Text.lower (nameToken "total").lexeme = "total" := by decide +kernel
  have hkind : m.heap.kindOf m.scope "total" ≠ some .constant := by decide +kernel
  obtain ⟨hrefused, hdeclared⟩ := const_refused_for_seen_constant 2 c m { m with steps := 1 }
    { m with steps := 1 } (nameToken "const") (nameToken "total") (textLiteral "new") (.text "new")
    hscope rfl rfl
  rw [← kindOf_constant_iff m.heap m.scope rfl] at hrefused
  rw [hlower] at hdeclared
  exact ⟨hscope, hdeclared fun h => hkind (hrefused.mp h)⟩

/-- The report of a function that declares a constant, though there is one of the same name
outside, behind a variable of its own. -/
def redeclaration : UnitReport :=
  ((Session.new ⟨⟨none, 2⟩, bareHost⟩ .closed "").run
    ("const X = \"outer\"\nfunction f()\nlocal x = \"inner\"\nconst x = \"new\"\n" ++
      "? x\nendfunc\nf()")).1

/-- A chain of scopes may bind a name as a constant where the name can be declared as a constant
all the same. -/
theorem constant_on_chain_redeclared :
    let c : Config := ⟨⟨none, 2⟩, bareHost⟩
    let m := behindVariable
    let statement := Stmt.const (nameToken "const") (nameToken "total") (textLiteral "new")
    m.heap.ConstantOnChain m.scope "total" ∧
      (∃ after, statement.exec (Run.invoke 2) c m = (.ok .normal, after)) ∧
      redeclaration.output = "new\n" ∧ redeclaration.error.isNone := by
  intro c m statement
  let counted : Machine := { m with steps := 1 }
  have houter : (m.heap.own? 0 "total").map Binding.kind = some .constant := by decide +kernel
  obtain ⟨⟨kind, value⟩, hbound, rfl⟩ := Option.map_eq_some_iff.mp houter
  have hvalue : (textLiteral "new").eval (Run.invoke 2) c counted = (.ok (.text "new"), counted) :=
    rfl
  have hkind : counted.heap.kindOf counted.scope (nameToken "total").lexeme ≠ some .constant := by
    decide +kernel
  have hdeclared : statement.exec (Run.invoke 2) c m = _ := exec_const rfl hvalue
  rw [if_neg hkind] at hdeclared
  exact ⟨⟨0, by decide +kernel, value, hbound⟩, ⟨_, hdeclared⟩, by decide +kernel⟩

end Proofs

end XBase
