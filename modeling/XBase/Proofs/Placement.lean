import XBase.Proofs.Obedience

/-!
# Control flow in its place never fails

A `loop` or an `exit` is in its place if it lies in the body of a loop, with no function, class,
module or defer block in between. A session whose units have all of them in their place never fails
because of one. The functions that are on the heap were declared by these units, so that every
function that is ever called has them in their place too.
-/

namespace XBase

mutual

/-- Whether every `loop` and `exit` in a statement is in its place, where the statement itself may
lie in a loop. -/
def Stmt.placed (inLoop : Bool) : Stmt → Bool
  | .exit _ | .loop _ => inLoop
  | .branch _ _ consequence alternative =>
    Stmt.allPlaced inLoop consequence && Stmt.allPlaced inLoop alternative
  | .choose _ branches otherwise =>
    Stmt.casesPlaced inLoop branches && Stmt.otherwisePlaced inLoop otherwise
  | .whileLoop _ _ body | .doLoop _ body _ | .forLoop _ _ _ _ _ body => Stmt.allPlaced true body
  | .function ⟨_, _, _, body, defers⟩ => Stmt.allPlaced false body && Stmt.blocksPlaced defers
  | .classDef ⟨_, _, _, _, methods⟩ => Stmt.methodsPlaced methods
  | .module _ _ body | .defer _ body => Stmt.allPlaced false body
  | _ => true

def Stmt.allPlaced (inLoop : Bool) : List Stmt → Bool
  | [] => true
  | statement :: others => statement.placed inLoop && Stmt.allPlaced inLoop others

def Stmt.casesPlaced (inLoop : Bool) : List (CaseBranch Stmt) → Bool
  | [] => true
  | ⟨_, body⟩ :: others => Stmt.allPlaced inLoop body && Stmt.casesPlaced inLoop others

def Stmt.otherwisePlaced (inLoop : Bool) : Option (List Stmt) → Bool
  | none => true
  | some body => Stmt.allPlaced inLoop body

def Stmt.blocksPlaced : List (List Stmt) → Bool
  | [] => true
  | block :: others => Stmt.allPlaced false block && Stmt.blocksPlaced others

def Stmt.methodsPlaced : List (FunctionDecl Stmt) → Bool
  | [] => true
  | ⟨_, _, _, body, defers⟩ :: others =>
    Stmt.allPlaced false body && Stmt.blocksPlaced defers && Stmt.methodsPlaced others

end

namespace Proofs

section Static

mutual

/-- What is in its place outside of all loops is left by a `return` at most. -/
lemma jumps_of_placed (jump : Jump) : (statement : Stmt) → statement.placed false = true →
    statement.jumps jump = true → jump = .giveBack
  | .giveBack _ _ => by
    intro _ hjump
    simpa [Stmt.jumps] using hjump
  | .exit _ | .loop _ => by
    intro h
    cases h
  | .branch _ _ consequence alternative => by
    intro h hjump
    simp only [Stmt.placed, Bool.and_eq_true] at h
    simp only [Stmt.jumps, Bool.or_eq_true] at hjump
    rcases hjump with hjump | hjump
    · exact anyJumps_of_placed jump consequence h.1 hjump
    · exact anyJumps_of_placed jump alternative h.2 hjump
  | .choose _ branches otherwise => by
    intro h hjump
    simp only [Stmt.placed, Bool.and_eq_true] at h
    simp only [Stmt.jumps, Bool.or_eq_true] at hjump
    rcases hjump with hjump | hjump
    · exact casesJump_of_placed jump branches h.1 hjump
    · exact otherwiseJumps_of_placed jump otherwise h.2 hjump
  | .whileLoop _ _ _ | .doLoop _ _ _ | .forLoop _ _ _ _ _ _ => by
    intro _ hjump
    simp only [Stmt.jumps, Bool.and_eq_true, beq_iff_eq] at hjump
    exact hjump.1
  | .expression _ | .print _ _ | .declare _ _ _ | .destructure _ _ _ _ | .function _ | .classDef _
  | .const _ _ _ | .module _ _ _ | .release _ _ | .defer _ _ | .assign _ _ _ | .update _ _ _
  | .assignAll _ _ _ => by
    intro _ hjump
    cases hjump

lemma anyJumps_of_placed (jump : Jump) : (body : List Stmt) → Stmt.allPlaced false body = true →
    Stmt.anyJumps jump body = true → jump = .giveBack
  | [] => by
    intro _ hjump
    cases hjump
  | statement :: others => by
    intro h hjump
    simp only [Stmt.allPlaced, Bool.and_eq_true] at h
    simp only [Stmt.anyJumps, Bool.or_eq_true] at hjump
    rcases hjump with hjump | hjump
    · exact jumps_of_placed jump statement h.1 hjump
    · exact anyJumps_of_placed jump others h.2 hjump

lemma casesJump_of_placed (jump : Jump) : (branches : List (CaseBranch Stmt)) →
    Stmt.casesPlaced false branches = true → Stmt.casesJump jump branches = true →
      jump = .giveBack
  | [] => by
    intro _ hjump
    cases hjump
  | ⟨_, body⟩ :: others => by
    intro h hjump
    simp only [Stmt.casesPlaced, Bool.and_eq_true] at h
    simp only [Stmt.casesJump, Bool.or_eq_true] at hjump
    rcases hjump with hjump | hjump
    · exact anyJumps_of_placed jump body h.1 hjump
    · exact casesJump_of_placed jump others h.2 hjump

lemma otherwiseJumps_of_placed (jump : Jump) : (otherwise : Option (List Stmt)) →
    Stmt.otherwisePlaced false otherwise = true → Stmt.otherwiseJumps jump otherwise = true →
      jump = .giveBack
  | none => by
    intro _ hjump
    cases hjump
  | some body => anyJumps_of_placed jump body

end

lemma blocksPlaced_iff (blocks : List (List Stmt)) :
    Stmt.blocksPlaced blocks = true ↔ ∀ block ∈ blocks, Stmt.allPlaced false block = true := by
  induction blocks with
  | nil => simp [Stmt.blocksPlaced]
  | cons block others ih => simp [Stmt.blocksPlaced, ih]

end Static

/-- Every function on the heap has its control flow in its place. -/
def Orderly (heap : Heap) : Prop :=
  ∀ closure ∈ heap.functions, (Stmt.function closure.declaration).placed false = true

section Nodes

/-- A node that has the control flow of its bodies in its place. -/
def InPlace (node : Node) : Prop :=
  ∀ body ∈ node.bodies, Stmt.allPlaced false body = true

@[simp]
lemma inPlace_of_bodiless {nodes : List Node} (h : All Bodiless nodes) : All InPlace nodes := by
  intro node hnode body hbody
  rw [show node.bodies = [] from h node hnode] at hbody
  cases hbody

mutual

/-- Code in its place has its modules and functions in theirs. -/
lemma inPlace_statement {inLoop : Bool} : (statement : Stmt) → statement.placed inLoop = true →
    All InPlace statement.nodes
  | .branch _ _ consequence alternative, h => by
    simp only [Stmt.placed, Bool.and_eq_true] at h
    simp [Stmt.nodes, InPlace, Node.bodies, inPlace_all consequence h.1, inPlace_all alternative h.2]
  | .choose _ branches otherwise, h => by
    simp only [Stmt.placed, Bool.and_eq_true] at h
    simp [Stmt.nodes, InPlace, Node.bodies, inPlace_branches branches h.1,
      inPlace_otherwise otherwise h.2]
  | .whileLoop _ _ body, h | .doLoop _ body _, h | .forLoop _ _ _ _ _ body, h
  | .defer _ body, h => by
    simp [Stmt.nodes, InPlace, Node.bodies, inPlace_all body h]
  | .module _ _ body, h => by
    have hbody : Stmt.allPlaced false body = true := h
    simp [Stmt.nodes, InPlace, Node.bodies, hbody, inPlace_all body h]
  | .function declaration, h => by
    simp [Stmt.nodes, InPlace, Node.bodies, inPlace_function declaration h]
  | .classDef ⟨_, _, _, _, methods⟩, h => by
    simp [Stmt.nodes, InPlace, Node.bodies, inPlace_methods methods h]
  | .expression _, _ | .print _ _, _ | .giveBack _ _, _ | .declare _ _ _, _
  | .destructure _ _ _ _, _ | .exit _, _ | .loop _, _ | .const _ _ _, _ | .release _ _, _
  | .assign _ _ _, _ | .update _ _ _, _ | .assignAll _ _ _, _ => by
    simp [Stmt.nodes, InPlace, Node.bodies]

lemma inPlace_all {inLoop : Bool} : (body : List Stmt) → Stmt.allPlaced inLoop body = true →
    All InPlace (Stmt.allNodes body)
  | [], _ => all_nil
  | statement :: others, h => by
    simp only [Stmt.allPlaced, Bool.and_eq_true] at h
    exact all_append.mpr ⟨inPlace_statement statement h.1, inPlace_all others h.2⟩

lemma inPlace_branches {inLoop : Bool} : (branches : List (CaseBranch Stmt)) →
    Stmt.casesPlaced inLoop branches = true → All InPlace (Stmt.branchNodes branches)
  | [], _ => all_nil
  | ⟨conditions, body⟩ :: others, h => by
    simp only [Stmt.casesPlaced, Bool.and_eq_true] at h
    simp [Stmt.branchNodes, inPlace_all body h.1, inPlace_branches others h.2]

lemma inPlace_otherwise {inLoop : Bool} : (otherwise : Option (List Stmt)) →
    Stmt.otherwisePlaced inLoop otherwise = true → All InPlace (Stmt.otherwiseNodes otherwise)
  | none, _ => all_nil
  | some body, h => inPlace_all body h

lemma inPlace_blocks : (blocks : List (List Stmt)) → Stmt.blocksPlaced blocks = true →
    All InPlace (Stmt.blockNodes blocks)
  | [], _ => all_nil
  | block :: others, h => by
    simp only [Stmt.blocksPlaced, Bool.and_eq_true] at h
    exact all_append.mpr ⟨inPlace_all block h.1, inPlace_blocks others h.2⟩

lemma inPlace_function : (declaration : FunctionDecl Stmt) →
    (Stmt.function declaration).placed false = true → All InPlace (Stmt.functionNodes declaration)
  | ⟨_, _, _, body, defers⟩, h => by
    simp only [Stmt.placed, Bool.and_eq_true] at h
    have hbodies : ∀ block ∈ body :: defers, Stmt.allPlaced false block = true :=
      List.forall_mem_cons.mpr ⟨h.1, (blocksPlaced_iff defers).mp h.2⟩
    refine all_cons.mpr ⟨hbodies, ?_⟩
    simp [inPlace_all body h.1, inPlace_blocks defers h.2]

lemma inPlace_methods : (methods : List (FunctionDecl Stmt)) → Stmt.methodsPlaced methods = true →
    All InPlace (Stmt.methodNodes methods)
  | [], _ => all_nil
  | ⟨_, _, _, body, defers⟩ :: others, h => by
    simp only [Stmt.methodsPlaced, Bool.and_eq_true] at h
    refine all_append.mpr ⟨inPlace_function ⟨_, _, _, body, defers⟩ ?_, inPlace_methods others h.2⟩
    simp only [Stmt.placed, Bool.and_eq_true]
    exact h.1

end

end Nodes

/-- A node fails by itself for another reason than control flow. -/
lemma raises_not_misplaced {c : Config} {levels : Nat} {m : Machine} {deed : Deed}
    {error : RuntimeError} (h : Raises c levels m deed error) : isMisplaced error.fault = false := by
  have hplain {fault : Fault} (h : isPlain fault = true) : isMisplaced fault = false := by
    simp only [isPlain, Bool.and_eq_true, Bool.not_eq_true'] at h
    exact h.2
  cases h with
  | unary _ hfault => exact hplain (harmless_unary _ _ _ hfault)
  | binary _ _ hfault => exact hplain (harmless_binary _ _ _ _ _ hfault)
  | update _ _ hfault => exact hplain (harmless_binary _ _ _ _ _ hfault)
  | _ => rfl

/-- A text whose statements, if it can be read, have their control flow in its place. -/
def WellPlaced (library : Library) (source : String) : Prop :=
  ∀ program, (SourceUnit.parse library source).result = .ok program →
    Stmt.allPlaced false program = true

/-- A statement ends with the signal of a `loop`, an `exit` or a `return` only if it holds one that
leaves it. If every text that a session has run, and the one that it runs, has each `loop` and
`exit` in a loop, with no function, class, module or defer block in between, then the run does not
fail because of control flow outside of a loop. -/
theorem placed_control_never_fails :
    (∀ (invoke : Invocation) (statement : Stmt) (c : Config) (m : Machine) (signal : Signal),
      (statement.exec invoke c m).1 = .ok signal →
        (signal = .looped → statement.jumps .loop = true) ∧
        (signal = .exited → statement.jumps .exit = true) ∧
        (∀ value, signal = .returned value → statement.jumps .giveBack = true)) ∧
    ∀ (config : Config) (library : Library) (directory : String), Orderly config.host.heap →
      ∀ (sources : List String) (source : String),
        (∀ text ∈ sources, WellPlaced library text) → WellPlaced library source →
        ∀ error keyword,
          ((runAll (Session.new config library directory) sources).run source).1.error =
            some (.runtime error) → error.fault ≠ .controlOutsideLoop keyword := by
  constructor
  · intro invoke statement c m signal h
    have hstays := exec_yields invoke statement c m signal h
    refine ⟨?_, ?_, ?_⟩
    · rintro rfl
      exact hstays .loop rfl
    · rintro rfl
      exact hstays .exit rfl
    · rintro value rfl
      exact hstays .giveBack rfl
  · intro config library directory hhost sources source hsources hsource error keyword herror hcontrol
    have hwell : ∀ text ∈ sources ++ [source], WellPlaced library text :=
      List.forall_mem_append.mpr ⟨hsources, List.forall_mem_singleton.mpr hsource⟩
    rcases run_blamed herror (by rw [hcontrol]; rfl) with
      ⟨-, body, jump, hbody, hjump, hloop⟩ | ⟨_, _, _, _, _, hraises⟩
    · refine hloop (anyJumps_of_placed jump body ?_ hjump)
      rcases hbody with ⟨text, htext, hprogram⟩ | ⟨node, hnode | hnode, hbody⟩
      · exact hwell text htext body hprogram
      · obtain ⟨text, htext, program, hprogram, hnode⟩ := hnode
        exact inPlace_all program (hwell text htext program hprogram) node hnode body hbody
      · obtain ⟨id, closure, hclosure, hnode⟩ := hnode
        have hplaced := hhost closure (Array.mem_of_getElem? hclosure)
        exact inPlace_function closure.declaration hplaced node hnode body hbody
    · have hfault := raises_not_misplaced hraises
      rw [hcontrol] at hfault
      cases hfault

/-- A module with a function that leaves its loop by `exit`. -/
def loopTools : Library :=
  Library.ofModules [("tools", "function f()\ndo while true\nexit\nenddo\nendfunc")]

/-- The call of such a function, in a loop of another unit. -/
theorem exit_in_module_never_fails :
    let session := runAll (Session.new ⟨⟨none, 2⟩, bareHost⟩ loopTools "") ["import Tools"]
    let source := "for i = 1 to 2\ntools.f()\nloop\nendfor"
    (SourceUnit.parse loopTools "import Tools").errors = [] ∧
      (SourceUnit.parse loopTools source).errors = [] ∧ Orderly bareHost.heap ∧
      WellPlaced loopTools "import Tools" ∧ WellPlaced loopTools source ∧
      ∀ error keyword, (session.run source).1.error = some (.runtime error) →
        error.fault ≠ .controlOutsideLoop keyword := by
  intro session source
  have hwell : ∀ text, (SourceUnit.parse loopTools text).result.toOption.all
      (Stmt.allPlaced false) = true → WellPlaced loopTools text := by
    intro text h program hprogram
    rw [hprogram] at h
    exact h
  have hmodule : WellPlaced loopTools "import Tools" := hwell _ (by decide +kernel)
  have hsource : WellPlaced loopTools source := hwell _ (by decide +kernel)
  have hhost : Orderly bareHost.heap := by
    intro closure hclosure
    simp [bareHost, Heap.empty] at hclosure
  have hnever := placed_control_never_fails.2 ⟨⟨none, 2⟩, bareHost⟩ loopTools "" hhost
    ["import Tools"] source (by simpa using hmodule) hsource
  refine ⟨?_, ?_, hhost, hmodule, hsource, hnever⟩
  · rw [← List.isEmpty_iff]
    decide +kernel
  · rw [← List.isEmpty_iff]
    decide +kernel

end Proofs

end XBase
