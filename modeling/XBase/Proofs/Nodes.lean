import Mathlib.Tactic.Lemma
import XBase.Program.Stmt

/-!
# Nodes of a program

A program is made of expressions that are evaluated, expressions that are written to, statements
and declared functions. The tree of a program is in order if every node of it is; whether a node is
in order is seen from the node alone.
-/

namespace XBase

inductive Node where
  | value (expression : Expr)
  | target (expression : Expr)
  | statement (statement : Stmt)
  | function (declaration : FunctionDecl Stmt)

section Expressions

mutual

def Expr.nodes : Expr → List Node
  | .literal token => [.value (.literal token)]
  | .name token => [.value (.name token)]
  | .unary operator right => .value (.unary operator right) :: right.nodes
  | .binary left operator right =>
    .value (.binary left operator right) :: (left.nodes ++ right.nodes)
  | .logical left operator right =>
    .value (.logical left operator right) :: (left.nodes ++ right.nodes)
  | .member object property => .value (.member object property) :: object.nodes
  | .index object bracket key => .value (.index object bracket key) :: (object.nodes ++ key.nodes)
  | .call callee arguments =>
    .value (.call callee arguments) :: (callee.nodes ++ Expr.argumentNodes arguments)
  | .create keyword prototype arguments =>
    .value (.create keyword prototype arguments) :: Expr.allNodes arguments
  | .conditional keyword condition consequence alternative =>
    .value (.conditional keyword condition consequence alternative) ::
      (condition.nodes ++ (consequence.nodes ++ Expr.optionNodes alternative))
  | .this token => [.value (.this token)]
  | .substitution token => [.value (.substitution token)]

def Expr.argumentNodes : List (Argument Expr) → List Node
  | [] => []
  | ⟨_, value⟩ :: arguments => value.nodes ++ Expr.argumentNodes arguments

def Expr.allNodes : List Expr → List Node
  | [] => []
  | value :: others => value.nodes ++ Expr.allNodes others

def Expr.optionNodes : Option Expr → List Node
  | none => []
  | some value => value.nodes

end

/-- The nodes of an expression that is written to. What it is made of is evaluated. -/
def Expr.targetNodes (target : Expr) : List Node :=
  .target target :: target.nodes

def Expr.allTargetNodes : List Expr → List Node
  | [] => []
  | target :: others => target.targetNodes ++ Expr.allTargetNodes others

def Declarator.allNodes : List Declarator → List Node
  | [] => []
  | ⟨_, _, initializer⟩ :: others => Expr.optionNodes initializer ++ Declarator.allNodes others

def Parameter.allNodes : List Parameter → List Node
  | [] => []
  | ⟨_, _, default⟩ :: others => Expr.optionNodes default ++ Parameter.allNodes others

def Property.allNodes : List Property → List Node
  | [] => []
  | ⟨_, value⟩ :: others => value.nodes ++ Property.allNodes others

end Expressions

section Statements

mutual

def Stmt.nodes : Stmt → List Node
  | .expression value => .statement (.expression value) :: value.nodes
  | .print token values => .statement (.print token values) :: Expr.allNodes values
  | .giveBack token values => .statement (.giveBack token values) :: Expr.allNodes values
  | .declare token extent declarators =>
    .statement (.declare token extent declarators) :: Declarator.allNodes declarators
  | .destructure token extent names values =>
    .statement (.destructure token extent names values) :: Expr.allNodes values
  | .branch token condition consequence alternative =>
    .statement (.branch token condition consequence alternative) ::
      (condition.nodes ++ (Stmt.allNodes consequence ++ Stmt.allNodes alternative))
  | .choose token branches otherwise =>
    .statement (.choose token branches otherwise) ::
      (Stmt.branchNodes branches ++ Stmt.otherwiseNodes otherwise)
  | .whileLoop token condition body =>
    .statement (.whileLoop token condition body) :: (condition.nodes ++ Stmt.allNodes body)
  | .doLoop token body condition =>
    .statement (.doLoop token body condition) :: (condition.nodes ++ Stmt.allNodes body)
  | .forLoop token counter start finish step body =>
    .statement (.forLoop token counter start finish step body) ::
      (start.nodes ++ (finish.nodes ++ (Expr.optionNodes step ++ Stmt.allNodes body)))
  | .exit token => [.statement (.exit token)]
  | .loop token => [.statement (.loop token)]
  | .function declaration =>
    .statement (.function declaration) :: Stmt.functionNodes declaration
  | .classDef ⟨token, name, superclass, properties, methods⟩ =>
    .statement (.classDef ⟨token, name, superclass, properties, methods⟩) ::
      (Property.allNodes properties ++ Stmt.methodNodes methods)
  | .const token name value => .statement (.const token name value) :: value.nodes
  | .module token name body => .statement (.module token name body) :: Stmt.allNodes body
  | .release token targets => [.statement (.release token targets)]
  | .defer token body => .statement (.defer token body) :: Stmt.allNodes body
  | .assign operator target value =>
    .statement (.assign operator target value) :: (target.targetNodes ++ value.nodes)
  | .update operator target value =>
    .statement (.update operator target value) :: (target.targetNodes ++ value.nodes)
  | .assignAll token targets values =>
    .statement (.assignAll token targets values) ::
      (Expr.allTargetNodes targets ++ Expr.allNodes values)

def Stmt.allNodes : List Stmt → List Node
  | [] => []
  | statement :: others => statement.nodes ++ Stmt.allNodes others

def Stmt.branchNodes : List (CaseBranch Stmt) → List Node
  | [] => []
  | ⟨conditions, body⟩ :: others =>
    Expr.allNodes conditions ++ (Stmt.allNodes body ++ Stmt.branchNodes others)

def Stmt.otherwiseNodes : Option (List Stmt) → List Node
  | none => []
  | some body => Stmt.allNodes body

def Stmt.blockNodes : List (List Stmt) → List Node
  | [] => []
  | block :: others => Stmt.allNodes block ++ Stmt.blockNodes others

def Stmt.functionNodes : FunctionDecl Stmt → List Node
  | ⟨token, name, parameters, body, defers⟩ =>
    .function ⟨token, name, parameters, body, defers⟩ ::
      (Parameter.allNodes parameters ++ (Stmt.allNodes body ++ Stmt.blockNodes defers))

def Stmt.methodNodes : List (FunctionDecl Stmt) → List Node
  | [] => []
  | method :: others => Stmt.functionNodes method ++ Stmt.methodNodes others

end

end Statements

section Order

/-- Whether a token stands for one of the operators that a binary expression may have: those of
arithmetic, of comparison and of equality. -/
def Category.isBinary : Category → Bool
  | .plus | .minus | .times | .over | .greater | .greaterEq | .less | .lessEq | .equal
  | .notEqual => true
  | _ => false

/-- Whether it stands for an operator that may update a target. -/
def Category.isArithmetic : Category → Bool
  | .plus | .minus | .times | .over => true
  | _ => false

def Literal.isText : Literal → Bool
  | .text _ => true
  | _ => false

/-- Whether a statement introduces variables, a constant, a function or a class. -/
def Stmt.introduces : Stmt → Bool
  | .declare _ _ _ | .destructure _ _ _ _ | .const _ _ _ | .function _ | .classDef _ => true
  | _ => false

def Stmt.isDefer : Stmt → Bool
  | .defer _ _ => true
  | _ => false

/-- Whether an expression has the operator, the literal or the name that it has to have. -/
def Expr.inOrder : Expr → Bool
  | .literal token => token.literal.isSome
  | .unary operator _ =>
    operator.category == .bang || operator.category == .plus || operator.category == .minus
  | .binary _ operator _ => operator.category.isBinary
  | .logical _ operator _ => operator.category == .and || operator.category == .or
  | .member _ property => property.kind == .name
  | .create _ prototype _ => prototype.literal.any Literal.isText
  | _ => true

def Node.inOrder : Node → Bool
  | .value expression => expression.inOrder
  | .target expression => expression.isTarget
  | .statement (.update operator _ _) => operator.category.isArithmetic
  | .statement (.doLoop _ body _) => body.all fun statement => !statement.introduces
  | .statement _ => true
  | .function declaration => declaration.body.all fun statement => !statement.isDefer

end Order

section Bodies

/-- The bodies of a module or a function, which no `loop` or `exit` may leave. -/
def Node.bodies : Node → List (List Stmt)
  | .statement (.module _ _ body) => [body]
  | .function declaration => declaration.body :: declaration.defers
  | _ => []

namespace Proofs

def All (P : Node → Prop) (nodes : List Node) : Prop :=
  ∀ node ∈ nodes, P node

section All

variable {P : Node → Prop} {node : Node} {nodes others : List Node}

@[simp] lemma all_nil : All P [] :=
  List.forall_mem_nil _

@[simp] lemma all_cons : All P (node :: nodes) ↔ P node ∧ All P nodes :=
  List.forall_mem_cons

@[simp] lemma all_append : All P (nodes ++ others) ↔ All P nodes ∧ All P others :=
  List.forall_mem_append

end All

/-- A node that is neither a module nor a function. -/
def Bodiless (node : Node) : Prop :=
  node.bodies = []

mutual

@[simp] lemma bodiless_nodes : (e : Expr) → All Bodiless e.nodes
  | .literal _ | .name _ | .this _ | .substitution _ => by simp [Expr.nodes, Bodiless, Node.bodies]
  | .unary _ right => by simp [Expr.nodes, Bodiless, Node.bodies, bodiless_nodes right]
  | .member object _ => by simp [Expr.nodes, Bodiless, Node.bodies, bodiless_nodes object]
  | .binary left _ right | .logical left _ right | .index left _ right => by
    simp [Expr.nodes, Bodiless, Node.bodies, bodiless_nodes left, bodiless_nodes right]
  | .call callee arguments => by
    simp [Expr.nodes, Bodiless, Node.bodies, bodiless_nodes callee, bodiless_argumentNodes arguments]
  | .create _ _ arguments => by simp [Expr.nodes, Bodiless, Node.bodies, bodiless_allNodes arguments]
  | .conditional _ condition consequence alternative => by
    simp [Expr.nodes, Bodiless, Node.bodies, bodiless_nodes condition, bodiless_nodes consequence,
      bodiless_optionNodes alternative]

lemma bodiless_argumentNodes : (arguments : List (Argument Expr)) →
    All Bodiless (Expr.argumentNodes arguments)
  | [] => all_nil
  | ⟨_, value⟩ :: others => all_append.mpr ⟨bodiless_nodes value, bodiless_argumentNodes others⟩

@[simp] lemma bodiless_allNodes : (values : List Expr) → All Bodiless (Expr.allNodes values)
  | [] => all_nil
  | value :: others => all_append.mpr ⟨bodiless_nodes value, bodiless_allNodes others⟩

@[simp] lemma bodiless_optionNodes : (value : Option Expr) → All Bodiless (Expr.optionNodes value)
  | none => all_nil
  | some value => bodiless_nodes value

end

@[simp] lemma bodiless_targetNodes (target : Expr) : All Bodiless target.targetNodes := by
  simp [Expr.targetNodes, Bodiless, Node.bodies]

@[simp] lemma bodiless_allTargetNodes (targets : List Expr) :
    All Bodiless (Expr.allTargetNodes targets) := by
  induction targets with
  | nil => exact all_nil
  | cons target others ih => exact all_append.mpr ⟨bodiless_targetNodes target, ih⟩

@[simp] lemma bodiless_declarators (declarators : List Declarator) :
    All Bodiless (Declarator.allNodes declarators) := by
  induction declarators with
  | nil => exact all_nil
  | cons declarator others ih => exact all_append.mpr ⟨bodiless_optionNodes _, ih⟩

@[simp] lemma bodiless_parameters (parameters : List Parameter) :
    All Bodiless (Parameter.allNodes parameters) := by
  induction parameters with
  | nil => exact all_nil
  | cons parameter others ih => exact all_append.mpr ⟨bodiless_optionNodes _, ih⟩

@[simp] lemma bodiless_properties (properties : List Property) :
    All Bodiless (Property.allNodes properties) := by
  induction properties with
  | nil => exact all_nil
  | cons property others ih => exact all_append.mpr ⟨bodiless_nodes _, ih⟩

end Proofs

end Bodies

end XBase
