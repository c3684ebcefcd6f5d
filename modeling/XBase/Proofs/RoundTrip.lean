import XBase.Proofs.Mirror

/-!
# Programs written as tokens and read back

Every program has a canonical form as tokens: each operand stands in parentheses, and each statement
is closed by its own word and a separator. Reading that form, wherever its tokens stand, gives the
program back. Of the tokens that a program keeps for diagnostics only, the canonical form has the
kind alone.
-/

namespace XBase

section Content

/-- The kinds of tokens whose spelling or value a program uses. -/
def Kind.hasContent : Kind → Bool
  | .name | .number | .text | .trueWord | .falseWord | .nullWord | .relational | .equality | .term
  | .factor | .and | .or | .not | .compoundAssign => true
  | _ => false

/-- Two tokens that differ at most in their places and, where a program does not use it, in their
spelling. -/
structure Token.Same (a b : Token) : Prop where
  kind : b.kind = a.kind
  content (h : a.kind.hasContent = true) :
    b.category = a.category ∧ b.lexeme = a.lexeme ∧ b.literal = a.literal

end Content

open Proofs (bare)

section Canonical

/-! A program without what it keeps for diagnostics only: such a token is replaced by one that has
nothing but the kind. -/

mutual
def Expr.canonical : Expr → Expr
  | .literal token => .literal token
  | .name token => .name token
  | .unary operator right => .unary operator right.canonical
  | .binary left operator right => .binary left.canonical operator right.canonical
  | .logical left operator right => .logical left.canonical operator right.canonical
  | .member object property => .member object.canonical property
  | .index object _ key => .index object.canonical (bare .leftBracket) key.canonical
  | .call callee arguments => .call callee.canonical (canonicalArguments arguments)
  | .create _ prototype values =>
    .create (bare (.keyword .createObject)) prototype (canonicalValues values)
  | .conditional _ condition consequence alternative =>
    .conditional (bare (.keyword .ifWord)) condition.canonical consequence.canonical
      (canonicalAlternative alternative)
  | .this _ => .this (bare (.keyword .thisWord))
  | .substitution token => .substitution token

def canonicalArguments : List (Argument Expr) → List (Argument Expr)
  | [] => []
  | ⟨label, value⟩ :: rest => ⟨label, value.canonical⟩ :: canonicalArguments rest

def canonicalValues : List Expr → List Expr
  | [] => []
  | value :: rest => value.canonical :: canonicalValues rest

def canonicalAlternative : Option Expr → Option Expr
  | none => none
  | some value => some value.canonical
end

def Declarator.canonical (declarator : Declarator) : Declarator :=
  { declarator with initializer := declarator.initializer.map Expr.canonical }

def Parameter.canonical (parameter : Parameter) : Parameter :=
  { parameter with default := parameter.default.map Expr.canonical }

def Property.canonical (property : Property) : Property :=
  { property with value := property.value.canonical }

mutual
def Stmt.canonical : Stmt → Stmt
  | .expression value => .expression value.canonical
  | .print _ values => .print (bare (.keyword .printWord)) (values.map Expr.canonical)
  | .giveBack _ values => .giveBack (bare (.keyword .returnWord)) (values.map Expr.canonical)
  | .declare _ extent declarators =>
    .declare (bare (.keyword (Proofs.extentWord extent))) extent
      (declarators.map Declarator.canonical)
  | .destructure _ extent names values =>
    .destructure (bare (.keyword (Proofs.extentWord extent))) extent names
      (values.map Expr.canonical)
  | .branch _ condition consequence alternative =>
    .branch (bare (.keyword .ifWord)) condition.canonical (canonicalBlock consequence)
      (canonicalBlock alternative)
  | .choose _ branches otherwise =>
    .choose (bare (.keyword .caseWord)) (canonicalBranches branches)
      (canonicalOtherwise otherwise)
  | .whileLoop _ condition body =>
    .whileLoop (bare (.keyword .whileWord)) condition.canonical (canonicalBlock body)
  | .doLoop _ body condition =>
    .doLoop (bare (.keyword .doWord)) (canonicalBlock body) condition.canonical
  | .forLoop _ counter start finish step body =>
    .forLoop (bare (.keyword .forWord)) counter start.canonical finish.canonical
      (step.map Expr.canonical) (canonicalBlock body)
  | .exit _ => .exit (bare (.keyword .exitWord))
  | .loop _ => .loop (bare (.keyword .loopWord))
  | .function declaration => .function (canonicalFunction declaration)
  | .classDef ⟨_, name, superclass, properties, methods⟩ =>
    .classDef ⟨bare (.keyword .classWord), name, superclass, properties.map Property.canonical,
      canonicalMethods methods⟩
  | .const _ name value => .const (bare (.keyword .constWord)) name value.canonical
  | .module _ name body => .module (bare (.keyword .moduleWord)) name (canonicalBlock body)
  | .release _ targets => .release (bare (.keyword .releaseWord)) targets
  | .defer _ body => .defer (bare (.keyword .deferWord)) (canonicalBlock body)
  | .assign _ target value => .assign (bare .assign) target.canonical value.canonical
  | .update operator target value => .update operator target.canonical value.canonical
  | .assignAll _ targets values =>
    .assignAll (bare .leftParen) (targets.map Expr.canonical) (values.map Expr.canonical)

def canonicalBlock : List Stmt → List Stmt
  | [] => []
  | statement :: rest => statement.canonical :: canonicalBlock rest

def canonicalBranches : List (CaseBranch Stmt) → List (CaseBranch Stmt)
  | [] => []
  | ⟨conditions, body⟩ :: rest =>
    ⟨conditions.map Expr.canonical, canonicalBlock body⟩ :: canonicalBranches rest

def canonicalOtherwise : Option (List Stmt) → Option (List Stmt)
  | none => none
  | some body => some (canonicalBlock body)

def canonicalFunction : FunctionDecl Stmt → FunctionDecl Stmt
  | ⟨_, name, parameters, body, defers⟩ =>
    ⟨bare (.keyword .functionWord), name, parameters.map Parameter.canonical, canonicalBlock body,
      canonicalDefers defers⟩

def canonicalMethods : List (FunctionDecl Stmt) → List (FunctionDecl Stmt)
  | [] => []
  | method :: rest => canonicalFunction method :: canonicalMethods rest

def canonicalDefers : List (List Stmt) → List (List Stmt)
  | [] => []
  | body :: rest => canonicalBlock body :: canonicalDefers rest
end

end Canonical

section Tokens

/-! The tokens of the canonical form. -/

def inParens (tokens : List Token) : List Token :=
  bare .leftParen :: (tokens ++ [bare .rightParen])

def listed : List (List Token) → List Token
  | [] => []
  | first :: rest => first ++ rest.flatMap (bare .comma :: ·)

/-- `as name`, for a name that may be missing. -/
def asTokens : Option Token → List Token
  | none => []
  | some name => [bare (.keyword .asWord), name]

/-- `label:`, for a label that may be missing. -/
def labelTokens : Option Token → List Token
  | none => []
  | some label => [label, bare .colon]

mutual
def Expr.tokens : Expr → List Token
  | .literal token | .name token => [token]
  | .unary operator right => operator :: inParens right.tokens
  | .binary left operator right | .logical left operator right =>
    inParens left.tokens ++ operator :: inParens right.tokens
  | .member object property => inParens object.tokens ++ [bare .dot, property]
  | .index object _ key =>
    inParens object.tokens ++ bare .leftBracket :: (inParens key.tokens ++ [bare .rightBracket])
  | .call callee arguments => inParens callee.tokens ++ inParens (listed (argumentTokens arguments))
  | .create _ prototype values =>
    bare (.keyword .createObject) :: inParens (prototype :: trailingTokens values)
  | .conditional _ condition consequence alternative =>
    inParens consequence.tokens ++ bare (.keyword .ifWord) ::
      (inParens condition.tokens ++ alternativeTokens alternative)
  | .this _ => [bare (.keyword .thisWord)]
  | .substitution token => [bare .ampersand, token]

def argumentTokens : List (Argument Expr) → List (List Token)
  | [] => []
  | ⟨label, value⟩ :: rest => (labelTokens label ++ inParens value.tokens) :: argumentTokens rest

def trailingTokens : List Expr → List Token
  | [] => []
  | value :: rest => bare .comma :: (inParens value.tokens ++ trailingTokens rest)

def alternativeTokens : Option Expr → List Token
  | none => []
  | some value => bare (.keyword .elseWord) :: inParens value.tokens
end

def Expr.operand (e : Expr) : List Token :=
  inParens e.tokens

def Expr.value (e : Expr) : List Token :=
  match e with
  | .conditional .. => e.tokens
  | _ => e.operand

/-- `= value`, for a value that may be missing. -/
def initialTokens (write : Expr → List Token) : Option Expr → List Token
  | none => []
  | some e => bare .assign :: write e

def Declarator.tokens (declarator : Declarator) : List Token :=
  declarator.name :: (asTokens declarator.type ++ initialTokens Expr.value declarator.initializer)

def Parameter.tokens (parameter : Parameter) : List Token :=
  parameter.name :: (asTokens parameter.otherName ++ initialTokens Expr.operand parameter.default)

def Property.tokens (property : Property) : List Token :=
  property.name :: bare .assign :: (property.value.operand ++ [bare .separator])

def stepTokens : Option Expr → List Token
  | none => []
  | some step => bare (.keyword .stepWord) :: step.operand

/-- Statements between the line that opens them and the word that closes them. -/
def enclosed (opening : List Token) (body : List Token) (word : Keyword) : List Token :=
  opening ++ bare .separator :: (body ++ [bare (.keyword word), bare .separator])

mutual
def Stmt.tokens : Stmt → List Token
  | .expression value => value.operand ++ [bare .separator]
  | .print _ values =>
    bare (.keyword .printWord) :: (listed (values.map Expr.operand) ++ [bare .separator])
  | .giveBack _ values =>
    bare (.keyword .returnWord) :: (listed (values.map Expr.value) ++ [bare .separator])
  | .declare _ extent declarators =>
    bare (.keyword (Proofs.extentWord extent)) ::
      (listed (declarators.map Declarator.tokens) ++ [bare .separator])
  | .destructure _ extent names values =>
    bare (.keyword (Proofs.extentWord extent)) :: (inParens (listed (names.map ([·]))) ++
      bare .assign :: (listed (values.map Expr.operand) ++ [bare .separator]))
  | .branch _ condition consequence alternative =>
    enclosed (bare (.keyword .ifWord) :: condition.operand)
      (blockTokens consequence ++ elseTokens alternative) .endIf
  | .choose _ branches otherwise =>
    enclosed [bare (.keyword .doWord), bare (.keyword .caseWord)]
      (branchTokens branches ++ otherwiseTokens otherwise) .endCase
  | .whileLoop _ condition body =>
    enclosed (bare (.keyword .doWord) :: bare (.keyword .whileWord) :: condition.operand)
      (blockTokens body) .endDo
  | .doLoop _ body condition =>
    bare (.keyword .doWord) :: bare .separator ::
      (blockTokens body ++ bare (.keyword .whileWord) :: (condition.operand ++ [bare .separator]))
  | .forLoop _ counter start finish step body =>
    enclosed (bare (.keyword .forWord) :: counter :: bare .assign :: (start.operand ++
      bare (.keyword .toWord) :: (finish.operand ++ stepTokens step))) (blockTokens body) .endFor
  | .exit _ => [bare (.keyword .exitWord), bare .separator]
  | .loop _ => [bare (.keyword .loopWord), bare .separator]
  | .function declaration => functionTokens declaration
  | .classDef ⟨_, name, superclass, properties, methods⟩ =>
    enclosed (bare (.keyword .classWord) :: name :: asTokens superclass)
      (properties.flatMap Property.tokens ++ methodTokens methods) .endClass
  | .const _ name value =>
    bare (.keyword .constWord) :: name :: bare .assign :: (value.value ++ [bare .separator])
  | .module _ name body =>
    enclosed [bare (.keyword .moduleWord), name] (blockTokens body) .endModule
  | .release _ targets =>
    bare (.keyword .releaseWord) :: (listed (targets.map ([·])) ++ [bare .separator])
  | .defer _ body => enclosed [bare (.keyword .deferWord)] (blockTokens body) .endDefer
  | .assign _ target value =>
    target.tokens ++ bare .assign :: (value.operand ++ [bare .separator])
  | .update operator target value =>
    target.tokens ++ operator :: (value.operand ++ [bare .separator])
  | .assignAll _ targets values =>
    inParens (listed (targets.map Expr.tokens)) ++
      bare .assign :: (listed (values.map Expr.operand) ++ [bare .separator])

def blockTokens : List Stmt → List Token
  | [] => []
  | statement :: rest => statement.tokens ++ blockTokens rest

def elseTokens : List Stmt → List Token
  | [] => []
  | statement :: rest => bare (.keyword .elseWord) :: bare .separator ::
    (statement.tokens ++ blockTokens rest)

def branchTokens : List (CaseBranch Stmt) → List Token
  | [] => []
  | ⟨conditions, body⟩ :: rest =>
    bare (.keyword .caseWord) :: (listed (conditions.map Expr.operand) ++
      bare .separator :: (blockTokens body ++ branchTokens rest))

def otherwiseTokens : Option (List Stmt) → List Token
  | none => []
  | some body => bare (.keyword .otherwiseWord) :: bare .separator :: blockTokens body

/-- A function, in which the defer blocks stand behind the other statements. -/
def functionTokens : FunctionDecl Stmt → List Token
  | ⟨_, name, parameters, body, defers⟩ =>
    enclosed (bare (.keyword .functionWord) :: name ::
      inParens (listed (parameters.map Parameter.tokens)))
      (blockTokens body ++ deferTokens defers) .endFunc

def methodTokens : List (FunctionDecl Stmt) → List Token
  | [] => []
  | method :: rest => functionTokens method ++ methodTokens rest

def deferTokens : List (List Stmt) → List Token
  | [] => []
  | body :: rest =>
    enclosed [bare (.keyword .deferWord)] (blockTokens body) .endDefer ++ deferTokens rest
end

end Tokens

section Proper

/-! Programs that the grammar can write: names are tokens of names and so on, lists that the grammar
wants to hold something do so, and what may not stand in a place does not stand there. -/

/-- An expression without conditionals. -/
inductive Expr.Proper : Expr → Prop
  | literal {token : Token} (h : token.kind = .number ∨ token.kind = .text ∨
      token.kind = .trueWord ∨ token.kind = .falseWord ∨ token.kind = .nullWord) :
      Expr.Proper (.literal token)
  | name {token : Token} (h : token.kind = .name) : Expr.Proper (.name token)
  | unary {operator : Token} {right : Expr} (h : operator.kind = .not ∨ operator.kind = .term)
      (hright : right.Proper) : Expr.Proper (.unary operator right)
  | binary {left right : Expr} {operator : Token} (hleft : left.Proper)
      (h : operator.kind = .equality ∨ operator.kind = .relational ∨ operator.kind = .term ∨
        operator.kind = .factor) (hright : right.Proper) :
      Expr.Proper (.binary left operator right)
  | logical {left right : Expr} {operator : Token} (hleft : left.Proper)
      (h : operator.kind = .and ∨ operator.kind = .or) (hright : right.Proper) :
      Expr.Proper (.logical left operator right)
  | member {object : Expr} {property : Token} (hobject : object.Proper)
      (h : property.kind = .name) : Expr.Proper (.member object property)
  | index {object key : Expr} {bracket : Token} (hobject : object.Proper) (hkey : key.Proper) :
      Expr.Proper (.index object bracket key)
  | call {callee : Expr} {arguments : List (Argument Expr)} (hcallee : callee.Proper)
      (hlabels : ∀ argument ∈ arguments, ∀ label ∈ argument.label, label.kind = .name)
      (hvalues : ∀ argument ∈ arguments, argument.value.Proper) :
      Expr.Proper (.call callee arguments)
  | create {keyword prototype : Token} {values : List Expr} (h : prototype.kind = .text)
      (hvalues : ∀ value ∈ values, value.Proper) : Expr.Proper (.create keyword prototype values)
  | this {token : Token} : Expr.Proper (.this token)
  | substitution {token : Token} (h : token.kind = .name) : Expr.Proper (.substitution token)

/-- An expression that may be a conditional itself, but holds none. -/
inductive Expr.ProperValue : Expr → Prop
  | always {e : Expr} (h : e.Proper) : Expr.ProperValue e
  | conditional {keyword : Token} {condition consequence : Expr} {alternative : Option Expr}
      (hcondition : condition.Proper) (hconsequence : consequence.Proper)
      (halternative : ∀ e ∈ alternative, e.Proper) :
      Expr.ProperValue (.conditional keyword condition consequence alternative)

structure Declarator.Proper (declarator : Declarator) : Prop where
  name : declarator.name.kind = .name
  type : ∀ type ∈ declarator.type, type.kind = .name
  initializer : ∀ e ∈ declarator.initializer, e.ProperValue

structure Parameter.Proper (parameter : Parameter) : Prop where
  name : parameter.name.kind = .name
  otherName : ∀ name ∈ parameter.otherName, name.kind = .name
  default : ∀ e ∈ parameter.default, e.Proper

structure Property.Proper (property : Property) : Prop where
  name : property.name.kind = .name
  value : property.value.Proper

/-- The line of a function, and that its defer blocks stand apart from its body. -/
structure FunctionDecl.Proper (function : FunctionDecl Stmt) : Prop where
  name : function.name.kind = .name
  parameters : ∀ parameter ∈ function.parameters, parameter.Proper
  body : ∀ statement ∈ function.body, Read.deferred? statement = none

def Stmt.isDeclaration : Stmt → Bool
  | .declare .. | .destructure .. | .const .. | .function _ | .module .. | .classDef _ => true
  | _ => false

/-- A statement that the grammar can write. -/
inductive Stmt.Proper : Stmt → Prop
  | expression {value : Expr} (h : value.Proper) : Stmt.Proper (.expression value)
  | print {token : Token} {values : List Expr} (h : ∀ value ∈ values, value.Proper) :
      Stmt.Proper (.print token values)
  | giveBack {token : Token} {values : List Expr} (h : ∀ value ∈ values, value.ProperValue) :
      Stmt.Proper (.giveBack token values)
  | declare {token : Token} {extent : Extent} {declarators : List Declarator}
      (hsome : declarators ≠ []) (h : ∀ declarator ∈ declarators, declarator.Proper) :
      Stmt.Proper (.declare token extent declarators)
  | destructure {token : Token} {extent : Extent} {names : List Token} {values : List Expr}
      (hnames : names ≠ []) (h : ∀ name ∈ names, name.kind = .name) (hvalues : values ≠ [])
      (h' : ∀ value ∈ values, value.Proper) : Stmt.Proper (.destructure token extent names values)
  | branch {token : Token} {condition : Expr} {consequence alternative : List Stmt}
      (hcondition : condition.Proper) (hconsequence : ∀ s ∈ consequence, s.Proper)
      (halternative : ∀ s ∈ alternative, s.Proper) :
      Stmt.Proper (.branch token condition consequence alternative)
  | choose {token : Token} {branches : List (CaseBranch Stmt)} {otherwise : Option (List Stmt)}
      (hsome : ∀ branch ∈ branches, branch.conditions ≠ [])
      (hconditions : ∀ branch ∈ branches, ∀ condition ∈ branch.conditions, condition.Proper)
      (hbodies : ∀ branch ∈ branches, ∀ s ∈ branch.body, s.Proper)
      (hotherwise : ∀ body ∈ otherwise, ∀ s ∈ body, s.Proper) :
      Stmt.Proper (.choose token branches otherwise)
  | whileLoop {token : Token} {condition : Expr} {body : List Stmt} (hcondition : condition.Proper)
      (hbody : ∀ s ∈ body, s.Proper) : Stmt.Proper (.whileLoop token condition body)
  | doLoop {token : Token} {condition : Expr} {body : List Stmt} (hbody : ∀ s ∈ body, s.Proper)
      (hplain : ∀ s ∈ body, s.isDeclaration = false) (hcondition : condition.Proper) :
      Stmt.Proper (.doLoop token body condition)
  | forLoop {token counter : Token} {start finish : Expr} {step : Option Expr} {body : List Stmt}
      (hcounter : counter.kind = .name) (hstart : start.Proper) (hfinish : finish.Proper)
      (hstep : ∀ e ∈ step, e.Proper) (hbody : ∀ s ∈ body, s.Proper) :
      Stmt.Proper (.forLoop token counter start finish step body)
  | exit {token : Token} : Stmt.Proper (.exit token)
  | loop {token : Token} : Stmt.Proper (.loop token)
  | function {declaration : FunctionDecl Stmt} (h : declaration.Proper)
      (hbody : ∀ s ∈ declaration.body, s.Proper)
      (hdefers : ∀ body ∈ declaration.defers, ∀ s ∈ body, s.Proper) :
      Stmt.Proper (.function declaration)
  | classDef {declaration : ClassDecl Stmt} (hname : declaration.name.kind = .name)
      (hsuperclass : ∀ name ∈ declaration.superclass, name.kind = .name)
      (hproperties : ∀ property ∈ declaration.properties, property.Proper)
      (hmethods : ∀ method ∈ declaration.methods, method.Proper)
      (hbodies : ∀ method ∈ declaration.methods, ∀ s ∈ method.body, s.Proper)
      (hdefers : ∀ method ∈ declaration.methods, ∀ body ∈ method.defers, ∀ s ∈ body, s.Proper) :
      Stmt.Proper (.classDef declaration)
  | const {token name : Token} {value : Expr} (hname : name.kind = .name)
      (hvalue : value.ProperValue) : Stmt.Proper (.const token name value)
  | module {token name : Token} {body : List Stmt} (hname : name.kind = .name)
      (hbody : ∀ s ∈ body, s.Proper) : Stmt.Proper (.module token name body)
  | release {token : Token} {targets : List Token} (hsome : targets ≠ [])
      (h : ∀ target ∈ targets, target.kind = .name) : Stmt.Proper (.release token targets)
  | defer {token : Token} {body : List Stmt} (hbody : ∀ s ∈ body, s.Proper) :
      Stmt.Proper (.defer token body)
  | assign {operator : Token} {target value : Expr} (htarget : target.Proper)
      (h : target.isTarget = true) (hvalue : value.Proper) :
      Stmt.Proper (.assign operator target value)
  | update {operator : Token} {target value : Expr} (hoperator : operator.kind = .compoundAssign)
      (htarget : target.Proper) (h : target.isTarget = true) (hvalue : value.Proper) :
      Stmt.Proper (.update operator target value)
  | assignAll {token : Token} {targets values : List Expr} (htargets : targets ≠ [])
      (h : ∀ target ∈ targets, target.Proper) (h' : ∀ target ∈ targets, target.isTarget = true)
      (hvalues : values ≠ []) (h'' : ∀ value ∈ values, value.Proper) :
      Stmt.Proper (.assignAll token targets values)

end Proper

namespace Proofs

variable {t : List Token} {e : Expr} {values : List Expr} {s : Stmt} {body : List Stmt}

section Expressions

lemma derives_inParens (h : Derives .expression t e) (rank : Rank) :
    Derives (.expr rank) (inParens t) e :=
  derives_of_primary (.grouped rfl h rfl) rank

lemma derives_of_operation {level : Precedence} (h : Derives (.expr (.operation level)) t e) :
    Derives .expression t e := by
  have hand (h : Derives (.expr (.operation .and)) t e) : Derives .expression t e :=
    @Derives.operand .or t e h
  have hequality (h : Derives (.expr (.operation .equality)) t e) : Derives .expression t e :=
    hand (@Derives.operand .and t e h)
  have hcomparison (h : Derives (.expr (.operation .comparison)) t e) : Derives .expression t e :=
    hequality (@Derives.operand .equality t e h)
  have hterm (h : Derives (.expr (.operation .term)) t e) : Derives .expression t e :=
    hcomparison (@Derives.operand .comparison t e h)
  cases level with
  | or => exact h
  | and => exact hand h
  | equality => exact hequality h
  | comparison => exact hcomparison h
  | term => exact hterm h
  | factor => exact hterm (@Derives.operand .term t e h)

lemma derives_of_applied (h : Derives (.expr .applied) t e) : Derives .expression t e :=
  derives_of_operation (@Derives.operand .factor t e (.unsigned h))

lemma derives_operation {level : Precedence} {t u : List Token} {left right : Expr}
    {operator : Token} (hleft : Derives .expression t left) (hoperator : operator.kind = level.kind)
    (hright : Derives .expression u right) :
    Derives .expression (inParens t ++ operator :: inParens u) (level.join left operator right) :=
  derives_of_operation (.operation (derives_inParens hleft _) hoperator (derives_inParens hright _))

lemma derives_labelled {label : Option Token} {value : Expr}
    (hlabel : ∀ token ∈ label, token.kind = .name) (h : Derives .expression t value) :
    Derives .argument (labelTokens label ++ inParens t) ⟨label, value⟩ := by
  cases label with
  | none => exact .positional (derives_inParens h _)
  | some token => exact .labelled (hlabel token rfl) rfl (derives_inParens h _)

lemma derives_argumentTokens {first : Argument Expr} {rest : List (Argument Expr)}
    (hlabels : ∀ argument ∈ first :: rest, ∀ label ∈ argument.label, label.kind = .name)
    (h : ∀ argument ∈ first :: rest,
      Derives .expression argument.value.tokens argument.value.canonical) :
    Derives .arguments (listed (argumentTokens (first :: rest)))
      (canonicalArguments (first :: rest)) := by
  have hfirst := derives_labelled (hlabels first (.head _)) (h first (.head _))
  induction rest generalizing first with
  | nil =>
    simp only [argumentTokens, canonicalArguments, listed, List.flatMap_nil, List.append_nil]
    exact .lastArgument hfirst
  | cons second rest ih =>
    have hrest := ih (fun a ha => hlabels a (.tail _ ha)) (fun a ha => h a (.tail _ ha))
      (derives_labelled (hlabels second (.tail _ (.head _))) (h second (.tail _ (.head _))))
    exact .moreArguments hfirst rfl hrest

lemma derives_trailingTokens
    (h : ∀ value ∈ values, Derives .expression value.tokens value.canonical) :
    Derives .values (trailingTokens values) (canonicalValues values) := by
  induction values with
  | nil => exact .noValues
  | cons value rest ih =>
    exact .moreValues rfl (derives_inParens (h value (.head _)) _) (ih fun e he => h e (.tail _ he))

lemma derives_proper (h : e.Proper) : Derives .expression e.tokens e.canonical := by
  induction h with
  | literal h => exact derives_of_primary (.literal h) _
  | name h => exact derives_of_primary (.name h) _
  | unary h _ ih =>
    exact derives_of_operation (@Derives.operand .factor _ _ (.signed h (derives_inParens ih _)))
  | binary _ h _ ih ih' =>
    rcases h with h | h | h | h
    · exact @derives_operation .equality _ _ _ _ _ ih h ih'
    · exact @derives_operation .comparison _ _ _ _ _ ih h ih'
    · exact @derives_operation .term _ _ _ _ _ ih h ih'
    · exact @derives_operation .factor _ _ _ _ _ ih h ih'
  | logical _ h _ ih ih' =>
    rcases h with h | h
    · exact @derives_operation .and _ _ _ _ _ ih h ih'
    · exact @derives_operation .or _ _ _ _ _ ih h ih'
  | member _ h ih => exact derives_of_applied (.member (derives_inParens ih _) rfl h)
  | index _ _ ih ih' =>
    exact derives_of_applied (.index (derives_inParens ih _) rfl (derives_inParens ih' _) rfl)
  | @call callee arguments _ hlabels _ ih ih' =>
    cases arguments with
    | nil => exact derives_of_applied (.call (derives_inParens ih _) rfl rfl)
    | cons first rest =>
      exact derives_of_applied (.callWith (derives_inParens ih _) rfl
        (derives_argumentTokens hlabels ih') rfl)
  | create h _ ih => exact derives_of_primary (.create rfl rfl h (derives_trailingTokens ih) rfl) _
  | this => exact derives_of_primary (.this rfl) _
  | substitution h => exact derives_of_primary (.substitution rfl h) _

lemma derives_operand (h : e.Proper) : Derives .expression e.operand e.canonical :=
  derives_inParens (derives_proper h) _

lemma conditional_value (h : e.ProperValue) : Conditional e.value e.canonical := by
  cases h with
  | always h =>
    have hvalue : e.value = e.operand := by cases h <;> rfl
    rw [hvalue]
    exact .always (derives_operand h)
  | @conditional keyword condition consequence alternative hcondition hconsequence halternative =>
    cases alternative with
    | none =>
      have hvalue : Expr.value (.conditional keyword condition consequence none) =
          consequence.operand ++ bare (.keyword .ifWord) :: condition.operand := by
        simp [Expr.value, Expr.tokens, alternativeTokens, Expr.operand]
      rw [hvalue]
      exact .when (derives_operand hconsequence) rfl (derives_operand hcondition)
    | some alternative =>
      exact .choice (derives_operand hconsequence) rfl (derives_operand hcondition) rfl
        (derives_operand (halternative alternative rfl))

end Expressions

section Lines

lemma trailing_written {α β : Type} {D : List Token → α → Prop} {write : β → List Token}
    {tree : β → α} {items : List β} (h : ∀ item ∈ items, D (write item) (tree item)) :
    Trailing D ((items.map write).flatMap (bare .comma :: ·)) (items.map tree) := by
  induction items with
  | nil => exact .nil
  | cons item items ih => exact .cons rfl (h item (.head _)) (ih fun i hi => h i (.tail _ hi))

lemma listed_written {α β : Type} {D : List Token → α → Prop} {write : β → List Token}
    {tree : β → α} {items : List β} (hsome : items ≠ [])
    (h : ∀ item ∈ items, D (write item) (tree item)) :
    Listed D (listed (items.map write)) (items.map tree) := by
  cases items with
  | nil => exact absurd rfl hsome
  | cons item items => exact .mk (h item (.head _)) (trailing_written fun i hi => h i (.tail _ hi))

lemma listed_names {D : List Token → Token → Prop} {names : List Token} (hsome : names ≠ [])
    (h : ∀ name ∈ names, D [name] name) : Listed D (listed (names.map ([·]))) names := by
  have hlisted := @listed_written _ _ D ([·]) id names hsome h
  rwa [List.map_id] at hlisted

lemma inParens_append (t u : List Token) :
    inParens t ++ u = bare .leftParen :: (t ++ bare .rightParen :: u) := by
  simp [inParens]

lemma asName_written {name : Option Token} (h : ∀ token ∈ name, token.kind = .name) :
    AsName (asTokens name) name := by
  cases name with
  | none => exact .absent
  | some token => exact .present rfl (h token rfl)

lemma initial_written {D : List Token → Expr → Prop} {write : Expr → List Token}
    {value : Option Expr} (h : ∀ e ∈ value, D (write e) e.canonical) :
    Initial D (initialTokens write value) (value.map Expr.canonical) := by
  cases value with
  | none => exact .absent
  | some e => exact .present rfl (h e rfl)

lemma declares_written {declarator : Declarator} (h : declarator.Proper) :
    Declares declarator.tokens declarator.canonical :=
  .mk h.name (asName_written h.type)
    (initial_written fun e he => conditional_value (h.initializer e he))

lemma binds_written {parameter : Parameter} (h : parameter.Proper) :
    Binds parameter.tokens parameter.canonical :=
  .mk h.name (asName_written h.otherName)
    (initial_written fun e he => derives_operand (h.default e he))

lemma holds_written {property : Property} (h : property.Proper) :
    Holds property.tokens property.canonical :=
  .mk h.name rfl (derives_operand h.value) rfl

lemma parameters_written {parameters : List Parameter}
    (h : ∀ parameter ∈ parameters, parameter.Proper) :
    Parameters (inParens (listed (parameters.map Parameter.tokens)))
      (parameters.map Parameter.canonical) := by
  cases parameters with
  | nil => exact .none rfl rfl
  | cons first rest =>
    exact .some rfl (listed_written (by simp) fun _ hp => binds_written (h _ hp)) rfl

lemma steps_written {step : Option Expr} (h : ∀ e ∈ step, e.Proper) :
    Steps (stepTokens step) (step.map Expr.canonical) := by
  cases step with
  | none => exact .absent
  | some e => exact .present rfl (derives_operand (h e rfl))

lemma listed_operands (hsome : values ≠ []) (h : ∀ value ∈ values, value.Proper) :
    Listed (Derives .expression) (listed (values.map Expr.operand)) (values.map Expr.canonical) :=
  listed_written hsome fun value hvalue => derives_operand (h value hvalue)

/-- What a look behind the parenthesis of an operand sees. -/
lemma opens_operand (h : e.Proper) (next : Option Kind → Bool) (rest : List Token) :
    opens next (e.operand ++ rest) = next (rest.head?.map Token.kind) := by
  have hphrased := derives_phrased (derives_proper h)
  rw [Expr.operand, inParens_append]
  exact opens_group rfl hphrased rfl next rest

/-- One value alone is read as what stands in the parentheses of `print (...)`. -/
lemma printed_written (h : ∀ value ∈ values, value.Proper) :
    Printed (bare (.keyword .printWord)) (listed (values.map Expr.operand) ++ [bare .separator])
      (.print (bare (.keyword .printWord)) (values.map Expr.canonical)) := by
  cases values with
  | nil => exact .nothing rfl
  | cons first rest =>
    cases rest with
    | nil =>
      have hlisted : Listed (Derives .expression) (first.tokens ++ []) [first.canonical] :=
        .mk (derives_proper (h first (.head _))) .nil
      have hprinted := @Printed.group (bare (.keyword .printWord)) (bare .leftParen)
        (bare .rightParen) (bare .separator) _ _ rfl hlisted rfl rfl
      simpa [listed, Expr.operand, inParens] using hprinted
    | cons second rest =>
      refine .list (listed_operands (by simp) h) rfl ?_
      simp only [List.map_cons, listed, List.flatMap_cons, List.append_assoc]
      rw [opens_operand (h first (.head _))]
      rfl

lemma canonical_isTarget : e.canonical.isTarget = e.isTarget := by
  cases e <;> rfl

lemma target_written {target : Expr} (htarget : target.Proper) (h : target.isTarget = true) :
    Target target.tokens target.canonical :=
  ⟨derives_proper htarget, canonical_isTarget.trans h⟩

/-- A target does not look like the targets of `(a, b) = x, y`. -/
lemma opens_target {target : Expr} (htarget : target.Proper) (h : target.isTarget = true)
    (rest : List Token) : opens beforeAssign (target.tokens ++ rest) = false := by
  cases htarget with
  | name hname => simp [Expr.tokens, opens, hname]
  | member hobject _ =>
    rw [Expr.tokens, List.append_assoc]
    exact opens_operand hobject _ _
  | index hobject _ =>
    rw [Expr.tokens, List.append_assoc]
    exact opens_operand hobject _ _
  | _ => cases h

end Lines

section Statements

/-- The grammar without imports. -/
abbrev Plain : (part : Part) → List Token → part.Tree → Prop :=
  Builds fun _ => none

/-- The grammar derives a statement from its tokens; what is no declaration may stand where no
declaration may stand. -/
def Writes (s : Stmt) : Prop :=
  Plain .declaration s.tokens s.canonical ∧
    (s.isDeclaration = false → Plain .statement s.tokens s.canonical)

lemma writes_statement (h : Plain .statement s.tokens s.canonical) : Writes s :=
  ⟨.stated h, fun _ => h⟩

lemma writes_declaration (h : Plain .declaration s.tokens s.canonical)
    (hs : s.isDeclaration = true) : Writes s :=
  ⟨h, fun hno => by simp [hs] at hno⟩

lemma block_before (h : ∀ s ∈ body, Writes s) {u : List Token} {rest : List Stmt}
    (hrest : Plain .block u rest) :
    Plain .block (blockTokens body ++ u) (canonicalBlock body ++ rest) := by
  induction body with
  | nil => exact hrest
  | cons s body ih =>
    rw [blockTokens, canonicalBlock, List.append_assoc]
    exact .blockNext (h s (.head _)).1 (ih fun s hs => h s (.tail _ hs))

lemma block_written (h : ∀ s ∈ body, Writes s) :
    Plain .block (blockTokens body) (canonicalBlock body) := by
  simpa using block_before h .blockEnd

lemma plain_written (h : ∀ s ∈ body, Writes s) (hplain : ∀ s ∈ body, s.isDeclaration = false) :
    Plain .plain (blockTokens body) (canonicalBlock body) := by
  induction body with
  | nil => exact .plainEnd
  | cons s body ih =>
    exact .plainNext ((h s (.head _)).2 (hplain s (.head _)))
      (ih (fun s hs => h s (.tail _ hs)) fun s hs => hplain s (.tail _ hs))

lemma branches_written {branches : List (CaseBranch Stmt)}
    (hsome : ∀ branch ∈ branches, branch.conditions ≠ [])
    (hconditions : ∀ branch ∈ branches, ∀ condition ∈ branch.conditions, condition.Proper)
    (h : ∀ branch ∈ branches, ∀ s ∈ branch.body, Writes s) :
    Plain .branches (branchTokens branches) (canonicalBranches branches) := by
  induction branches with
  | nil => exact .branchesEnd
  | cons branch branches ih =>
    exact .branchesNext rfl (listed_operands (hsome branch (.head _)) (hconditions branch (.head _)))
      rfl (block_written (h branch (.head _)))
      (ih (fun b hb => hsome b (.tail _ hb)) (fun b hb => hconditions b (.tail _ hb))
        fun b hb => h b (.tail _ hb))

/-- The defer blocks at the end of the body of a function. -/
lemma defers_written {defers : List (List Stmt)} (h : ∀ body ∈ defers, ∀ s ∈ body, Writes s) :
    Plain .block (deferTokens defers)
      ((canonicalDefers defers).map (.defer (bare (.keyword .deferWord)))) := by
  induction defers with
  | nil => exact .blockEnd
  | cons body defers ih =>
    exact .blockNext (.stated (.defer rfl rfl (block_written (h body (.head _))) rfl rfl))
      (ih fun b hb => h b (.tail _ hb))

lemma canonicalBlock_eq_map (body : List Stmt) : canonicalBlock body = body.map Stmt.canonical := by
  induction body with
  | nil => rfl
  | cons s body ih => rw [canonicalBlock, ih, List.map_cons]

lemma deferred_canonical (h : Read.deferred? s = none) : Read.deferred? s.canonical = none := by
  cases s with
  | defer => cases h
  | _ => rfl

/-- Reading a function takes the defer blocks out again. -/
lemma deferral_written (h : ∀ s ∈ body, Read.deferred? s = none) (token : Token)
    (defers : List (List Stmt)) :
    let statements := canonicalBlock body ++ defers.map (Stmt.defer token)
    statements.filter (Read.deferred? · |>.isNone) = canonicalBlock body ∧
      statements.filterMap Read.deferred? = defers := by
  have hbody : ∀ s ∈ canonicalBlock body, Read.deferred? s = none := by
    rw [canonicalBlock_eq_map]
    intro s hs
    obtain ⟨s, hmem, rfl⟩ := List.mem_map.mp hs
    exact deferred_canonical (h s hmem)
  have hdefers : Read.deferred? ∘ Stmt.defer token = some := rfl
  constructor
  · rw [List.filter_append, List.filter_eq_self.mpr (by simpa using hbody), List.filter_eq_nil_iff.mpr,
      List.append_nil]
    simp [Read.deferred?]
  · rw [List.filterMap_append, List.filterMap_eq_nil_iff.mpr hbody, List.filterMap_map, hdefers,
      List.filterMap_some, List.nil_append]

lemma function_written {f : FunctionDecl Stmt} (hf : f.Proper) (hbody : ∀ s ∈ f.body, Writes s)
    (hdefers : ∀ body ∈ f.defers, ∀ s ∈ body, Writes s) :
    Plain .function (functionTokens f) (canonicalFunction f) := by
  obtain ⟨token, name, parameters, body, defers⟩ := f
  obtain ⟨hname, hparameters, hplain⟩ := hf
  have hstatements := block_before hbody (defers_written hdefers)
  obtain ⟨hfilter, hfilterMap⟩ :=
    deferral_written hplain (bare (.keyword .deferWord)) (canonicalDefers defers)
  have hbuilds := @Builds.function (fun _ => none) (bare (.keyword .functionWord)) name
    (bare .separator) (bare (.keyword .endFunc)) (bare .separator) _ _ _ _ rfl hname
    (parameters_written hparameters) rfl hstatements rfl rfl
  rwa [hfilter, hfilterMap] at hbuilds

lemma members_written {properties : List Property} {methods : List (FunctionDecl Stmt)}
    (hproperties : ∀ property ∈ properties, property.Proper)
    (hmethods : ∀ method ∈ methods, Plain .function (functionTokens method)
      (canonicalFunction method)) :
    Plain .members (properties.flatMap Property.tokens ++ methodTokens methods)
      (properties.map Property.canonical, canonicalMethods methods) := by
  induction properties with
  | nil =>
    rw [List.flatMap_nil, List.nil_append]
    induction methods with
    | nil => exact .membersEnd
    | cons method methods ih =>
      exact .membersMethod (hmethods method (.head _)) (ih fun m hm => hmethods m (.tail _ hm))
  | cons property properties ih =>
    rw [List.flatMap_cons, List.append_assoc]
    exact .membersProperty (holds_written (hproperties property (.head _)))
      (ih fun p hp => hproperties p (.tail _ hp))

lemma writes_proper (h : s.Proper) : Writes s := by
  induction h with
  | expression h =>
    refine writes_statement (.simple (.evaluated (.alone (derives_operand h) rfl) ?_))
    exact opens_operand h _ _
  | print h => exact writes_statement (.simple (.print (.inr rfl) (printed_written h)))
  | @giveBack token values h =>
    refine writes_statement (.simple (.giveBack rfl ?_))
    cases values with
    | nil => exact .nothing rfl
    | cons first rest =>
      exact .list (listed_written (by simp) fun e he => conditional_value (h e he)) rfl
  | declare hsome h =>
    exact writes_declaration (.announced (.declared rfl
      (.list (listed_written hsome fun d hd => declares_written (h d hd)) rfl))) rfl
  | destructure hnames h hvalues h' =>
    refine writes_declaration ?_ rfl
    rw [Stmt.tokens, inParens_append]
    exact .announced (.declared rfl (.destructure rfl
      (listed_names hnames fun name hname => .mk (h name hname) .absent) rfl rfl
      (listed_operands hvalues h') rfl))
  | @branch token condition consequence alternative hcondition _ _ ih ih' =>
    refine writes_statement ?_
    cases alternative with
    | nil =>
      rw [Stmt.tokens, elseTokens, enclosed, List.append_nil]
      exact .branch rfl (derives_operand hcondition) .absent rfl (block_written ih) rfl rfl
    | cons first rest =>
      rw [Stmt.tokens, elseTokens, ← blockTokens, enclosed, List.append_assoc]
      exact .branchElse rfl (derives_operand hcondition) .absent rfl (block_written ih) rfl rfl
        (block_written ih') rfl rfl
  | @choose token branches otherwise hsome hconditions _ _ ih ih' =>
    have hbranches := branches_written hsome hconditions ih
    refine writes_statement ?_
    cases otherwise with
    | none =>
      rw [Stmt.tokens, otherwiseTokens, enclosed, List.append_nil]
      exact .choose rfl rfl rfl hbranches rfl rfl
    | some body =>
      rw [Stmt.tokens, otherwiseTokens, enclosed, List.append_assoc]
      exact .chooseOtherwise rfl rfl rfl hbranches rfl rfl (block_written (ih' body rfl)) rfl rfl
  | whileLoop hcondition _ ih =>
    exact writes_statement (.whileLoop rfl rfl (derives_operand hcondition) rfl (block_written ih)
      rfl rfl)
  | doLoop _ hplain hcondition ih =>
    exact writes_statement (.doLoop rfl rfl (plain_written ih hplain) rfl
      (derives_operand hcondition) rfl)
  | forLoop hcounter hstart hfinish hstep _ ih =>
    refine writes_statement ?_
    simp only [Stmt.tokens, enclosed, List.cons_append, List.append_assoc]
    exact .forLoop rfl hcounter rfl (derives_operand hstart) rfl (derives_operand hfinish)
      (steps_written hstep) rfl (block_written ih) rfl rfl
  | exit => exact writes_statement (.simple (.exit rfl rfl))
  | loop => exact writes_statement (.simple (.loop rfl rfl))
  | function hf _ _ ih ih' => exact writes_declaration (.method (function_written hf ih ih')) rfl
  | @classDef declaration hname hsuperclass hproperties hmethods _ _ ih ih' =>
    obtain ⟨token, name, superclass, properties, methods⟩ := declaration
    have hmembers := members_written hproperties fun method hmethod =>
      function_written (hmethods method hmethod) (ih method hmethod) (ih' method hmethod)
    exact writes_declaration (.classDef rfl hname (asName_written hsuperclass) rfl hmembers rfl rfl)
      rfl
  | const hname hvalue =>
    exact writes_declaration (.announced (.constant rfl (.mk hname rfl (conditional_value hvalue)
      rfl))) rfl
  | module hname _ ih =>
    exact writes_declaration (.module rfl hname rfl (block_written ih) rfl rfl) rfl
  | release hsome h =>
    exact writes_statement (.simple (.release rfl (.mk (listed_names hsome fun name hname =>
      derives_of_primary (.name (h name hname)) _) rfl)))
  | defer _ ih => exact writes_statement (.defer rfl rfl (block_written ih) rfl rfl)
  | assign htarget h hvalue =>
    exact writes_statement (.simple (.evaluated (.assign (target_written htarget h) rfl
      (derives_operand hvalue) rfl) (opens_target htarget h _)))
  | update hoperator htarget h hvalue =>
    exact writes_statement (.simple (.evaluated (.update (target_written htarget h) hoperator
      (derives_operand hvalue) rfl) (opens_target htarget h _)))
  | assignAll htargets h h' hvalues h'' =>
    refine writes_statement ?_
    rw [Stmt.tokens, inParens_append]
    exact .simple (.assignAll rfl (.mk (listed_written htargets fun target htarget =>
      target_written (h target htarget) (h' target htarget)) rfl rfl (listed_operands hvalues h'')
      rfl))

end Statements

lemma same_replaces : Replaces Token.Same Token.Same where
  kind h := h.kind
  token h _ := h
  lexeme h hkind := (h.content (by rw [hkind]; rfl)).2.1

/-- Reading a program that is written as tokens gives no error and the program itself, but for the
places of its tokens and what it keeps for diagnostics only. The tokens may stand anywhere. -/
theorem written_program_read_back (library : Library) (importing : List String)
    (parse : Option (List String → String → SourceUnit)) (finish : Position) (program : List Stmt)
    (hprogram : ∀ s ∈ program, s.Proper) (tokens : List Token)
    (htokens : List.Forall₂ Token.Same (blockTokens program) tokens) :
    let unit := SourceUnit.ofScan (SourceUnit.importModule library importing parse)
      ⟨tokens, [], finish⟩
    unit.errors = [] ∧
      List.Forall₂ (Stmt.Moved Token.Same fun _ => none) (canonicalBlock program)
        unit.statements := by
  intro unit
  have hwritten : Plain .block (blockTokens program) (canonicalBlock program) :=
    block_written fun s hs => writes_proper (hprogram s hs)
  obtain ⟨statements, hbuilds, hmoved⟩ :=
    builds_moved same_replaces (fun _ _ hnone => by cases hnone) hwritten htokens
  obtain ⟨hstatements, herrors⟩ := @unit_of_builds _ (fun _ => none)
    (fun _ _ hnone => by cases hnone) (loads_importModule library importing parse)
    ⟨tokens, [], finish⟩ _ hbuilds
  refine ⟨herrors, ?_⟩
  rw [hstatements]
  exact hmoved

/-- A function with a defer block whose branches print one value and return a conditional, and a
post-test loop that assigns to a member, all in one place of the text. -/
theorem function_and_loop_read_back :
    let x := Expr.name (bare .name)
    let program : List Stmt :=
      [.function ⟨bare .dot, bare .name, [⟨bare .name, none, some (.literal (bare .number))⟩],
        [.branch (bare .dot) x [.print (bare .dot) [x]]
          [.giveBack (bare .dot) [.conditional (bare .dot) x (.unary (bare .term) x) none]]],
        [[.release (bare .dot) [bare .name]]]⟩,
       .doLoop (bare .dot) [.assign (bare .dot) (.member x (bare .name)) x] x]
    let tokens := (blockTokens program).map fun token => { token with position := ⟨7, 3⟩ }
    let unit := SourceUnit.ofScan (SourceUnit.importModule .closed [] none) ⟨tokens, [], ⟨8, 1⟩⟩
    (∀ s ∈ program, s.Proper) ∧ List.Forall₂ Token.Same (blockTokens program) tokens ∧
      unit.errors = [] ∧
      List.Forall₂ (Stmt.Moved Token.Same fun _ => none) (canonicalBlock program)
        unit.statements := by
  intro x program tokens
  have hx : x.Proper := .name rfl
  have hprint : Stmt.Proper (.print (bare .dot) [x]) := .print (by simpa using hx)
  have hreturn : Stmt.Proper
      (.giveBack (bare .dot) [.conditional (bare .dot) x (.unary (bare .term) x) none]) :=
    .giveBack (by simpa using .conditional hx (.unary (.inr rfl) hx) (by simp))
  have hrelease : Stmt.Proper (.release (bare .dot) [bare .name]) :=
    .release (by simp) (by simp [bare])
  have hfunction : Stmt.Proper program[0] := by
    refine .function ⟨rfl, ?_, by simp [Read.deferred?]⟩ ?_ (by simpa using hrelease)
    · simpa using ⟨rfl, by simp, by simpa using .literal (.inl rfl)⟩
    · simpa using .branch hx (by simpa using hprint) (by simpa using hreturn)
  have hassign : Stmt.Proper (.assign (bare .dot) (.member x (bare .name)) x) :=
    .assign (.member hx rfl) rfl hx
  have hloop : Stmt.Proper program[1] :=
    .doLoop (by simpa using hassign) (by simp [Stmt.isDeclaration]) hx
  have hprogram : ∀ s ∈ program, s.Proper := by
    simpa [program] using ⟨hfunction, hloop⟩
  have htokens : List.Forall₂ Token.Same (blockTokens program) tokens := by
    rw [List.forall₂_map_right_iff, List.forall₂_same]
    exact fun token _ => ⟨rfl, fun _ => ⟨rfl, rfl, rfl⟩⟩
  exact ⟨hprogram, htokens,
    written_program_read_back .closed [] none ⟨8, 1⟩ program hprogram tokens htokens⟩

end Proofs

end XBase
