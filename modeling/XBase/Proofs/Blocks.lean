import XBase.Proofs.Lines

/-!
# The grammar of statements, derived

The grammar of statements and declarations as rules, and the proof that reading tokens that end with
a separator accepts exactly what the rules derive. Every statement brings its own separator, so a
derived statement is read in the same way whatever follows it.
-/

namespace XBase.Proofs

inductive Part where
  | statement
  | declaration
  | function
  | block
  | plain
  | branches
  | members

abbrev Part.Tree : Part → Type
  | statement | declaration => Stmt
  | function => FunctionDecl Stmt
  | block | plain => List Stmt
  | branches => List (CaseBranch Stmt)
  | members => List Property × List (FunctionDecl Stmt)

/-- `then`, which may be missing. -/
inductive Then : List Token → Prop
  | absent : Then []
  | present {keyword : Token} (h : keyword.kind = .keyword .thenWord) : Then [keyword]

inductive Steps : List Token → Option Expr → Prop
  | absent : Steps [] none
  | present {keyword : Token} {t : List Token} {step : Expr}
      (hkeyword : keyword.kind = .keyword .stepWord) (hstep : Derives .expression t step) :
      Steps (keyword :: t) (some step)

/-- What may stand behind the closing parenthesis of the targets of an assignment. -/
def beforeAssign (next : Option Kind) : Bool :=
  next == some .assign

/-- The statements of one line, where `found` gives the imported modules. -/
inductive Simple (found : String → Option Stmt) : List Token → Stmt → Prop
  | print {keyword : Token} {t : List Token} {s : Stmt}
      (hkeyword : keyword.kind = .question ∨ keyword.kind = .keyword .printWord)
      (h : Printed keyword t s) : Simple found (keyword :: t) s
  | giveBack {keyword : Token} {t : List Token} {s : Stmt}
      (hkeyword : keyword.kind = .keyword .returnWord) (h : GivenBack keyword t s) :
      Simple found (keyword :: t) s
  | release {keyword : Token} {t : List Token} {s : Stmt}
      (hkeyword : keyword.kind = .keyword .releaseWord) (h : Dropped keyword t s) :
      Simple found (keyword :: t) s
  | exit {keyword sep : Token} (hkeyword : keyword.kind = .keyword .exitWord)
      (hsep : sep.kind = .separator) : Simple found [keyword, sep] (.exit keyword)
  | loop {keyword sep : Token} (hkeyword : keyword.kind = .keyword .loopWord)
      (hsep : sep.kind = .separator) : Simple found [keyword, sep] (.loop keyword)
  | imported {keyword name sep : Token} {s : Stmt} (hkeyword : keyword.kind = .keyword .importWord)
      (hname : name.kind = .name) (hsep : sep.kind = .separator)
      (hfound : found name.lexeme = some s) : Simple found [keyword, name, sep] s
  | assignAll {opening : Token} {t : List Token} {s : Stmt} (hopening : opening.kind = .leftParen)
      (h : AssignedAll opening t s) : Simple found (opening :: t) s
  | evaluated {t : List Token} {s : Stmt} (h : Evaluated t s)
      (hopens : opens beforeAssign t = false) : Simple found t s

def extentWord : Extent → Keyword
  | .local => .localWord
  | .global => .publicWord

/-- The declarations of one line. -/
inductive Announced : List Token → Stmt → Prop
  | declared {keyword : Token} {extent : Extent} {t : List Token} {s : Stmt}
      (hkeyword : keyword.kind = .keyword (extentWord extent)) (h : Declared keyword extent t s) :
      Announced (keyword :: t) s
  | constant {keyword : Token} {t : List Token} {s : Stmt}
      (hkeyword : keyword.kind = .keyword .constWord) (h : Constant keyword t s) :
      Announced (keyword :: t) s

/-- The grammar of programs: the tokens of a part and what it stands for. Blocks hold declarations,
the body of a post-test loop holds statements only, and both may hold separators. -/
inductive Builds (found : String → Option Stmt) : (part : Part) → List Token → part.Tree → Prop
  | simple {t : List Token} {s : Stmt} (h : Simple found t s) : Builds found .statement t s
  | branch {keyword sep last sep' : Token} {t u v : List Token} {condition : Expr}
      {consequence : List Stmt} (hkeyword : keyword.kind = .keyword .ifWord)
      (hcondition : Derives .expression t condition) (hthen : Then u) (hsep : sep.kind = .separator)
      (hconsequence : Builds found .block v consequence) (hlast : last.kind = .keyword .endIf)
      (hsep' : sep'.kind = .separator) :
      Builds found .statement (keyword :: (t ++ (u ++ sep :: (v ++ [last, sep']))))
        (.branch keyword condition consequence [])
  | branchElse {keyword sep other sep' last sep'' : Token} {t u v w : List Token} {condition : Expr}
      {consequence alternative : List Stmt} (hkeyword : keyword.kind = .keyword .ifWord)
      (hcondition : Derives .expression t condition) (hthen : Then u) (hsep : sep.kind = .separator)
      (hconsequence : Builds found .block v consequence) (hother : other.kind = .keyword .elseWord)
      (hsep' : sep'.kind = .separator) (halternative : Builds found .block w alternative)
      (hlast : last.kind = .keyword .endIf) (hsep'' : sep''.kind = .separator) :
      Builds found .statement
        (keyword :: (t ++ (u ++ sep :: (v ++ other :: sep' :: (w ++ [last, sep''])))))
        (.branch keyword condition consequence alternative)
  | choose {keyword case sep last sep' : Token} {t : List Token}
      {branches : List (CaseBranch Stmt)} (hkeyword : keyword.kind = .keyword .doWord)
      (hcase : case.kind = .keyword .caseWord) (hsep : sep.kind = .separator)
      (hbranches : Builds found .branches t branches) (hlast : last.kind = .keyword .endCase)
      (hsep' : sep'.kind = .separator) :
      Builds found .statement (keyword :: case :: sep :: (t ++ [last, sep']))
        (.choose case branches none)
  | chooseOtherwise {keyword case sep other sep' last sep'' : Token} {t u : List Token}
      {branches : List (CaseBranch Stmt)} {otherwise : List Stmt}
      (hkeyword : keyword.kind = .keyword .doWord) (hcase : case.kind = .keyword .caseWord)
      (hsep : sep.kind = .separator) (hbranches : Builds found .branches t branches)
      (hother : other.kind = .keyword .otherwiseWord) (hsep' : sep'.kind = .separator)
      (hotherwise : Builds found .block u otherwise) (hlast : last.kind = .keyword .endCase)
      (hsep'' : sep''.kind = .separator) :
      Builds found .statement
        (keyword :: case :: sep :: (t ++ other :: sep' :: (u ++ [last, sep''])))
        (.choose case branches (some otherwise))
  | whileLoop {keyword loop sep last sep' : Token} {t u : List Token} {condition : Expr}
      {body : List Stmt} (hkeyword : keyword.kind = .keyword .doWord)
      (hloop : loop.kind = .keyword .whileWord) (hcondition : Derives .expression t condition)
      (hsep : sep.kind = .separator) (hbody : Builds found .block u body)
      (hlast : last.kind = .keyword .endDo) (hsep' : sep'.kind = .separator) :
      Builds found .statement (keyword :: loop :: (t ++ sep :: (u ++ [last, sep'])))
        (.whileLoop loop condition body)
  | doLoop {keyword sep loop sep' : Token} {t u : List Token} {body : List Stmt} {condition : Expr}
      (hkeyword : keyword.kind = .keyword .doWord) (hsep : sep.kind = .separator)
      (hbody : Builds found .plain t body) (hloop : loop.kind = .keyword .whileWord)
      (hcondition : Derives .expression u condition) (hsep' : sep'.kind = .separator) :
      Builds found .statement (keyword :: sep :: (t ++ loop :: (u ++ [sep'])))
        (.doLoop keyword body condition)
  | forLoop {keyword counter assign upTo sep last sep' : Token} {t u v w : List Token}
      {start finish : Expr} {step : Option Expr} {body : List Stmt}
      (hkeyword : keyword.kind = .keyword .forWord) (hcounter : counter.kind = .name)
      (hassign : assign.kind = .assign) (hstart : Derives .expression t start)
      (hupTo : upTo.kind = .keyword .toWord) (hfinish : Derives .expression u finish)
      (hstep : Steps v step) (hsep : sep.kind = .separator) (hbody : Builds found .block w body)
      (hlast : last.kind = .keyword .endFor) (hsep' : sep'.kind = .separator) :
      Builds found .statement
        (keyword :: counter :: assign :: (t ++ upTo :: (u ++ (v ++ sep :: (w ++ [last, sep'])))))
        (.forLoop keyword counter start finish step body)
  | defer {keyword sep last sep' : Token} {t : List Token} {body : List Stmt}
      (hkeyword : keyword.kind = .keyword .deferWord) (hsep : sep.kind = .separator)
      (hbody : Builds found .block t body) (hlast : last.kind = .keyword .endDefer)
      (hsep' : sep'.kind = .separator) :
      Builds found .statement (keyword :: sep :: (t ++ [last, sep'])) (.defer keyword body)
  | stated {t : List Token} {s : Stmt} (h : Builds found .statement t s) :
      Builds found .declaration t s
  | announced {t : List Token} {s : Stmt} (h : Announced t s) : Builds found .declaration t s
  | method {t : List Token} {f : FunctionDecl Stmt} (h : Builds found .function t f) :
      Builds found .declaration t (.function f)
  | module {keyword name sep last sep' : Token} {t : List Token} {body : List Stmt}
      (hkeyword : keyword.kind = .keyword .moduleWord) (hname : name.kind = .name)
      (hsep : sep.kind = .separator) (hbody : Builds found .block t body)
      (hlast : last.kind = .keyword .endModule) (hsep' : sep'.kind = .separator) :
      Builds found .declaration (keyword :: name :: sep :: (t ++ [last, sep']))
        (.module keyword name body)
  | classDef {keyword name sep last sep' : Token} {t u : List Token} {superclass : Option Token}
      {properties : List Property} {methods : List (FunctionDecl Stmt)}
      (hkeyword : keyword.kind = .keyword .classWord) (hname : name.kind = .name)
      (hsuperclass : AsName t superclass) (hsep : sep.kind = .separator)
      (hmembers : Builds found .members u (properties, methods))
      (hlast : last.kind = .keyword .endClass) (hsep' : sep'.kind = .separator) :
      Builds found .declaration (keyword :: name :: (t ++ sep :: (u ++ [last, sep'])))
        (.classDef ⟨keyword, name, superclass, properties, methods⟩)
  | function {keyword name sep last sep' : Token} {t u : List Token} {parameters : List Parameter}
      {statements : List Stmt} (hkeyword : keyword.kind = .keyword .functionWord)
      (hname : name.kind = .name) (hparameters : Parameters t parameters)
      (hsep : sep.kind = .separator) (hbody : Builds found .block u statements)
      (hlast : last.kind = .keyword .endFunc) (hsep' : sep'.kind = .separator) :
      Builds found .function (keyword :: name :: (t ++ sep :: (u ++ [last, sep'])))
        ⟨keyword, name, parameters, statements.filter (Read.deferred? · |>.isNone),
          statements.filterMap Read.deferred?⟩
  | blockEnd : Builds found .block [] []
  | blockSkip {sep : Token} {t : List Token} {statements : List Stmt}
      (hsep : sep.kind = .separator) (h : Builds found .block t statements) :
      Builds found .block (sep :: t) statements
  | blockNext {t u : List Token} {s : Stmt} {statements : List Stmt}
      (h : Builds found .declaration t s) (hrest : Builds found .block u statements) :
      Builds found .block (t ++ u) (s :: statements)
  | plainEnd : Builds found .plain [] []
  | plainSkip {sep : Token} {t : List Token} {statements : List Stmt}
      (hsep : sep.kind = .separator) (h : Builds found .plain t statements) :
      Builds found .plain (sep :: t) statements
  | plainNext {t u : List Token} {s : Stmt} {statements : List Stmt}
      (h : Builds found .statement t s) (hrest : Builds found .plain u statements) :
      Builds found .plain (t ++ u) (s :: statements)
  | branchesEnd : Builds found .branches [] []
  | branchesNext {case sep : Token} {t u v : List Token} {conditions : List Expr}
      {body : List Stmt} {branches : List (CaseBranch Stmt)}
      (hcase : case.kind = .keyword .caseWord)
      (hconditions : Listed (Derives .expression) t conditions) (hsep : sep.kind = .separator)
      (hbody : Builds found .block u body) (hrest : Builds found .branches v branches) :
      Builds found .branches (case :: (t ++ sep :: (u ++ v))) (⟨conditions, body⟩ :: branches)
  | membersEnd : Builds found .members [] ([], [])
  | membersSkip {sep : Token} {t : List Token} {properties : List Property}
      {methods : List (FunctionDecl Stmt)} (hsep : sep.kind = .separator)
      (h : Builds found .members t (properties, methods)) :
      Builds found .members (sep :: t) (properties, methods)
  | membersMethod {t u : List Token} {f : FunctionDecl Stmt} {properties : List Property}
      {methods : List (FunctionDecl Stmt)} (h : Builds found .function t f)
      (hrest : Builds found .members u (properties, methods)) :
      Builds found .members (t ++ u) (properties, f :: methods)
  | membersProperty {t u : List Token} {p : Property} {properties : List Property}
      {methods : List (FunctionDecl Stmt)} (h : Holds t p)
      (hrest : Builds found .members u (properties, methods)) :
      Builds found .members (t ++ u) (p :: properties, methods)

variable {kind : Kind} {token sep : Token} {t u v : List Token} {message : String}
  {stop : Kind → Bool} {statements : List Stmt} {s : Stmt}

section Heads

def commands : Kind → Bool
  | .question | .keyword .printWord | .keyword .returnWord | .keyword .ifWord | .keyword .doWord
  | .keyword .exitWord | .keyword .loopWord | .keyword .forWord | .keyword .importWord
  | .keyword .releaseWord | .keyword .deferWord => true
  | _ => false

def declares : Kind → Bool
  | .keyword .localWord | .keyword .publicWord | .keyword .constWord | .keyword .functionWord
  | .keyword .moduleWord | .keyword .classWord => true
  | _ => false

def startsBlock (kind : Kind) : Bool :=
  declares kind || commands kind || (Rank.operation .or).starts kind || kind == .separator

lemma starts_not_word (h : (Rank.operation .or).starts kind = true) :
    commands kind = false ∧ declares kind = false := by
  cases kind with
  | keyword word => cases word <;> simp_all [Rank.starts, startsPrimary, commands, declares]
  | _ => simp_all [Rank.starts, startsPrimary, commands, declares]

lemma commands_not_declares (h : commands kind = true) : declares kind = false := by
  cases kind with
  | keyword word => cases word <;> simp_all [commands, declares]
  | _ => rfl

variable {declaration : Reading → Option Stmt × Reading} {statement : Read Stmt}
  {load : Token → String → Read Stmt}

lemma statementForm_eq_none :
    Read.statementForm declaration statement load token = none ↔ commands token.kind = false := by
  unfold Read.statementForm commands
  split <;> simp_all

lemma declarationForm_eq_none :
    Read.declarationForm declaration token = none ↔ declares token.kind = false := by
  unfold Read.declarationForm declares
  split <;> simp_all

end Heads

section Completeness

variable {α β : Type}

/-- Whatever follows, a reader finds `a` in the tokens `t` and reports no failure. -/
def Finds (p : Read α) (t : List Token) (a : α) : Prop :=
  ∀ rest failures log, ∃ log', p ⟨t ++ rest, failures, log⟩ = (.ok a, ⟨rest, failures, log'⟩)

lemma Finds.bind {p : Read α} {f : α → Read β} {t u : List Token} {a : α} {b : β}
    (h : Finds p t a) (hf : Finds (f a) u b) : Finds (p >>= f) (t ++ u) b := by
  intro rest failures log
  obtain ⟨log', hp⟩ := h (u ++ rest) failures log
  obtain ⟨log'', hq⟩ := hf rest failures log'
  rw [List.append_assoc]
  exact ⟨log'', (read_bind_ok hp).trans hq⟩

lemma finds_pure (a : α) : Finds (pure a : Read α) [] a :=
  fun _ _ log => ⟨log, rfl⟩

variable {a : α} {b : β} {f : Option Token → Read β} {p : Read α}

lemma finds_lift {p : Parse α} (h : ∀ rest, p (t ++ rest) = (.ok a, rest)) :
    Finds (Read.lift p) t a := by
  intro rest failures log
  refine ⟨log, ?_⟩
  unfold Read.lift
  rw [h rest]

lemma finds_before {p : Parse α} {f : α → Read β} {D : List Token → α → Prop} {more : Kind → Bool}
    (h : Complete p D more) (ht : D t a) (hu : ∀ rest, Ends more (u ++ rest))
    (hf : Finds (f a) u b) : Finds (Read.lift p >>= f) (t ++ u) b := by
  intro rest failures log
  obtain ⟨log', hq⟩ := hf rest failures log
  rw [List.append_assoc]
  refine ⟨log', (read_bind_ok ?_).trans hq⟩
  unfold Read.lift
  rw [h t a (u ++ rest) ht (hu rest)]

lemma finds_expect {f : Token → Read β} (htoken : token.kind = kind) (hf : Finds (f token) u b) :
    Finds (Read.lift (Parse.expect kind message) >>= f) (token :: u) b :=
  @Finds.bind _ _ _ _ [token] u token b (finds_lift fun _ => expect_ok htoken) hf

lemma finds_some {kinds : Kind → Bool} (htoken : kinds token.kind = true)
    (hf : Finds (f (some token)) u b) :
    Finds (Read.lift (Parse.accept kinds) >>= f) (token :: u) b :=
  @Finds.bind _ _ _ _ [token] u (some token) b
    (finds_lift fun _ => accept_eq_some.mpr ⟨rfl, htoken⟩) hf

lemma finds_none {kinds : Kind → Bool} (hu : ∀ rest, Ends kinds (u ++ rest))
    (hf : Finds (f none) u b) : Finds (Read.lift (Parse.accept kinds) >>= f) u b := by
  intro rest failures log
  obtain ⟨log', hq⟩ := hf rest failures log
  refine ⟨log', (read_bind_ok ?_).trans hq⟩
  unfold Read.lift
  rw [accept_eq_none.mpr ⟨rfl, hu rest⟩]

lemma finds_word {word : Keyword} (htoken : token.kind = .keyword word)
    (hf : Finds (f (some token)) u b) : Finds (Read.lift (Parse.word word) >>= f) (token :: u) b :=
  finds_some (by simp [htoken]) hf

lemma finds_no_word {word : Keyword} (htoken : token.kind ≠ .keyword word)
    (hf : Finds (f none) (token :: u) b) :
    Finds (Read.lift (Parse.word word) >>= f) (token :: u) b :=
  finds_none (fun _ => by simp [Ends, htoken]) hf

lemma finds_look {next : Option Kind → Bool} {f : Bool → Read β} {answer : Bool}
    (h : ∀ rest, opens next (t ++ rest) = answer) (hf : Finds (f answer) t b) :
    Finds (Read.lift (Parse.opensBefore next) >>= f) t b := by
  intro rest failures log
  obtain ⟨log', hq⟩ := hf rest failures log
  refine ⟨log', (read_bind_ok ?_).trans hq⟩
  unfold Read.lift
  rw [opensBefore_eq, h rest]

lemma finds_end {f : Unit → Read β} (hsep : sep.kind = .separator) (hf : Finds (f ()) u b) :
    Finds (Read.lift (Parse.endOfStatement message) >>= f) (sep :: u) b :=
  @Finds.bind _ _ _ _ [sep] u () b (finds_lift fun _ => endOfStatement_ok hsep) hf

lemma finds_ended (hsep : sep.kind = .separator) (a : α) :
    Finds (Read.lift (Parse.endOfStatement message) >>= fun _ => pure a) [sep] a :=
  finds_end hsep (finds_pure a)

lemma finds_closed {message' : String} {last : Token} (hlast : last.kind = kind)
    (hsep : sep.kind = .separator) (a : α) :
    Finds (Read.lift (Parse.expect kind message) >>= fun _ =>
      Read.lift (Parse.endOfStatement message') >>= fun _ => pure a) [last, sep] a :=
  finds_expect hlast (finds_ended hsep a)

lemma finds_then {q : Read β} (hthen : Then u) (hsep : sep.kind = .separator)
    (hq : Finds q (sep :: v) b) :
    Finds (Read.lift (Parse.word .thenWord) >>= fun _ => q) (u ++ sep :: v) b := by
  cases hthen with
  | absent => exact finds_no_word (by simp [hsep]) hq
  | present hkind => exact finds_word hkind hq

lemma then_ends (hthen : Then u) (hsep : sep.kind = .separator) (rest : List Token) :
    Ends Precedence.or.continues (u ++ sep :: v ++ rest) := by
  cases hthen with
  | absent =>
    rw [List.nil_append, List.cons_append, Ends, hsep]
    rfl
  | present hkind =>
    rw [List.singleton_append, List.cons_append, Ends, hkind]
    rfl

variable {declaration : Reading → Option Stmt × Reading} {statement : Read Stmt}
  {load : Token → String → Read Stmt}

/-- A reader finds `a` in the tokens `t` where a token of some kinds follows. -/
def FindsUpTo (stop : Kind → Bool) (p : Read α) (t : List Token) (a : α) : Prop :=
  ∀ last rest failures log, stop last.kind = true → ∃ log',
    p ⟨t ++ last :: rest, failures, log⟩ = (.ok a, ⟨last :: rest, failures, log'⟩)

lemma FindsUpTo.bind {stop : Kind → Bool} {p : Read α} {f : α → Read β} {t u : List Token}
    {last : Token} {a : α} {b : β} (h : FindsUpTo stop p t a) (hlast : stop last.kind = true)
    (hf : Finds (f a) (last :: u) b) : Finds (p >>= f) (t ++ last :: u) b := by
  intro rest failures log
  obtain ⟨log', hp⟩ := h last (u ++ rest) failures log hlast
  obtain ⟨log'', hq⟩ := hf rest failures log'
  rw [List.append_assoc]
  exact ⟨log'', (read_bind_ok hp).trans hq⟩

lemma FindsUpTo.map (h : FindsUpTo stop p t a) (g : α → β) : FindsUpTo stop (g <$> p) t (g a) := by
  intro last rest failures log hlast
  obtain ⟨log', hp⟩ := h last rest failures log hlast
  exact ⟨log', read_bind_ok hp⟩

/-- Whatever follows, a block starts with the statements that are found in the tokens `t`. -/
def Fills (declaration : Reading → Option Stmt × Reading) (t : List Token)
    (statements : List Stmt) : Prop :=
  ∀ ends : Kind → Bool, (∀ kind, ends kind = true → startsBlock kind = false) →
    ∀ rest failures log, ∃ log', Read.block declaration ends ⟨t ++ rest, failures, log⟩ =
      (statements ++ (Read.block declaration ends ⟨rest, failures, log'⟩).1,
        (Read.block declaration ends ⟨rest, failures, log'⟩).2)

lemma Fills.upTo {words : List Keyword} (h : Fills declaration t statements)
    (hwords : ∀ word ∈ words, startsBlock (.keyword word) = false) :
    FindsUpTo (fun kind => words.any (kind == .keyword ·)) (Read.blockUntil declaration words) t
      statements := by
  intro last rest failures log hlast
  have hends (kind : Kind) (hkind : words.any (kind == .keyword ·) = true) :
      startsBlock kind = false := by
    obtain ⟨word, hword, hkind⟩ := List.any_eq_true.mp hkind
    rw [beq_iff_eq.mp hkind]
    exact hwords word hword
  obtain ⟨log', hblock⟩ := h _ hends (last :: rest) failures log
  have hstop : Read.block declaration (fun kind => words.any (kind == .keyword ·))
      ⟨last :: rest, failures, log'⟩ = ([], ⟨last :: rest, failures, log'⟩) := by
    rw [Read.block.eq_def]
    simp only [hlast, if_true]
  refine ⟨log', ?_⟩
  unfold Read.blockUntil
  rw [hblock, hstop, List.append_nil]

def endsBranches (kind : Kind) : Bool :=
  kind == .keyword .otherwiseWord || kind == .keyword .endCase

/-- What reading makes of the tokens of a part and of the rest behind them. -/
abbrev Constructs (declaration : Reading → Option Stmt × Reading) (statement : Read Stmt)
    (load : Token → String → Read Stmt) : (part : Part) → List Token → part.Tree → Prop
  | .statement, t, s =>
    (∃ first u, t = first :: u ∧
      (commands first.kind = true ∨ (Rank.operation .or).starts first.kind = true)) ∧
    Finds (Read.anyStatement declaration statement load) t s
  | .declaration, t, s =>
    (∃ first u, t = first :: u ∧ (declares first.kind = true ∨ commands first.kind = true ∨
      (Rank.operation .or).starts first.kind = true)) ∧
    Finds (Read.anyDeclaration declaration statement load) t s
  | .function, t, f => ∃ keyword u, t = keyword :: u ∧ keyword.kind = .keyword .functionWord ∧
    Finds (Read.function declaration keyword) u f
  | .block, t, statements => Fills declaration t statements
  | .plain, t, statements =>
    FindsUpTo (· == .keyword .whileWord) (Read.plainStatements statement) t statements
  | .branches, t, branches =>
    (∀ first ∈ t.head?, first.kind = .keyword .caseWord) ∧
    FindsUpTo endsBranches (Read.caseBranches declaration) t branches
  | .members, t, all =>
    FindsUpTo (· == .keyword .endClass) (Read.members declaration) t all

lemma statement_constructs {keyword : Token} (form : Read Stmt)
    (hkeyword : commands keyword.kind = true)
    (hform : Read.statementForm declaration statement load keyword = some form)
    (h : Finds form u s) : Constructs declaration statement load .statement (keyword :: u) s := by
  refine ⟨⟨keyword, u, rfl, .inl hkeyword⟩, fun rest failures log => ?_⟩
  simp only [Read.anyStatement, List.cons_append, hform]
  exact h rest failures log

lemma declaration_constructs {keyword : Token} (form : Read Stmt)
    (hkeyword : declares keyword.kind = true)
    (hform : Read.declarationForm declaration keyword = some form) (h : Finds form u s) :
    Constructs declaration statement load .declaration (keyword :: u) s := by
  refine ⟨⟨keyword, u, rfl, .inl hkeyword⟩, fun rest failures log => ?_⟩
  simp only [Read.anyDeclaration, List.cons_append, hform]
  exact h rest failures log

lemma wordless_assignAll {opening : Token} (hopening : opening.kind = .leftParen)
    (h : AssignedAll opening t s) : Finds Read.wordless (opening :: t) s := by
  have hopens (rest : List Token) : opens beforeAssign (opening :: t ++ rest) = true := by
    obtain ⟨htargets, hclosing, hassign, -, -⟩ := h
    have hphrased := listed_phrased (fun _ _ h => derives_phrased h.1) htargets
    simp only [List.cons_append, List.append_assoc]
    rw [opens_group hopening hphrased hclosing]
    simp [beforeAssign, hassign]
  exact finds_look hopens (finds_some (by simp [hopening])
    (finds_lift ((lined_assignAll opening).complete h)))

lemma evaluated_line (h : Evaluated t s) : ∃ v sep, t = v ++ [sep] ∧ sep.kind = .separator := by
  cases h with
  | alone _ hsep => exact ⟨_, _, rfl, hsep⟩
  | @assign operator sep t u _ _ _ _ _ hsep | @update operator sep t u _ _ _ _ _ hsep =>
    exact ⟨t ++ operator :: u, sep, by simp, hsep⟩

lemma evaluated_started (h : Evaluated t s) : Started t := by
  cases h with
  | alone h _ => exact (derives_started h).append _
  | assign htarget _ _ _ | update htarget _ _ _ => exact (derives_started htarget.1).append _

lemma wordless_evaluated (h : Evaluated t s) (hopens : opens beforeAssign t = false) :
    Finds Read.wordless t s := by
  have hlook (rest : List Token) : opens beforeAssign (t ++ rest) = false := by
    obtain ⟨v, sep, rfl, hsep⟩ := evaluated_line h
    rw [List.append_assoc, List.singleton_append, opens_line hsep]
    exact hopens
  exact finds_look hlook (finds_lift (lined_expressionStatement.complete h))

lemma anyStatement_wordless {first : Token} (hfirst : (Rank.operation .or).starts first.kind = true)
    (h : Finds Read.wordless (first :: u) s) :
    Finds (Read.anyStatement declaration statement load) (first :: u) s := by
  intro rest failures log
  obtain ⟨log', hp⟩ := h rest failures log
  refine ⟨log', ?_⟩
  simp only [Read.anyStatement, List.cons_append,
    statementForm_eq_none.mpr (starts_not_word hfirst).1]
  exact hp

/-- What `found` gives is what loading gives. -/
def Supplies (load : Token → String → Read Stmt) (found : String → Option Stmt) : Prop :=
  ∀ name s, found name = some s → ∀ token, Finds (load token name) [] s

lemma simple_finds {found : String → Option Stmt} (hfound : Supplies load found)
    (h : Simple found t s) : Constructs declaration statement load .statement t s := by
  cases h with
  | @print keyword t s hkeyword h =>
    have hform : Read.statementForm declaration statement load keyword =
        some (Read.lift (Parse.print keyword)) := by
      rcases hkeyword with hkind | hkind <;> simp only [Read.statementForm, hkind] <;> rfl
    refine statement_constructs _ ?_ hform (finds_lift ((lined_print keyword).complete h))
    rcases hkeyword with hkind | hkind <;> rw [hkind] <;> rfl
  | @giveBack keyword t s hkeyword h =>
    exact statement_constructs (Read.lift (Parse.giveBack keyword)) (hkeyword ▸ rfl)
      (by simp only [Read.statementForm, hkeyword]; rfl)
      (finds_lift ((lined_giveBack keyword).complete h))
  | @release keyword t s hkeyword h =>
    exact statement_constructs (Read.lift (Parse.release keyword)) (hkeyword ▸ rfl)
      (by simp only [Read.statementForm, hkeyword]; rfl)
      (finds_lift ((lined_release keyword).complete h))
  | @exit keyword sep hkeyword hsep =>
    exact statement_constructs (Read.control .exit keyword) (hkeyword ▸ rfl)
      (by simp only [Read.statementForm, hkeyword]) (finds_ended hsep _)
  | @loop keyword sep hkeyword hsep =>
    exact statement_constructs (Read.control .loop keyword) (hkeyword ▸ rfl)
      (by simp only [Read.statementForm, hkeyword]) (finds_ended hsep _)
  | @imported keyword name sep s hkeyword hname hsep hs =>
    exact statement_constructs (Read.importStatement load keyword) (hkeyword ▸ rfl)
      (by simp only [Read.statementForm, hkeyword])
      (finds_expect hname (finds_end hsep (hfound _ _ hs keyword)))
  | @assignAll opening t s hopening h =>
    have hfirst : (Rank.operation .or).starts opening.kind = true := hopening ▸ rfl
    exact ⟨⟨opening, t, rfl, .inr hfirst⟩,
      anyStatement_wordless hfirst (wordless_assignAll hopening h)⟩
  | @evaluated t s h hopens =>
    obtain ⟨first, u, rfl, hfirst⟩ := evaluated_started h
    exact ⟨⟨first, u, rfl, .inr hfirst⟩,
      anyStatement_wordless hfirst (wordless_evaluated h hopens)⟩

lemma ne_of_head {other : Kind} (h : commands kind = true ∨ (Rank.operation .or).starts kind = true)
    (hcommands : commands other = false) (hstarts : (Rank.operation .or).starts other = false) :
    kind ≠ other := by
  rintro rfl
  rcases h with h | h
  · simp [h] at hcommands
  · simp [h] at hstarts

lemma not_ends {ends : Kind → Bool} (hends : ∀ kind, ends kind = true → startsBlock kind = false)
    (hkind : startsBlock kind = true) : ends kind = false := by
  cases he : ends kind with
  | false => rfl
  | true => simp [hends kind he] at hkind

variable (h : Knot declaration statement load) {found : String → Option Stmt}
  (hfound : Supplies load found)

include h

lemma statement_finds (ht : Finds (Read.anyStatement declaration statement load) t s) :
    Finds statement t s := by
  intro rest failures log
  rw [h.statement_eq]
  exact ht rest failures log

lemma fills_skip (hsep : sep.kind = .separator) (ht : Fills declaration t statements) :
    Fills declaration (sep :: t) statements := by
  intro ends hends rest failures log
  have hsep' : ends sep.kind = false := not_ends hends (hsep ▸ rfl)
  have hnone : declaration ⟨sep :: (t ++ rest), failures, log⟩ =
      (none, ⟨t ++ rest, failures, log⟩) := by
    rw [h.declaration_eq, Read.recovering]
    simp [hsep]
  obtain ⟨log', hblock⟩ := ht ends hends rest failures log
  refine ⟨log', ?_⟩
  rw [List.cons_append, h.unguarded.block ends rfl, hsep', hnone]
  exact hblock

lemma fills_next (ht : Constructs declaration statement load .declaration t s)
    (hu : Fills declaration u statements) : Fills declaration (t ++ u) (s :: statements) := by
  intro ends hends rest failures log
  obtain ⟨⟨first, v, rfl, hfirst⟩, hfinds⟩ := ht
  have hends' : ends first.kind = false := by
    refine not_ends hends ?_
    simp only [startsBlock, Bool.or_eq_true]
    tauto
  have hsep : first.kind ≠ .separator := by
    intro hkind
    rw [hkind] at hfirst
    simp [declares, commands, Rank.starts, startsPrimary] at hfirst
  obtain ⟨log', hs⟩ := hfinds (u ++ rest) failures log
  have hsome : declaration ⟨first :: v ++ (u ++ rest), failures, log⟩ =
      (some s, ⟨u ++ rest, failures, log'⟩) := by
    rw [h.declaration_eq, Read.recovering]
    simp only [List.cons_append, hsep, if_false]
    rw [← List.cons_append, hs]
  obtain ⟨log'', hblock⟩ := hu ends hends rest failures log'
  refine ⟨log'', ?_⟩
  rw [List.append_assoc, List.cons_append, h.unguarded.block ends rfl, hends', ← List.cons_append,
    hsome]
  simp [hblock]

omit h in
lemma statement_declares (ht : Constructs declaration statement load .statement t s) :
    Constructs declaration statement load .declaration t s := by
  obtain ⟨⟨first, u, rfl, hfirst⟩, hfinds⟩ := ht
  have hnone : Read.declarationForm declaration first = none := by
    refine declarationForm_eq_none.mpr ?_
    rcases hfirst with hfirst | hfirst
    · exact commands_not_declares hfirst
    · exact (starts_not_word hfirst).2
  refine ⟨⟨first, u, rfl, .inr hfirst⟩, fun rest failures log => ?_⟩
  obtain ⟨log', hp⟩ := hfinds rest failures log
  refine ⟨log', ?_⟩
  simp only [Read.anyDeclaration, List.cons_append, hnone]
  exact hp

lemma plain_next (ht : Constructs declaration statement load .statement t s)
    (hu : FindsUpTo (· == .keyword .whileWord) (Read.plainStatements statement) u statements) :
    FindsUpTo (· == .keyword .whileWord) (Read.plainStatements statement) (t ++ u)
      (s :: statements) := by
  intro last rest failures log hlast
  obtain ⟨⟨first, v, rfl, hfirst⟩, hfinds⟩ := ht
  have hwhile : first.kind ≠ .keyword .whileWord := ne_of_head hfirst rfl rfl
  have hsep : first.kind ≠ .separator := ne_of_head hfirst rfl rfl
  obtain ⟨log', hs⟩ := statement_finds h hfinds (u ++ last :: rest) failures log
  obtain ⟨log'', hrest⟩ := hu last rest failures log' hlast
  refine ⟨log'', ?_⟩
  rw [List.append_assoc, List.cons_append, h.unguarded.plainStatements rfl, if_neg hwhile,
    if_neg hsep]
  exact (read_bind_ok hs).trans (read_bind_ok hrest)

omit h in
lemma not_case_of_endsBranches (hkind : endsBranches kind = true) : kind ≠ .keyword .caseWord := by
  rintro rfl
  exact Bool.noConfusion hkind

/-- A branch ends where the next one starts or where all of them end. -/
lemma branches_next {case : Token} {conditions : List Expr} {body : List Stmt}
    {branches : List (CaseBranch Stmt)} (hcase : case.kind = .keyword .caseWord)
    (hconditions : Listed (Derives .expression) t conditions) (hsep : sep.kind = .separator)
    (hbody : Fills declaration u body)
    (hrest : Constructs declaration statement load .branches v branches) :
    FindsUpTo endsBranches (Read.caseBranches declaration) (case :: (t ++ sep :: (u ++ v)))
      (⟨conditions, body⟩ :: branches) := by
  intro last rest failures log hlast
  obtain ⟨hhead, hbranches⟩ := hrest
  obtain ⟨next, after, hnext, hstop⟩ : ∃ next after, v ++ last :: rest = next :: after ∧
      [Keyword.caseWord, .otherwiseWord, .endCase].any (next.kind == .keyword ·) = true := by
    cases v with
    | nil => exact ⟨last, rest, rfl, by simp_all [endsBranches]⟩
    | cons first v => exact ⟨first, _, rfl, by simp [hhead first rfl]⟩
  have hends : Ends (fun kind => Precedence.or.continues kind || kind == .comma)
      (sep :: (u ++ next :: after)) := ends_at hsep rfl
  have hlist : Read.lift Parse.expressions ⟨t ++ sep :: (u ++ next :: after), failures, log⟩ =
      (.ok conditions, ⟨sep :: (u ++ next :: after), failures, log⟩) :=
    lift_eq_ok.mpr ⟨_, commaList_complete expression_complete rfl _ _ _ hconditions hends, rfl⟩
  obtain ⟨log', hblock⟩ := hbody.upTo (by decide) next after failures log hstop
  obtain ⟨log'', hothers⟩ := hbranches last rest failures log' hlast
  rw [hnext] at hothers
  have hfirst : Read.caseBranch declaration ⟨t ++ sep :: (u ++ next :: after), failures, log⟩ =
      (.ok ⟨conditions, body⟩, ⟨next :: after, failures, log'⟩) :=
    (read_bind_ok hlist).trans ((read_bind_ok (lift_eq_ok.mpr ⟨_, endOfStatement_ok hsep, rfl⟩)).trans
      (read_bind_ok hblock))
  refine ⟨log'', ?_⟩
  rw [h.unguarded.caseBranches (List.cons_append ..), if_pos hcase]
  simp only [List.append_assoc, List.cons_append, hnext]
  exact (read_bind_ok hfirst).trans (read_bind_ok hothers)

lemma members_method {f : FunctionDecl Stmt} {properties : List Property}
    {methods : List (FunctionDecl Stmt)}
    (hmethod : Constructs declaration statement load .function t f)
    (hrest : FindsUpTo (· == .keyword .endClass) (Read.members declaration) u
      (properties, methods)) :
    FindsUpTo (· == .keyword .endClass) (Read.members declaration) (t ++ u)
      (properties, f :: methods) := by
  intro last rest failures log hlast
  obtain ⟨keyword, v, rfl, hkeyword, hfinds⟩ := hmethod
  obtain ⟨log', hf⟩ := hfinds (u ++ last :: rest) failures log
  obtain ⟨log'', hall⟩ := hrest last rest failures log' hlast
  refine ⟨log'', ?_⟩
  rw [List.append_assoc, List.cons_append, h.unguarded.members rfl, if_neg (by simp [hkeyword]),
    if_neg (by simp [hkeyword]), if_pos hkeyword]
  exact (read_bind_ok hf).trans (read_bind_ok hall)

lemma members_property {p : Property} {properties : List Property}
    {methods : List (FunctionDecl Stmt)} (hproperty : Holds t p)
    (hrest : FindsUpTo (· == .keyword .endClass) (Read.members declaration) u
      (properties, methods)) :
    FindsUpTo (· == .keyword .endClass) (Read.members declaration) (t ++ u)
      (p :: properties, methods) := by
  intro last rest failures log hlast
  obtain ⟨log', hp⟩ := finds_lift (lined_property.complete hproperty) (u ++ last :: rest) failures log
  obtain ⟨log'', hall⟩ := hrest last rest failures log' hlast
  refine ⟨log'', ?_⟩
  obtain ⟨hname, -, -, -⟩ := hproperty
  rw [List.append_assoc, List.cons_append, h.unguarded.members rfl, if_neg (by simp [hname]),
    if_neg (by simp [hname]), if_neg (by simp [hname])]
  exact (read_bind_ok hp).trans (read_bind_ok hall)

omit h in
lemma loop_end
    (hp : ∀ last rest failures log, stop last.kind = true →
      p ⟨last :: rest, failures, log⟩ = (.ok a, ⟨last :: rest, failures, log⟩)) :
    FindsUpTo stop p [] a :=
  fun last rest failures log hlast => ⟨log, hp last rest failures log hlast⟩

omit h in
lemma loop_skip (hp : ∀ rest failures log, p ⟨sep :: rest, failures, log⟩ = p ⟨rest, failures, log⟩)
    (ht : FindsUpTo stop p t a) : FindsUpTo stop p (sep :: t) a := by
  intro last rest failures log hlast
  rw [List.cons_append, hp]
  exact ht last rest failures log hlast

include hfound

lemma builds_constructs {part : Part} {tree : part.Tree} (hbuilds : Builds found part t tree) :
    Constructs declaration statement load part t tree := by
  induction hbuilds with
  | simple hsimple => exact simple_finds hfound hsimple
  | @branch keyword sep last sep' t u v condition consequence hkeyword hcondition hthen hsep _ hlast
      hsep' ih =>
    refine statement_constructs (Read.branch declaration keyword) (hkeyword ▸ rfl)
      (by simp only [Read.statementForm, hkeyword]) ?_
    refine finds_before expression_complete hcondition (then_ends hthen hsep) ?_
    refine finds_then hthen hsep (finds_end hsep ?_)
    refine (ih.upTo (by decide)).bind (by simp [hlast]) ?_
    exact finds_no_word (by simp [hlast]) (finds_closed hlast hsep' _)
  | @branchElse keyword sep other sep' last sep'' t u v w condition consequence alternative hkeyword
      hcondition hthen hsep _ hother hsep' _ hlast hsep'' ih ih' =>
    refine statement_constructs (Read.branch declaration keyword) (hkeyword ▸ rfl)
      (by simp only [Read.statementForm, hkeyword]) ?_
    refine finds_before expression_complete hcondition (then_ends hthen hsep) ?_
    refine finds_then hthen hsep (finds_end hsep ?_)
    refine (ih.upTo (by decide)).bind (by simp [hother]) ?_
    refine finds_word hother (finds_end hsep' ?_)
    exact (ih'.upTo (by decide)).bind (by simp [hlast]) (finds_closed hlast hsep'' _)
  | @choose keyword case sep last sep' t branches hkeyword hcase hsep _ hlast hsep' ih =>
    refine statement_constructs (Read.doStatement declaration statement keyword) (hkeyword ▸ rfl)
      (by simp only [Read.statementForm, hkeyword]) ?_
    refine finds_word hcase (finds_end hsep ?_)
    refine FindsUpTo.bind ih.2 (by simp [hlast, endsBranches]) ?_
    exact finds_no_word (by simp [hlast]) (finds_closed hlast hsep' _)
  | @chooseOtherwise keyword case sep other sep' last sep'' t u branches otherwise hkeyword hcase hsep
      _ hother hsep' _ hlast hsep'' ih ih' =>
    refine statement_constructs (Read.doStatement declaration statement keyword) (hkeyword ▸ rfl)
      (by simp only [Read.statementForm, hkeyword]) ?_
    refine finds_word hcase (finds_end hsep ?_)
    refine FindsUpTo.bind ih.2 (by simp [hother, endsBranches]) ?_
    refine finds_word hother (finds_end hsep' ?_)
    exact ((ih'.upTo (by decide)).map some).bind (by simp [hlast]) (finds_closed hlast hsep'' _)
  | @whileLoop keyword loop sep last sep' t u condition body hkeyword hloop hcondition hsep _ hlast
      hsep' ih =>
    refine statement_constructs (Read.doStatement declaration statement keyword) (hkeyword ▸ rfl)
      (by simp only [Read.statementForm, hkeyword]) ?_
    refine finds_no_word (by simp [hloop]) (finds_word hloop ?_)
    refine finds_before expression_complete hcondition (fun _ => ends_at hsep rfl) (finds_end hsep ?_)
    exact (ih.upTo (by decide)).bind (by simp [hlast]) (finds_closed hlast hsep' _)
  | @doLoop keyword sep loop sep' t u body condition hkeyword hsep _ hloop hcondition hsep' ih =>
    refine statement_constructs (Read.doStatement declaration statement keyword) (hkeyword ▸ rfl)
      (by simp only [Read.statementForm, hkeyword]) ?_
    refine finds_no_word (by simp [hsep]) (finds_no_word (by simp [hsep]) ?_)
    refine finds_end hsep (FindsUpTo.bind ih (by simp [hloop]) (finds_expect hloop ?_))
    exact finds_before expression_complete hcondition (fun _ => ends_at hsep' rfl)
      (finds_ended hsep' _)
  | @forLoop keyword counter assign upTo sep last sep' t u v w start finish step body hkeyword hcounter
      hassign hstart hupTo hfinish hstep hsep _ hlast hsep' ih =>
    refine statement_constructs (Read.forLoop declaration keyword) (hkeyword ▸ rfl)
      (by simp only [Read.statementForm, hkeyword]) ?_
    refine finds_expect hcounter (finds_expect hassign ?_)
    refine finds_before expression_complete hstart (fun _ => ends_at hupTo rfl)
      (finds_expect hupTo ?_)
    cases hstep with
    | absent =>
      refine finds_before expression_complete hfinish (fun _ => ends_at hsep rfl) ?_
      refine finds_no_word (by simp [hsep]) (finds_end hsep ?_)
      exact (ih.upTo (by decide)).bind (by simp [hlast]) (finds_closed hlast hsep' _)
    | present hkind hvalue =>
      refine finds_before expression_complete hfinish (fun _ => ends_at hkind rfl) ?_
      refine finds_word hkind ?_
      refine finds_before expression_complete hvalue (fun _ => ends_at hsep rfl) (finds_end hsep ?_)
      exact (ih.upTo (by decide)).bind (by simp [hlast]) (finds_closed hlast hsep' _)
  | @defer keyword sep last sep' t body hkeyword hsep _ hlast hsep' ih =>
    refine statement_constructs (Read.defer declaration keyword) (hkeyword ▸ rfl)
      (by simp only [Read.statementForm, hkeyword]) (finds_end hsep ?_)
    exact (ih.upTo (by decide)).bind (by simp [hlast]) (finds_closed hlast hsep' _)
  | stated _ ih => exact statement_declares ih
  | @announced t s hannounced =>
    cases hannounced with
    | @declared keyword extent t s hkeyword hdeclared =>
      refine declaration_constructs (Read.lift (Parse.declare keyword extent)) ?_ ?_
        (finds_lift ((lined_declare keyword extent).complete hdeclared))
      · cases extent <;> rw [hkeyword] <;> rfl
      · cases extent <;> simp only [Read.declarationForm, hkeyword, extentWord] <;> rfl
    | @constant keyword t s hkeyword hconstant =>
      exact declaration_constructs (Read.lift (Parse.const keyword)) (hkeyword ▸ rfl)
        (by simp only [Read.declarationForm, hkeyword]; rfl)
        (finds_lift ((lined_const keyword).complete hconstant))
  | method _ ih =>
    obtain ⟨keyword, u, rfl, hkeyword, hfunction⟩ := ih
    refine declaration_constructs (.function <$> Read.function declaration keyword) (hkeyword ▸ rfl)
      (by simp only [Read.declarationForm, hkeyword]) ?_
    intro rest failures log
    obtain ⟨log', hp⟩ := hfunction rest failures log
    exact ⟨log', read_bind_ok hp⟩
  | @module keyword name sep last sep' t body hkeyword hname hsep _ hlast hsep' ih =>
    refine declaration_constructs (Read.module declaration keyword) (hkeyword ▸ rfl)
      (by simp only [Read.declarationForm, hkeyword]) (finds_expect hname (finds_end hsep ?_))
    exact (ih.upTo (by decide)).bind (by simp [hlast]) (finds_closed hlast hsep' _)
  | @classDef keyword name sep last sep' t u superclass properties methods hkeyword hname hsuperclass
      hsep _ hlast hsep' ih =>
    refine declaration_constructs (Read.classDef declaration keyword) (hkeyword ▸ rfl)
      (by simp only [Read.declarationForm, hkeyword]) (finds_expect hname ?_)
    refine finds_before (asName_complete _) hsuperclass (fun _ => ends_at hsep rfl) ?_
    refine finds_end hsep (FindsUpTo.bind ih (by simp [hlast]) ?_)
    exact finds_closed hlast hsep' _
  | @function keyword name sep last sep' t u parameters statements hkeyword hname hparameters hsep _
      hlast hsep' ih =>
    refine ⟨keyword, _, rfl, hkeyword, finds_expect hname ?_⟩
    refine finds_before parameters_complete hparameters (fun _ => ends_at hsep rfl) ?_
    refine finds_end hsep ((ih.upTo (by decide)).bind (by simp [hlast]) ?_)
    exact finds_closed hlast hsep' _
  | blockEnd => exact fun _ _ rest failures log => ⟨log, rfl⟩
  | blockSkip hsep _ ih => exact fills_skip h hsep ih
  | blockNext _ _ ih ihrest => exact fills_next h ih ihrest
  | plainEnd =>
    refine loop_end fun last rest failures log hlast => ?_
    rw [h.unguarded.plainStatements rfl, if_pos (by simpa using hlast)]
  | plainSkip hsep _ ih =>
    refine loop_skip (fun rest failures log => ?_) ih
    rw [h.unguarded.plainStatements rfl, if_neg (by simp [hsep]), if_pos hsep]
  | plainNext _ _ ih ihrest => exact plain_next h ih ihrest
  | branchesEnd =>
    refine ⟨by simp, loop_end fun last rest failures log hlast => ?_⟩
    rw [h.unguarded.caseBranches rfl, if_neg (not_case_of_endsBranches hlast)]
  | branchesNext hcase hconditions hsep _ _ ih ihrest =>
    exact ⟨by simpa using hcase, branches_next h hcase hconditions hsep ih ihrest⟩
  | membersEnd =>
    refine loop_end fun last rest failures log hlast => ?_
    rw [h.unguarded.members rfl, if_pos (by simpa using hlast)]
  | membersSkip hsep _ ih =>
    refine loop_skip (fun rest failures log => ?_) ih
    rw [h.unguarded.members rfl, if_neg (by simp [hsep]), if_pos hsep]
  | membersMethod _ _ ih ihrest => exact members_method h ih ihrest
  | membersProperty hproperty _ ihrest => exact members_property h hproperty ihrest

lemma block_of_builds (hbuilds : Builds found .block t statements) (failures : List Failure)
    (log : List Record) :
    ∃ log', Read.block declaration (fun _ => false) ⟨t, failures, log⟩ =
      (statements, ⟨[], failures, log'⟩) := by
  have hfills : Fills declaration t statements := builds_constructs h hfound hbuilds
  obtain ⟨log', hblock⟩ := hfills (fun _ => false) (by simp) [] failures log
  have hend : Read.block declaration (fun _ => false) ⟨[], failures, log'⟩ =
      ([], ⟨[], failures, log'⟩) := by
    rw [Read.block.eq_def]
  rw [List.append_nil, hend] at hblock
  exact ⟨log', by simpa using hblock⟩

omit h in
/-- A text from whose tokens the grammar derives statements is read as these statements. -/
lemma unit_of_builds (hload : Loads load) {scanned : Scan} {statements : List Stmt}
    (hbuilds : Builds found .block scanned.tokens statements) :
    (SourceUnit.ofScan load scanned).statements = statements ∧
      (SourceUnit.ofScan load scanned).errors = scanned.errors.map SyntaxError.ofScan := by
  have hprogram (log : List Record) :
      (Read.program load ⟨scanned.tokens, [], log⟩).1 = statements ∧
        (Read.program load ⟨scanned.tokens, [], log⟩).2.failures = [] := by
    obtain ⟨log', hblock⟩ := block_of_builds (knot hload) hfound hbuilds [] log
    exact ⟨congrArg Prod.fst hblock, congrArg (·.2.failures) hblock⟩
  simp [SourceUnit.ofScan, hprogram]

end Completeness

end XBase.Proofs
