import XBase.Proofs.Inlining
import XBase.Proofs.Nodes

/-!
# Programs in order

Every good text reads as a program in order. The rules of the scanner give each kind of token its
categories and its literal, and the grammar builds each node from tokens of the kinds that it asks
for. An imported text is a good text itself, so the modules that it gives are in order too.
-/

namespace XBase

/-- Whether tokens of a kind may have a category and a literal. -/
def Kind.admits : Kind → Category → Option Literal → Bool
  | .not, category, _ => category == .bang
  | .term, category, _ => category == .plus || category == .minus
  | .factor, category, _ => category == .times || category == .over
  | .relational, category, _ =>
    category == .less || category == .lessEq || category == .greater || category == .greaterEq
  | .equality, category, _ => category == .equal || category == .notEqual
  | .and, category, _ => category == .and
  | .or, category, _ => category == .or
  | .compoundAssign, category, _ => category.isArithmetic
  | .number, _, literal | .trueWord, _, literal | .falseWord, _, literal
  | .nullWord, _, literal => literal.isSome
  | .text, _, literal => literal.any Literal.isText
  | _, _, _ => true

/-- Whether a token has a category and a literal of its kind. -/
def Token.inOrder (token : Token) : Bool :=
  token.kind.admits token.category token.literal

namespace Proofs

open SourceUnit (loader loaded)

section Tokens

variable {p : Char → Bool} {cs : List Char} {n : Nat}

lemma take_one (h : Pattern.one p cs = some n) : ∃ c, p c = true ∧ cs.take n = [c] := by
  cases cs with
  | nil => cases h
  | cons c cs =>
    simp only [Pattern.one, Option.ite_none_right_eq_some] at h
    obtain ⟨hc, ⟨⟩⟩ := h
    exact ⟨c, hc, rfl⟩

lemma take_withEquals (h : Pattern.withEquals p cs = some n) :
    ∃ c, p c = true ∧ cs.take n = [c, '='] := by
  unfold Pattern.withEquals at h
  split at h
  · next c cs =>
    simp only [Option.ite_none_right_eq_some] at h
    obtain ⟨hc, ⟨⟩⟩ := h
    exact ⟨c, hc, rfl⟩
  · cases h

lemma take_comparison (h : Pattern.comparison cs = some n) :
    ∃ c, (c == '<' || c == '>') = true ∧ (cs.take n = [c] ∨ cs.take n = [c, '=']) := by
  cases cs with
  | nil => cases h
  | cons c cs =>
    simp only [Pattern.comparison, Option.ite_none_right_eq_some] at h
    obtain ⟨hc, h⟩ := h
    refine ⟨c, hc, ?_⟩
    cases cs with
    | nil =>
      cases h
      exact .inl rfl
    | cons d cs =>
      by_cases hd : d = '='
      · subst hd
        cases h
        exact .inr rfl
      · simp only [List.head?_cons, Option.some.injEq, hd, if_false] at h
        cases h
        exact .inl rfl

/-- Whether a rule gives its tokens what their kind admits. -/
def Gives (rule : Rule) : Prop :=
  match rule.action with
  | .operator kind =>
    ∀ cs n, rule.pattern cs = some n → kind.admits (.ofOperator (.ofList (cs.take n))) none = true
  | .token kind category literal => kind.admits category literal = true
  | _ => True

lemma gives_one {kind : Kind} (h : ∀ c, p c = true → kind.admits (.ofOperator (.ofList [c])) none) :
    Gives ⟨.one p, .operator kind⟩ := by
  intro cs n hmatch
  obtain ⟨c, hc, htake⟩ := take_one hmatch
  rw [htake]
  exact h c hc

lemma gives_withEquals {kind : Kind}
    (h : ∀ c, p c = true → kind.admits (.ofOperator (.ofList [c, '='])) none) :
    Gives ⟨.withEquals p, .operator kind⟩ := by
  intro cs n hmatch
  obtain ⟨c, hc, htake⟩ := take_withEquals hmatch
  rw [htake]
  exact h c hc

lemma gives_comparison : Gives ⟨.comparison, .operator .relational⟩ := by
  intro cs n hmatch
  obtain ⟨c, hc, htake⟩ := take_comparison hmatch
  simp only [Bool.or_eq_true, beq_iff_eq] at hc
  rcases hc with rfl | rfl <;> rcases htake with htake | htake <;> rw [htake] <;> rfl

lemma gives_leading : ∀ rule ∈ Rule.leading, Gives rule := by
  have hequality : Gives ⟨.withEquals fun c => c == '=' || c == '!', .operator .equality⟩ := by
    refine gives_withEquals fun c hc => ?_
    simp only [Bool.or_eq_true, beq_iff_eq] at hc
    rcases hc with rfl | rfl <;> rfl
  have hnot : Gives ⟨.one (· == '!'), .operator .not⟩ := by
    refine gives_one fun c hc => ?_
    rw [beq_iff_eq] at hc
    subst hc
    rfl
  simp only [Rule.leading, List.forall_mem_cons, List.not_mem_nil, false_imp_iff, implies_true]
  exact ⟨trivial, trivial, trivial, trivial, trivial, trivial, trivial, trivial, trivial, trivial,
    gives_comparison, hequality, rfl, rfl, hnot, trivial⟩

lemma gives_trailing : ∀ rule ∈ Rule.trailing, Gives rule := by
  have hassign : Gives ⟨.one (· == '='), .operator .assign⟩ := fun _ _ _ => rfl
  have hcompound : Gives ⟨.withEquals fun c => c == '+' || c == '-' || c == '*' || c == '/',
      .operator .compoundAssign⟩ := by
    refine gives_withEquals fun c hc => ?_
    simp only [Bool.or_eq_true, beq_iff_eq] at hc
    rcases hc with ((rfl | rfl) | rfl) | rfl <;> rfl
  have hterm : Gives ⟨.one fun c => c == '+' || c == '-', .operator .term⟩ := by
    refine gives_one fun c hc => ?_
    simp only [Bool.or_eq_true, beq_iff_eq] at hc
    rcases hc with rfl | rfl <;> rfl
  have hfactor : Gives ⟨.one fun c => c == '*' || c == '/', .operator .factor⟩ := by
    refine gives_one fun c hc => ?_
    simp only [Bool.or_eq_true, beq_iff_eq] at hc
    rcases hc with rfl | rfl <;> rfl
  simp only [Rule.trailing, List.forall_mem_cons, List.not_mem_nil, false_imp_iff, implies_true]
  exact ⟨hassign, hcompound, hterm, hfactor, rfl, rfl, rfl, rfl, rfl, rfl, rfl, rfl, rfl, rfl,
    trivial⟩

lemma gives_constants : ∀ rule ∈ Rule.constants, Gives rule := by
  simp only [Rule.constants, List.forall_mem_cons, List.not_mem_nil, false_imp_iff, implies_true]
  exact ⟨rfl, rfl, rfl, trivial⟩

lemma gives_table : ∀ rule ∈ Rule.table, Gives rule :=
  table_cases gives_leading (fun _ _ _ _ => rfl) gives_constants gives_trailing

def Genuine (t : List Token) : Prop :=
  ∀ token ∈ t, token.inOrder = true

lemma genuine_cons {token : Token} {t : List Token} :
    Genuine (token :: t) ↔ token.inOrder = true ∧ Genuine t :=
  List.forall_mem_cons

lemma genuine_append {t u : List Token} : Genuine (t ++ u) ↔ Genuine t ∧ Genuine u :=
  List.forall_mem_append

/-- Every token of every text is in order. -/
lemma scan_genuine (text : String) : Genuine (scan text).tokens := by
  intro token htoken
  obtain ⟨cs, ⟨pattern, action⟩, n, afterToken, p, hfirst, hread⟩ := read_of_scan htoken
  obtain ⟨hrule, hmatch⟩ := match_of_first hfirst
  have hgives := gives_table _ hrule
  cases action with
  | skip => cases hread
  | separator =>
    cases afterToken with
    | false => cases hread
    | true => cases hread; rfl
  | number =>
    simp only [Piece.read] at hread
    split at hread
    · cases hread
      rfl
    · cases hread
  | quoted => cases hread; rfl
  | raw => cases hread; rfl
  | operator kind =>
    cases hread
    exact hgives cs n hmatch
  | token kind category literal =>
    cases hread
    exact hgives

end Tokens

section Expressions

abbrev InOrder (nodes : List Node) : Prop :=
  All (fun node => node.inOrder = true) nodes

def Phrase.nodes : (phrase : Phrase) → phrase.Tree → List Node
  | .expr _, e => e.nodes
  | .argument, ⟨_, value⟩ => value.nodes
  | .arguments, items => Expr.argumentNodes items
  | .values, items => Expr.allNodes items

lemma isSome_of_literal {token : Token} (h : token.inOrder = true)
    (hkind : token.kind = .number ∨ token.kind = .text ∨ token.kind = .trueWord ∨
      token.kind = .falseWord ∨ token.kind = .nullWord) : token.literal.isSome = true := by
  rcases hkind with hkind | hkind | hkind | hkind | hkind <;> rw [Token.inOrder, hkind] at h
  case inr.inl =>
    cases hliteral : token.literal with
    | none => rw [hliteral] at h; cases h
    | some literal => rfl
  all_goals exact h

lemma isUnary_of_kind {token : Token} (h : token.inOrder = true)
    (hkind : token.kind = .not ∨ token.kind = .term) :
    (token.category == .bang || token.category == .plus || token.category == .minus) = true := by
  rcases hkind with hkind | hkind <;> rw [Token.inOrder, hkind] at h <;>
    generalize token.category = category at h ⊢ <;> cases category <;> first | rfl | cases h

lemma join_inOrder {level : Precedence} {left right : Expr} {operator : Token}
    (h : operator.inOrder = true) (hkind : operator.kind = level.kind) (hleft : InOrder left.nodes)
    (hright : InOrder right.nodes) : InOrder (level.join left operator right).nodes := by
  have hnode : (level.join left operator right).inOrder = true := by
    rw [Token.inOrder, hkind] at h
    cases level <;> simp only [Precedence.join, Expr.inOrder] <;>
      generalize operator.category = category at h ⊢ <;> cases category <;> first | rfl | cases h
  cases level <;> exact all_cons.mpr ⟨hnode, all_append.mpr ⟨hleft, hright⟩⟩

lemma derives_inOrder {phrase : Phrase} {t : List Token} {tree : phrase.Tree}
    (h : Derives phrase t tree) (ht : Genuine t) :
    InOrder (phrase.nodes tree) := by
  induction h with
  | operand _ ih => exact ih ht
  | operation _ hoperator _ ih ih' =>
    simp only [genuine_append, genuine_cons] at ht
    exact join_inOrder ht.2.1 hoperator (ih ht.1) (ih' ht.2.2)
  | signed hoperator _ ih =>
    simp only [genuine_cons] at ht
    exact all_cons.mpr ⟨isUnary_of_kind ht.1 hoperator, ih ht.2⟩
  | unsigned _ ih => exact ih ht
  | alone _ ih => exact ih ht
  | member _ hdot hproperty ih =>
    simp only [genuine_append] at ht
    exact all_cons.mpr ⟨beq_iff_eq.mpr hproperty, ih ht.1⟩
  | index _ hopening _ hclosing ih ihkey =>
    simp only [genuine_append, genuine_cons] at ht
    obtain ⟨hobject, -, hkey, -⟩ := ht
    exact all_cons.mpr ⟨rfl, all_append.mpr ⟨ih hobject, ihkey hkey⟩⟩
  | call _ hopening hclosing ih =>
    simp only [genuine_append] at ht
    exact all_cons.mpr ⟨rfl, all_append.mpr ⟨ih ht.1, all_nil⟩⟩
  | callWith _ hopening _ hclosing ih ihvalues =>
    simp only [genuine_append, genuine_cons] at ht
    obtain ⟨hcallee, -, hvalues, -⟩ := ht
    exact all_cons.mpr ⟨rfl, all_append.mpr ⟨ih hcallee, ihvalues hvalues⟩⟩
  | literal hkind =>
    exact all_cons.mpr ⟨isSome_of_literal (genuine_cons.mp ht).1 hkind, all_nil⟩
  | name | this | substitution => exact all_cons.mpr ⟨rfl, all_nil⟩
  | create hkeyword hopening hprototype _ hclosing ih =>
    simp only [genuine_append, genuine_cons] at ht
    obtain ⟨-, -, hliteral, ht, -⟩ := ht
    rw [Token.inOrder, hprototype] at hliteral
    exact all_cons.mpr ⟨hliteral, ih ht⟩
  | grouped hopening _ hclosing ih =>
    simp only [genuine_append, genuine_cons] at ht
    exact ih ht.2.1
  | positional _ ih => exact ih ht
  | labelled hlabel hcolon _ ih =>
    simp only [genuine_cons] at ht
    exact ih ht.2.2
  | lastArgument _ ih => exact all_append.mpr ⟨ih ht, all_nil⟩
  | moreArguments _ hcomma _ ih ihrest =>
    simp only [genuine_append, genuine_cons] at ht
    exact all_append.mpr ⟨ih ht.1, ihrest ht.2.2⟩
  | noValues => exact all_nil
  | moreValues hcomma _ _ ih ihrest =>
    simp only [genuine_append, genuine_cons] at ht
    exact all_append.mpr ⟨ih ht.2.1, ihrest ht.2.2⟩

end Expressions

section Lines

variable {α : Type} {t : List Token} {s : Stmt} {keyword : Token}

lemma listed_inOrder {D : List Token → α → Prop} {one : α → List Node} {all : List α → List Node}
    {items : List α} (hlist : Listed D t items) (ht : Genuine t)
    (h : ∀ t a, D t a → Genuine t → InOrder (one a)) (hnil : all [] = [])
    (hcons : ∀ a items, all (a :: items) = one a ++ all items) : InOrder (all items) := by
  obtain ⟨ha, hrest⟩ := hlist
  obtain ⟨hfirst, hlast⟩ := genuine_append.mp ht
  rw [hcons]
  refine all_append.mpr ⟨h _ _ ha hfirst, ?_⟩
  clear ha ht hfirst
  induction hrest with
  | nil => rw [hnil]; exact all_nil
  | cons hcomma hitem _ ih =>
    simp only [genuine_append, genuine_cons] at hlast
    rw [hcons]
    exact all_append.mpr ⟨h _ _ hitem hlast.2.1, ih hlast.2.2⟩

lemma values_inOrder {values : List Expr} (h : Listed (Derives .expression) t values)
    (ht : Genuine t) : InOrder (Expr.allNodes values) :=
  listed_inOrder h ht (fun _ _ => derives_inOrder) rfl fun _ _ => rfl

lemma target_inOrder {target : Expr} (h : Target t target) (ht : Genuine t) :
    InOrder target.targetNodes :=
  all_cons.mpr ⟨h.2, derives_inOrder h.1 ht⟩

lemma conditional_inOrder {e : Expr} (h : Conditional t e) (ht : Genuine t) :
    InOrder e.nodes := by
  cases h with
  | always h => exact derives_inOrder h ht
  | when h hkeyword hcondition =>
    simp only [genuine_append, genuine_cons] at ht
    exact all_cons.mpr ⟨rfl, all_append.mpr ⟨derives_inOrder hcondition ht.2.2,
      all_append.mpr ⟨derives_inOrder h ht.1, all_nil⟩⟩⟩
  | choice h hkeyword hcondition hother halternative =>
    simp only [genuine_append, genuine_cons] at ht
    obtain ⟨ht, -, hu, -, hv⟩ := ht
    exact all_cons.mpr ⟨rfl, all_append.mpr ⟨derives_inOrder hcondition hu,
      all_append.mpr ⟨derives_inOrder h ht, derives_inOrder halternative hv⟩⟩⟩

lemma initial_inOrder {E : List Token → Expr → Prop}
    (h : ∀ t e, E t e → Genuine t → InOrder e.nodes) {value : Option Expr}
    (hinitial : Initial E t value) (ht : Genuine t) : InOrder (Expr.optionNodes value) := by
  cases hinitial with
  | absent => exact all_nil
  | present hassign he => exact h _ _ he (genuine_cons.mp ht).2

lemma declares_inOrder {declarator : Declarator} (h : Declares t declarator) (ht : Genuine t) :
    InOrder (Expr.optionNodes declarator.initializer) := by
  obtain ⟨hname, htype, hvalue⟩ := h
  simp only [genuine_append, genuine_cons] at ht
  exact initial_inOrder (fun _ _ => conditional_inOrder) hvalue ht.2.2

lemma binds_inOrder {parameter : Parameter} (h : Binds t parameter) (ht : Genuine t) :
    InOrder (Expr.optionNodes parameter.default) := by
  obtain ⟨hname, hother, hvalue⟩ := h
  simp only [genuine_append, genuine_cons] at ht
  exact initial_inOrder (fun _ _ => derives_inOrder) hvalue ht.2.2

lemma parameters_inOrder {all : List Parameter} (h : Parameters t all) (ht : Genuine t) :
    InOrder (Parameter.allNodes all) := by
  cases h with
  | absent => exact all_nil
  | none hopening hclosing => exact all_nil
  | some hopening hall hclosing =>
    simp only [genuine_append, genuine_cons] at ht
    exact listed_inOrder hall ht.2.1 (fun _ _ => binds_inOrder) rfl fun _ _ => rfl

lemma printed_inOrder (h : Printed keyword t s) (ht : Genuine t) : InOrder s.nodes := by
  cases h with
  | nothing | empty => exact all_cons.mpr ⟨rfl, all_nil⟩
  | group hopening hvalues hclosing hsep =>
    simp only [genuine_append, genuine_cons] at ht
    exact all_cons.mpr ⟨rfl, values_inOrder hvalues ht.2.1⟩
  | list hvalues hsep _ =>
    exact all_cons.mpr ⟨rfl, values_inOrder hvalues (genuine_append.mp ht).1⟩

lemma givenBack_inOrder (h : GivenBack keyword t s) (ht : Genuine t) : InOrder s.nodes := by
  cases h with
  | nothing hsep => exact all_cons.mpr ⟨rfl, all_nil⟩
  | list hvalues hsep =>
    exact all_cons.mpr ⟨rfl, listed_inOrder hvalues (genuine_append.mp ht).1
      (fun _ _ => conditional_inOrder) rfl fun _ _ => rfl⟩

lemma declared_inOrder {extent : Extent} (h : Declared keyword extent t s) (ht : Genuine t) :
    InOrder s.nodes := by
  cases h with
  | list hlist hsep =>
    exact all_cons.mpr ⟨rfl, listed_inOrder hlist (genuine_append.mp ht).1
      (fun _ _ => declares_inOrder) rfl fun _ _ => rfl⟩
  | destructure hopening hnames hclosing hassign hvalues hsep =>
    simp only [genuine_append, genuine_cons] at ht
    obtain ⟨-, -, -, -, hu, -⟩ := ht
    exact all_cons.mpr ⟨rfl, values_inOrder hvalues hu⟩

lemma constant_inOrder (h : Constant keyword t s) (ht : Genuine t) : InOrder s.nodes := by
  obtain ⟨hname, hassign, hvalue, hsep⟩ := h
  simp only [genuine_append, genuine_cons] at ht
  exact all_cons.mpr ⟨rfl, conditional_inOrder hvalue ht.2.2.1⟩

lemma holds_inOrder {property : Property} (h : Holds t property) (ht : Genuine t) :
    InOrder property.value.nodes := by
  obtain ⟨hname, hassign, hvalue, hsep⟩ := h
  simp only [genuine_append, genuine_cons] at ht
  exact derives_inOrder hvalue ht.2.2.1

lemma assignedAll_inOrder (h : AssignedAll keyword t s) (ht : Genuine t) : InOrder s.nodes := by
  obtain ⟨htargets, hclosing, hassign, hvalues, hsep⟩ := h
  simp only [genuine_append, genuine_cons] at ht
  obtain ⟨ht, -, -, hu, -⟩ := ht
  exact all_cons.mpr ⟨rfl, all_append.mpr
    ⟨listed_inOrder htargets ht (fun _ _ => target_inOrder) rfl fun _ _ => rfl,
      values_inOrder hvalues hu⟩⟩

lemma evaluated_inOrder (h : Evaluated t s) (ht : Genuine t) : InOrder s.nodes := by
  cases h with
  | alone h hsep => exact all_cons.mpr ⟨rfl, derives_inOrder h (genuine_append.mp ht).1⟩
  | assign htarget hoperator hvalue hsep =>
    simp only [genuine_append, genuine_cons] at ht
    exact all_cons.mpr ⟨rfl, all_append.mpr
      ⟨target_inOrder htarget ht.1, derives_inOrder hvalue ht.2.2.1⟩⟩
  | update htarget hoperator hvalue hsep =>
    simp only [genuine_append, genuine_cons] at ht
    obtain ⟨ht, hcategory, hu, -⟩ := ht
    rw [Token.inOrder, hoperator] at hcategory
    exact all_cons.mpr ⟨hcategory, all_append.mpr
      ⟨target_inOrder htarget ht, derives_inOrder hvalue hu⟩⟩

lemma announced_inOrder (h : Announced t s) (ht : Genuine t) : InOrder s.nodes := by
  cases h with
  | declared hkeyword h => exact declared_inOrder h (genuine_cons.mp ht).2
  | constant hkeyword h => exact constant_inOrder h (genuine_cons.mp ht).2

end Lines

section Blocks

/-- What an import has to give. A module may stand where no declaration may. -/
def Supplied (s : Stmt) : Prop :=
  InOrder s.nodes ∧ s.introduces = false

variable {found : String → Option Stmt} {t : List Token} {s : Stmt}

lemma simple_inOrder (hfound : ∀ name s, found name = some s → Supplied s) (h : Simple found t s)
    (ht : Genuine t) : InOrder s.nodes := by
  cases h with
  | print hkeyword h => exact printed_inOrder h (genuine_cons.mp ht).2
  | giveBack hkeyword h => exact givenBack_inOrder h (genuine_cons.mp ht).2
  | release hkeyword h =>
    obtain ⟨htargets, hsep⟩ := h
    exact all_cons.mpr ⟨rfl, all_nil⟩
  | exit | loop => exact all_cons.mpr ⟨rfl, all_nil⟩
  | imported hkeyword hname hsep h => exact (hfound _ _ h).1
  | assignAll hopening h => exact assignedAll_inOrder h (genuine_cons.mp ht).2
  | evaluated h _ => exact evaluated_inOrder h ht

lemma steps_inOrder {step : Option Expr} (h : Steps t step) (ht : Genuine t) :
    InOrder (Expr.optionNodes step) := by
  cases h with
  | absent => exact all_nil
  | present hkeyword hstep => exact derives_inOrder hstep (genuine_cons.mp ht).2

/-- No statement declares anything. -/
lemma statement_plain (hfound : ∀ name s, found name = some s → s.introduces = false)
    (h : Builds found .statement t s) : s.introduces = false := by
  cases h with
  | simple h =>
    cases h with
    | imported hkeyword hname hsep h => exact hfound _ _ h
    | exit | loop => rfl
    | print _ h | giveBack _ h | release _ h | assignAll _ h | evaluated h => cases h <;> rfl
  | _ => rfl

section All

variable {P : Node → Prop} {statements : List Stmt}

lemma filter_all (p : Stmt → Bool) (h : All P (Stmt.allNodes statements)) :
    All P (Stmt.allNodes (statements.filter p)) := by
  induction statements with
  | nil => exact all_nil
  | cons s statements ih =>
    obtain ⟨hs, hstatements⟩ := all_append.mp h
    rw [List.filter_cons]
    split
    · exact all_append.mpr ⟨hs, ih hstatements⟩
    · exact ih hstatements

lemma deferred_all (h : All P (Stmt.allNodes statements)) :
    All P (Stmt.blockNodes (statements.filterMap Read.deferred?)) := by
  induction statements with
  | nil => exact all_nil
  | cons s statements ih =>
    obtain ⟨hs, hstatements⟩ := all_append.mp h
    cases s with
    | defer token body => exact all_append.mpr ⟨(all_cons.mp hs).2, ih hstatements⟩
    | _ => exact ih hstatements

end All

lemma isNone_deferred (s : Stmt) : (Read.deferred? s).isNone = !s.isDefer := by
  cases s <;> rfl

/-- What has to be known of tokens with a property `Q` for `P` to hold of all nodes that they are
read as. Of the statements over several lines and of functions it is known that they are in
order. -/
structure NodeRule (found : String → Option Stmt) (Q : List Token → Prop) (P : Node → Prop) : Prop where
  tail : ∀ {token t}, Q (token :: t) → Q t
  left : ∀ {t u}, Q (t ++ u) → Q t
  right : ∀ {t u}, Q (t ++ u) → Q u
  module : ∀ name s, found name = some s → s.introduces = false
  simple : ∀ {t s}, Q t → Simple found t s → All P s.nodes
  announced : ∀ {t s}, Q t → Announced t s → All P s.nodes
  value : ∀ {t e}, Q t → Derives .expression t e → All P e.nodes
  values : ∀ {t all}, Q t → Listed (Derives .expression) t all → All P (Expr.allNodes all)
  step : ∀ {t e}, Q t → Steps t e → All P (Expr.optionNodes e)
  parameters : ∀ {t all}, Q t → Parameters t all → All P (Parameter.allNodes all)
  property : ∀ {t p}, Q t → Holds t p → All P p.value.nodes
  statement : ∀ s, (Node.statement s).inOrder = true → P (.statement s)
  function : ∀ {t f}, Q t → Builds found .function t f → (Node.function f).inOrder = true →
    P (.function f)

/-- A property holds of all nodes of a part. A post-test loop has no declaration in its body. -/
def Part.All (P : Node → Prop) : (part : Part) → part.Tree → Prop
  | .statement, s | .declaration, s => Proofs.All P s.nodes
  | .function, f => Proofs.All P (Stmt.functionNodes f)
  | .block, statements => Proofs.All P (Stmt.allNodes statements)
  | .plain, statements => Proofs.All P (Stmt.allNodes statements) ∧
      statements.all (fun s => !s.introduces) = true
  | .branches, all => Proofs.All P (Stmt.branchNodes all)
  | .members, (properties, methods) =>
    Proofs.All P (Property.allNodes properties) ∧ Proofs.All P (Stmt.methodNodes methods)

lemma builds_all {Q : List Token → Prop} {P : Node → Prop} (rule : NodeRule found Q P) {part : Part}
    {tree : part.Tree} (h : Builds found part t tree) (ht : Q t) : part.All P tree := by
  induction h with
  | simple h => exact rule.simple ht h
  | branch hkeyword hcondition hthen hsep _ hlast hsep' ih =>
    have hrest := rule.tail ht
    have hbody := ih (rule.left (rule.tail (rule.right (rule.right hrest))))
    exact all_cons.mpr ⟨rule.statement _ rfl, all_append.mpr
      ⟨rule.value (rule.left hrest) hcondition, all_append.mpr ⟨hbody, all_nil⟩⟩⟩
  | branchElse hkeyword hcondition hthen hsep _ hother hsep' _ hlast hsep'' ih ih' =>
    have hrest := rule.tail ht
    have hblocks := rule.tail (rule.right (rule.right hrest))
    have hbody' := ih' (rule.left (rule.tail (rule.tail (rule.right hblocks))))
    exact all_cons.mpr ⟨rule.statement _ rfl, all_append.mpr
      ⟨rule.value (rule.left hrest) hcondition, all_append.mpr ⟨ih (rule.left hblocks), hbody'⟩⟩⟩
  | choose hkeyword hcase hsep _ hlast hsep' ih =>
    have hrest := rule.tail (rule.tail (rule.tail ht))
    exact all_cons.mpr ⟨rule.statement _ rfl, all_append.mpr ⟨ih (rule.left hrest), all_nil⟩⟩
  | chooseOtherwise hkeyword hcase hsep _ hother hsep' _ hlast hsep'' ih ih' =>
    have hrest := rule.tail (rule.tail (rule.tail ht))
    have hbody := ih' (rule.left (rule.tail (rule.tail (rule.right hrest))))
    exact all_cons.mpr ⟨rule.statement _ rfl, all_append.mpr ⟨ih (rule.left hrest), hbody⟩⟩
  | whileLoop hkeyword hloop hcondition hsep _ hlast hsep' ih =>
    have hrest := rule.tail (rule.tail ht)
    have hbody := ih (rule.left (rule.tail (rule.right hrest)))
    exact all_cons.mpr ⟨rule.statement _ rfl, all_append.mpr
      ⟨rule.value (rule.left hrest) hcondition, hbody⟩⟩
  | doLoop hkeyword hsep _ hloop hcondition hsep' ih =>
    have hrest := rule.tail (rule.tail ht)
    obtain ⟨hbody, hplain⟩ := ih (rule.left hrest)
    have hcondition := rule.value (rule.left (rule.tail (rule.right hrest))) hcondition
    exact all_cons.mpr ⟨rule.statement _ hplain, all_append.mpr ⟨hcondition, hbody⟩⟩
  | forLoop hkeyword hcounter hassign hstart hupTo hfinish hstep hsep _ hlast hsep' ih =>
    have hrest := rule.tail (rule.tail (rule.tail ht))
    have hbounds := rule.tail (rule.right hrest)
    have hafter := rule.right hbounds
    have hbody := ih (rule.left (rule.tail (rule.right hafter)))
    exact all_cons.mpr ⟨rule.statement _ rfl, all_append.mpr ⟨rule.value (rule.left hrest) hstart,
      all_append.mpr ⟨rule.value (rule.left hbounds) hfinish,
        all_append.mpr ⟨rule.step (rule.left hafter) hstep, hbody⟩⟩⟩⟩
  | defer hkeyword hsep _ hlast hsep' ih =>
    exact all_cons.mpr ⟨rule.statement _ rfl, ih (rule.left (rule.tail (rule.tail ht)))⟩
  | stated _ ih => exact ih ht
  | announced h => exact rule.announced ht h
  | method _ ih => exact all_cons.mpr ⟨rule.statement _ rfl, ih ht⟩
  | module hkeyword hname hsep _ hlast hsep' ih =>
    have hbody := ih (rule.left (rule.tail (rule.tail (rule.tail ht))))
    exact all_cons.mpr ⟨rule.statement _ rfl, hbody⟩
  | classDef hkeyword hname hsuperclass hsep _ hlast hsep' ih =>
    have hmembers := ih (rule.left (rule.tail (rule.right (rule.tail (rule.tail ht)))))
    exact all_cons.mpr ⟨rule.statement _ rfl, all_append.mpr hmembers⟩
  | function hkeyword hname hparameters hsep hbody hlast hsep' ih =>
    have hrest := rule.tail (rule.tail ht)
    have hstatements := ih (rule.left (rule.tail (rule.right hrest)))
    have hfunction := Builds.function hkeyword hname hparameters hsep hbody hlast hsep'
    -- The defer blocks are taken out of the body, so none is left in it.
    refine all_cons.mpr ⟨rule.function ht hfunction ?_, all_append.mpr
      ⟨rule.parameters (rule.left hrest) hparameters, all_append.mpr
        ⟨filter_all _ hstatements, deferred_all hstatements⟩⟩⟩
    simp [Node.inOrder, List.all_filter, isNone_deferred]
  | blockEnd | branchesEnd => exact all_nil
  | plainEnd => exact ⟨all_nil, rfl⟩
  | membersEnd => exact ⟨all_nil, all_nil⟩
  | blockSkip hsep _ ih | plainSkip hsep _ ih | membersSkip hsep _ ih => exact ih (rule.tail ht)
  | blockNext _ _ ih ih' => exact all_append.mpr ⟨ih (rule.left ht), ih' (rule.right ht)⟩
  | plainNext h _ ih ih' =>
    obtain ⟨hrest, hplain⟩ := ih' (rule.right ht)
    refine ⟨all_append.mpr ⟨ih (rule.left ht), hrest⟩, ?_⟩
    simpa [statement_plain rule.module h] using hplain
  | membersMethod _ _ ih ih' =>
    obtain ⟨hproperties, hmethods⟩ := ih' (rule.right ht)
    exact ⟨hproperties, all_append.mpr ⟨ih (rule.left ht), hmethods⟩⟩
  | branchesNext hcase hconditions hsep _ _ ih ih' =>
    have hrest := rule.tail ht
    have hblocks := rule.tail (rule.right hrest)
    exact all_append.mpr ⟨rule.values (rule.left hrest) hconditions,
      all_append.mpr ⟨ih (rule.left hblocks), ih' (rule.right hblocks)⟩⟩
  | membersProperty h _ ih =>
    obtain ⟨hproperties, hmethods⟩ := ih (rule.right ht)
    exact ⟨all_append.mpr ⟨rule.property (rule.left ht) h, hproperties⟩, hmethods⟩

lemma rule_inOrder (hfound : ∀ name s, found name = some s → Supplied s) :
    NodeRule found Genuine fun node => node.inOrder = true where
  tail h := (genuine_cons.mp h).2
  left h := (genuine_append.mp h).1
  right h := (genuine_append.mp h).2
  module name s hs := (hfound name s hs).2
  simple ht h := simple_inOrder hfound h ht
  announced ht h := announced_inOrder h ht
  value ht h := derives_inOrder h ht
  values ht h := values_inOrder h ht
  step ht h := steps_inOrder h ht
  parameters ht h := parameters_inOrder h ht
  property ht h := holds_inOrder h ht
  statement _ h := h
  function _ _ h := h

end Blocks

section Texts

/-- A property of the nodes of a text that those of an imported module hand on to the text. -/
lemma good_all {P : String → Node → Prop} (library : Library)
    (himported : ∀ name body source node, library.resolve name = .ok body →
      P (SourceUnit.wrap name body) node → P source node)
    (hrule : ∀ depth importing source, (∀ name s,
        SourceUnit.loaded (SourceUnit.loader library depth importing) name = some s →
          All (P source) s.nodes ∧ s.introduces = false) →
      ∃ Q, Q (scan source).tokens ∧
        NodeRule (SourceUnit.loaded (SourceUnit.loader library depth importing)) Q (P source))
    (depth : Nat) (importing : List String) (source : String)
    (h : (SourceUnit.parseWithin library depth importing source).errors = []) :
    All (P source)
      (Stmt.allNodes (SourceUnit.parseWithin library depth importing source).statements) := by
  -- The text of an imported module may nest imports one level less deep.
  induction depth generalizing importing source with
  | zero =>
    obtain ⟨-, hbuilds⟩ := (good_iff_builds library importing 0 source).mp ⟨h, rfl⟩
    obtain ⟨Q, hQ, rule⟩ := hrule 0 importing source fun name s hs => by
      obtain ⟨-, _, _, -, hread, -⟩ := loaded_eq_some_iff.mp hs
      cases hread
    exact builds_all rule hbuilds hQ
  | succ depth ih =>
    obtain ⟨-, hbuilds⟩ := (good_iff_builds library importing (depth + 1) source).mp ⟨h, rfl⟩
    obtain ⟨Q, hQ, rule⟩ := hrule (depth + 1) importing source fun name s hs => by
      constructor
      · obtain ⟨-, body, _, hresolve, hread, herrors, hstatements⟩ := loaded_eq_some_iff.mp hs
        cases hread
        have hmodule := ih _ _ herrors
        rw [hstatements] at hmodule
        exact fun node hnode =>
          himported name body source node hresolve ((all_append.mp hmodule).1 node hnode)
      · obtain ⟨_, _, _, rfl⟩ := loaded_module library importing (depth + 1) hs
        rfl
    exact builds_all rule hbuilds hQ

/-- Every program that a text reads as is in order. -/
lemma program_inOrder {library : Library} {source : String} {program : List Stmt}
    (h : (SourceUnit.parse library source).result = .ok program) :
    InOrder (Stmt.allNodes program) := by
  unfold SourceUnit.result at h
  split at h
  · next hgood =>
    cases h
    exact good_all (P := fun _ node => node.inOrder = true) library (fun _ _ _ _ _ h => h)
      (fun _ _ source hfound => ⟨Genuine, scan_genuine source, rule_inOrder hfound⟩) _ [] source
      (List.isEmpty_iff.mp hgood)
  · cases h

end Texts

end Proofs

end XBase
