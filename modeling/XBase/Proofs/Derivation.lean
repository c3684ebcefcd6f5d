import XBase.Proofs.Advance

/-!
# The grammar of expressions, derived

The grammar of expressions as rules, and the proof that reading an expression accepts exactly what
the rules derive. Soundness follows the readers. Completeness is by induction on the derivation: it
says what a reader makes of the tokens of a phrase when any other tokens follow, since the left
operand of an operation is read by a loop that goes on behind it.
-/

namespace XBase.Proofs

/-- The levels of binary operators, from the loosest to the tightest. -/
inductive Precedence where
  | or | and | equality | comparison | term | factor

def Precedence.kind : Precedence → Kind
  | or => .or
  | and => .and
  | equality => .equality
  | comparison => .relational
  | term => .term
  | factor => .factor

def Precedence.join : Precedence → Expr → Token → Expr → Expr
  | or | and => .logical
  | equality | comparison | term | factor => .binary

inductive Rank where
  | operation (level : Precedence)
  | unary
  | applied
  | primary

def Precedence.operand : Precedence → Rank
  | or => .operation .and
  | and => .operation .equality
  | equality => .operation .comparison
  | comparison => .operation .term
  | term => .operation .factor
  | factor => .unary

inductive Phrase where
  | expr (rank : Rank)
  | argument
  | arguments
  | values

abbrev Phrase.Tree : Phrase → Type
  | expr _ => Expr
  | argument => Argument Expr
  | arguments => List (Argument Expr)
  | values => List Expr

abbrev Phrase.expression : Phrase :=
  .expr (.operation .or)

/-- The grammar of expressions: the tokens of a phrase and what it stands for. Operations associate
to the left, since only their left operand may be of their own level, and signs to the right. -/
inductive Derives : (phrase : Phrase) → List Token → phrase.Tree → Prop
  | operand {level : Precedence} {t : List Token} {e : Expr} (h : Derives (.expr level.operand) t e) :
      Derives (.expr (.operation level)) t e
  | operation {level : Precedence} {t u : List Token} {left right : Expr} {operator : Token}
      (hleft : Derives (.expr (.operation level)) t left) (hoperator : operator.kind = level.kind)
      (hright : Derives (.expr level.operand) u right) :
      Derives (.expr (.operation level)) (t ++ operator :: u) (level.join left operator right)
  | signed {t : List Token} {right : Expr} {operator : Token}
      (hoperator : operator.kind = .not ∨ operator.kind = .term)
      (hright : Derives (.expr .unary) t right) :
      Derives (.expr .unary) (operator :: t) (.unary operator right)
  | unsigned {t : List Token} {e : Expr} (h : Derives (.expr .applied) t e) :
      Derives (.expr .unary) t e
  | alone {t : List Token} {e : Expr} (h : Derives (.expr .primary) t e) :
      Derives (.expr .applied) t e
  | member {t : List Token} {object : Expr} {dot property : Token}
      (h : Derives (.expr .applied) t object) (hdot : dot.kind = .dot)
      (hproperty : property.kind = .name) :
      Derives (.expr .applied) (t ++ [dot, property]) (.member object property)
  | index {t u : List Token} {object key : Expr} {opening closing : Token}
      (h : Derives (.expr .applied) t object) (hopening : opening.kind = .leftBracket)
      (hkey : Derives .expression u key) (hclosing : closing.kind = .rightBracket) :
      Derives (.expr .applied) (t ++ opening :: (u ++ [closing])) (.index object opening key)
  | call {t : List Token} {callee : Expr} {opening closing : Token}
      (h : Derives (.expr .applied) t callee) (hopening : opening.kind = .leftParen)
      (hclosing : closing.kind = .rightParen) :
      Derives (.expr .applied) (t ++ [opening, closing]) (.call callee [])
  | callWith {t u : List Token} {callee : Expr} {arguments : List (Argument Expr)}
      {opening closing : Token}
      (h : Derives (.expr .applied) t callee) (hopening : opening.kind = .leftParen)
      (harguments : Derives .arguments u arguments) (hclosing : closing.kind = .rightParen) :
      Derives (.expr .applied) (t ++ opening :: (u ++ [closing])) (.call callee arguments)
  | literal {token : Token} (h : token.kind = .number ∨ token.kind = .text ∨
      token.kind = .trueWord ∨ token.kind = .falseWord ∨ token.kind = .nullWord) :
      Derives (.expr .primary) [token] (.literal token)
  | name {token : Token} (h : token.kind = .name) : Derives (.expr .primary) [token] (.name token)
  | this {token : Token} (h : token.kind = .keyword .thisWord) :
      Derives (.expr .primary) [token] (.this token)
  | substitution {mark token : Token} (hmark : mark.kind = .ampersand) (h : token.kind = .name) :
      Derives (.expr .primary) [mark, token] (.substitution token)
  | create {t : List Token} {keyword opening prototype closing : Token} {values : List Expr}
      (hkeyword : keyword.kind = .keyword .createObject) (hopening : opening.kind = .leftParen)
      (hprototype : prototype.kind = .text) (hvalues : Derives .values t values)
      (hclosing : closing.kind = .rightParen) :
      Derives (.expr .primary) (keyword :: opening :: prototype :: (t ++ [closing]))
        (.create keyword prototype values)
  | grouped {t : List Token} {e : Expr} {opening closing : Token}
      (hopening : opening.kind = .leftParen) (h : Derives .expression t e)
      (hclosing : closing.kind = .rightParen) :
      Derives (.expr .primary) (opening :: (t ++ [closing])) e
  | positional {t : List Token} {e : Expr} (h : Derives .expression t e) :
      Derives .argument t ⟨none, e⟩
  | labelled {t : List Token} {e : Expr} {label colon : Token} (hlabel : label.kind = .name)
      (hcolon : colon.kind = .colon) (h : Derives .expression t e) :
      Derives .argument (label :: colon :: t) ⟨some label, e⟩
  | lastArgument {t : List Token} {argument : Argument Expr} (h : Derives .argument t argument) :
      Derives .arguments t [argument]
  | moreArguments {t u : List Token} {argument : Argument Expr}
      {arguments : List (Argument Expr)} {comma : Token} (h : Derives .argument t argument)
      (hcomma : comma.kind = .comma) (hrest : Derives .arguments u arguments) :
      Derives .arguments (t ++ comma :: u) (argument :: arguments)
  | noValues : Derives .values [] []
  | moreValues {t u : List Token} {value : Expr} {values : List Expr} {comma : Token}
      (hcomma : comma.kind = .comma) (h : Derives .expression t value)
      (hrest : Derives .values u values) :
      Derives .values (comma :: (t ++ u)) (value :: values)

/-- The rest of a list does not start with a token of some kinds. -/
def Ends (more : Kind → Bool) : List Token → Prop
  | [] => True
  | next :: _ => more next.kind = false

variable {kind : Kind} {token first : Token} {tokens rest done t u : List Token} {p : Parse Expr}
  {left e object : Expr}

section Inversion

variable {α β : Type} {tokens rest : List Token}

lemma ends_at {more : Kind → Bool} (h : token.kind = kind) (hmore : more kind = false) :
    Ends more (token :: rest) :=
  (congrArg more h).trans hmore

lemma parse_bind_eq_ok {p : Parse α} {f : α → Parse β} {b : β} :
    (p >>= f) tokens = (.ok b, rest) ↔
      ∃ a mid, p tokens = (.ok a, mid) ∧ f a mid = (.ok b, rest) := by
  rcases hp : p tokens with ⟨e | a, mid⟩
  · simp [parse_bind_error hp]
  · simp only [parse_bind_ok hp, Prod.mk.injEq, Except.ok.injEq]
    constructor
    · intro h
      exact ⟨a, mid, ⟨rfl, rfl⟩, h⟩
    · rintro ⟨_, _, ⟨rfl, rfl⟩, h⟩
      exact h

lemma parse_pure_eq_ok {a b : α} :
    (pure a : Parse α) tokens = (.ok b, rest) ↔ a = b ∧ tokens = rest := by
  change (Except.ok a, tokens) = (Except.ok b, rest) ↔ _
  simp

lemma expect_eq_ok {message : String} :
    Parse.expect kind message tokens = (.ok token, rest) ↔
      tokens = token :: rest ∧ token.kind = kind := by
  fun_cases Parse.expect kind message tokens with
  | case1 => simp
  | case2 first others h =>
    simp only [Prod.mk.injEq, Except.ok.injEq, List.cons.injEq]
    constructor
    · rintro ⟨rfl, rfl⟩
      exact ⟨⟨rfl, rfl⟩, h⟩
    · exact fun h => h.1
  | case3 first others h =>
    simp only [Prod.mk.injEq, reduceCtorEq, false_and, List.cons.injEq, false_iff, not_and]
    rintro ⟨rfl, rfl⟩
    exact h

lemma expect_bind_eq_ok {message : String} {f : Token → Parse β} {b : β} :
    (Parse.expect kind message >>= f) tokens = (.ok b, rest) ↔
      ∃ token mid, tokens = token :: mid ∧ token.kind = kind ∧ f token mid = (.ok b, rest) := by
  simp only [parse_bind_eq_ok, expect_eq_ok, and_assoc]

lemma accept_eq_some {kinds : Kind → Bool} :
    Parse.accept kinds tokens = (.ok (some token), rest) ↔
      tokens = token :: rest ∧ kinds token.kind = true := by
  fun_cases Parse.accept kinds tokens with
  | case1 => simp
  | case2 first others h =>
    simp only [Prod.mk.injEq, Except.ok.injEq, Option.some.injEq, List.cons.injEq]
    constructor
    · rintro ⟨rfl, rfl⟩
      exact ⟨⟨rfl, rfl⟩, h⟩
    · exact fun h => h.1
  | case3 first others h =>
    simp only [Prod.mk.injEq, Except.ok.injEq, reduceCtorEq, false_and, List.cons.injEq,
      false_iff, not_and]
    rintro ⟨rfl, rfl⟩
    exact h

lemma accept_ok {kinds : Kind → Bool} (h : kinds token.kind = true) :
    Parse.accept kinds (token :: rest) = (.ok (some token), rest) :=
  accept_eq_some.mpr ⟨rfl, h⟩

lemma accept_eq_none {kinds : Kind → Bool} :
    Parse.accept kinds tokens = (.ok none, rest) ↔ tokens = rest ∧ Ends kinds rest := by
  fun_cases Parse.accept kinds tokens with
  | case1 =>
    simp only [Prod.mk.injEq, true_and]
    constructor
    · rintro rfl
      exact ⟨rfl, trivial⟩
    · exact fun h => h.1
  | case2 first others h =>
    simp only [Prod.mk.injEq, Except.ok.injEq, reduceCtorEq, false_and, false_iff, not_and]
    rintro rfl hends
    exact absurd hends (by simp [Ends, h])
  | case3 first others h =>
    simp only [Prod.mk.injEq, true_and]
    constructor
    · rintro rfl
      exact ⟨rfl, by simpa [Ends] using h⟩
    · exact fun h => h.1

lemma sees_eq_false :
    Parse.sees kind tokens = (.ok false, rest) ↔ tokens = rest ∧ Ends (· == kind) tokens := by
  cases tokens with
  | nil => simp [Parse.sees, Ends]
  | cons token others => simp [Parse.sees, Ends, and_comm]

lemma sees_eq_true :
    Parse.sees kind tokens = (.ok true, rest) ↔
      tokens = rest ∧ ∃ token others, tokens = token :: others ∧ token.kind = kind := by
  cases tokens with
  | nil => simp [Parse.sees]
  | cons token others => simp [Parse.sees, and_comm]

end Inversion

/-- What is applied to an expression starts with one of these. -/
def applies : Kind → Bool
  | .dot | .leftBracket | .leftParen => true
  | _ => false

/-- The kinds of the operators of a level and of the tighter ones. -/
def Precedence.kinds : Precedence → List Kind
  | factor => [.factor]
  | term => [.term, .factor]
  | comparison => [.relational, .term, .factor]
  | equality => [.equality, .relational, .term, .factor]
  | and => [.and, .equality, .relational, .term, .factor]
  | or => [.or, .and, .equality, .relational, .term, .factor]

/-- The kinds of tokens that go on with an operation of a level. -/
def Precedence.continues (level : Precedence) (kind : Kind) : Bool :=
  level.kinds.contains kind || applies kind

/-- The kinds of tokens that go on with an expression of a rank. -/
def Rank.continues : Rank → Kind → Bool
  | operation level => level.continues
  | unary | applied => applies
  | primary => fun _ => false

lemma level_continues (level : Precedence) (kind : Kind) :
    level.continues kind = (kind == level.kind || level.operand.continues kind) := by
  cases level <;>
    simp [Precedence.continues, Precedence.kinds, Precedence.kind, Precedence.operand, Rank.continues, Bool.or_assoc,
      beq_eq_decide]

lemma operand_continues_kind (level : Precedence) : level.operand.continues level.kind = false := by
  cases level <;> rfl

def Precedence.read (nested : Parse Expr) (level : Precedence) : Parse Expr :=
  let factors := Parse.level .factor .binary (Parse.unary nested)
  let terms := Parse.level .term .binary factors
  let comparisons := Parse.level .relational .binary terms
  let equalities := Parse.level .equality .binary comparisons
  let conjunctions := Parse.level .and .logical equalities
  match level with
  | factor => factors
  | term => terms
  | comparison => comparisons
  | equality => equalities
  | and => conjunctions
  | or => Parse.level .or .logical conjunctions

def Rank.read (nested : Parse Expr) : Rank → Parse Expr
  | operation level => level.read nested
  | unary => Parse.unary nested
  | applied => Parse.postfixed nested
  | primary => Parse.primary nested

lemma level_read (nested : Parse Expr) (level : Precedence) : level.read nested =
    Parse.level level.kind level.join (level.operand.read nested) := by
  cases level <;> rfl

section Soundness

variable {α : Type}

/-- A grammar accepts only what `D` derives, and stops before a token of other kinds than
`more`. -/
def Sound (p : Parse α) (D : List Token → α → Prop) (more : Kind → Bool) : Prop :=
  ∀ tokens a rest, p tokens = (.ok a, rest) → ∃ t, tokens = t ++ rest ∧ D t a ∧ Ends more rest

inductive Trailing (D : List Token → α → Prop) : List Token → List α → Prop
  | nil : Trailing D [] []
  | cons {comma : Token} {t u : List Token} {a : α} {items : List α}
      (hcomma : comma.kind = .comma) (h : D t a) (hrest : Trailing D u items) :
      Trailing D (comma :: (t ++ u)) (a :: items)

lemma commaTail_sound {p : Parse α} {D : List Token → α → Prop} {more : Kind → Bool}
    (h : Sound p D more) {items : List α} (hp : Parse.commaTail p tokens = (.ok items, rest)) :
    ∃ t, tokens = t ++ rest ∧ Trailing D t items ∧ (Ends more tokens → Ends more rest) ∧
      Ends (· == .comma) rest := by
  fun_induction Parse.commaTail p tokens generalizing items with
  | case1 =>
    cases hp
    exact ⟨[], rfl, .nil, id, trivial⟩
  | case2 comma others hcomma e after hfirst => cases hp
  | case3 comma others hcomma a after hfirst hle items' final htail ih =>
    cases hp
    obtain ⟨t, rfl, ht, hafter⟩ := h _ _ _ hfirst
    obtain ⟨u, rfl, hu, hrest, hend⟩ := ih htail
    exact ⟨comma :: (t ++ u), by simp, .cons hcomma ht hu, fun _ => hrest hafter, hend⟩
  | case4 comma others hcomma a after hfirst hle e final htail ih => cases hp
  | case5 comma others hcomma a after hfirst hle =>
    obtain ⟨t, rfl, -, -⟩ := h _ _ _ hfirst
    exact absurd (by simp) hle
  | case6 comma others hcomma =>
    cases hp
    exact ⟨[], rfl, .nil, id, by simpa [Ends] using hcomma⟩

lemma chain_sound {level : Precedence}
    (h : Sound p (Derives (.expr level.operand)) level.operand.continues)
    (hdone : Derives (.expr (.operation level)) done left)
    (hends : Ends level.operand.continues tokens)
    (hp : Parse.chain (· == level.kind) level.join p left tokens = (.ok e, rest)) :
    ∃ t, tokens = t ++ rest ∧ Derives (.expr (.operation level)) (done ++ t) e ∧
      Ends level.continues rest := by
  fun_induction Parse.chain (· == level.kind) level.join p left tokens generalizing done with
  | case1 left =>
    cases hp
    exact ⟨[], rfl, by simpa using hdone, trivial⟩
  | case2 left operator others hop e after hright => cases hp
  | case3 left operator others hop right after hright hle ih =>
    obtain ⟨t, rfl, ht, hafter⟩ := h _ _ _ hright
    obtain ⟨u, rfl, hu, hrest⟩ := ih (.operation hdone (by simpa using hop) ht) hafter hp
    exact ⟨operator :: (t ++ u), by simp, by simpa using hu, hrest⟩
  | case4 left operator others hop right after hright hle =>
    obtain ⟨t, rfl, -, -⟩ := h _ _ _ hright
    exact absurd (by simp) hle
  | case5 left operator others hop =>
    cases hp
    refine ⟨[], rfl, by simpa using hdone, ?_⟩
    have hkind : (operator.kind == level.kind) = false := by simpa using hop
    have hmore : level.operand.continues operator.kind = false := hends
    change level.continues operator.kind = false
    rw [level_continues, hkind, hmore]
    rfl

lemma level_sound {p : Parse Expr} {level : Precedence}
    (h : Sound p (Derives (.expr level.operand)) level.operand.continues) :
    Sound (Parse.level level.kind level.join p) (Derives (.expr (.operation level)))
      level.continues := by
  intro tokens e rest hp
  obtain ⟨left, mid, hleft, hchain⟩ := parse_bind_eq_ok.mp hp
  obtain ⟨t, rfl, ht, hmid⟩ := h _ _ _ hleft
  obtain ⟨u, rfl, hu, hrest⟩ := chain_sound h (.operand ht) hmid hchain
  exact ⟨t ++ u, by simp, hu, hrest⟩

lemma unary_sound {nested : Parse Expr}
    (h : Sound (Parse.postfixed nested) (Derives (.expr .applied)) applies) :
    Sound (Parse.unary nested) (Derives (.expr .unary)) applies := by
  intro tokens
  induction tokens with
  | nil =>
    intro e rest hp
    obtain ⟨t, ht, hd, hrest⟩ := h _ _ _ hp
    exact ⟨t, ht, .unsigned hd, hrest⟩
  | cons operator others ih =>
    intro e rest hp
    rw [Parse.unary] at hp
    split at hp
    · next hop =>
      rcases hright : Parse.unary nested others with ⟨e | right, after⟩
      all_goals
        rw [hright] at hp
        cases hp
      obtain ⟨t, rfl, ht, hrest⟩ := ih _ _ hright
      exact ⟨operator :: t, rfl, .signed hop ht, hrest⟩
    · obtain ⟨t, ht, hd, hrest⟩ := h _ _ _ hp
      exact ⟨t, ht, .unsigned hd, hrest⟩

section Nested

variable {nested : Parse Expr} (h : Sound nested (Derives .expression) Precedence.or.continues)

include h

lemma argument_sound :
    Sound (Parse.argument nested) (Derives .argument) Precedence.or.continues := by
  have hpositional (tokens rest : List Token) (a : Argument Expr)
      (hp : (do return ⟨none, ← nested⟩ : Parse (Argument Expr)) tokens = (.ok a, rest)) :
      ∃ t, tokens = t ++ rest ∧ Derives .argument t a ∧ Ends Precedence.or.continues rest := by
    obtain ⟨e, mid, he, ha⟩ := parse_bind_eq_ok.mp hp
    obtain ⟨rfl, rfl⟩ := parse_pure_eq_ok.mp ha
    obtain ⟨t, rfl, ht, hrest⟩ := h _ _ _ he
    exact ⟨t, rfl, .positional ht, hrest⟩
  intro tokens a rest hp
  unfold Parse.argument at hp
  split at hp
  · next label colon others =>
    split at hp
    · next hkinds =>
      obtain ⟨e, mid, he, ha⟩ := parse_bind_eq_ok.mp hp
      obtain ⟨rfl, rfl⟩ := parse_pure_eq_ok.mp ha
      obtain ⟨t, rfl, ht, hrest⟩ := h _ _ _ he
      exact ⟨label :: colon :: t, rfl, .labelled hkinds.1 hkinds.2 ht, hrest⟩
    · exact hpositional _ _ _ hp
  · exact hpositional _ _ _ hp

omit h in
lemma derives_arguments {a : Argument Expr} {others : List (Argument Expr)}
    (ha : Derives .argument t a) (hothers : Trailing (Derives .argument) u others) :
    Derives .arguments (t ++ u) (a :: others) := by
  induction hothers generalizing t a with
  | nil => simpa using Derives.lastArgument ha
  | cons hcomma hb _ ih => exact .moreArguments ha hcomma (ih hb)

omit h in
lemma derives_values {values : List Expr} (hvalues : Trailing (Derives .expression) t values) :
    Derives .values t values := by
  induction hvalues with
  | nil => exact .noValues
  | cons hcomma hvalue _ ih => exact .moreValues hcomma hvalue ih

lemma arguments_sound {all : List (Argument Expr)}
    (hp : Parse.arguments nested tokens = (.ok all, rest)) :
    ∃ closing, closing.kind = .rightParen ∧ ((all = [] ∧ tokens = closing :: rest) ∨
      ∃ t, tokens = t ++ closing :: rest ∧ Derives .arguments t all) := by
  obtain ⟨closed, mid, hclosed, hp⟩ := parse_bind_eq_ok.mp hp
  obtain ⟨values, last, hvalues, hp⟩ : ∃ values last,
      (if closed then pure [] else Parse.commaList (Parse.argument nested) :
        Parse (List (Argument Expr))) mid = (.ok values, last) ∧
      (do let _ ← Parse.expect .rightParen "Expect ')' after arguments."; return values :
        Parse (List (Argument Expr))) last = (.ok all, rest) := by
    cases closed <;> exact parse_bind_eq_ok.mp hp
  obtain ⟨closing, _, rfl, hkind, hp⟩ := expect_bind_eq_ok.mp hp
  obtain ⟨rfl, rfl⟩ := parse_pure_eq_ok.mp hp
  refine ⟨closing, hkind, ?_⟩
  cases closed with
  | true =>
    obtain ⟨rfl, -⟩ := sees_eq_true.mp hclosed
    obtain ⟨rfl, rfl⟩ := parse_pure_eq_ok.mp hvalues
    exact .inl ⟨rfl, rfl⟩
  | false =>
    obtain ⟨rfl, -⟩ := sees_eq_false.mp hclosed
    obtain ⟨a, after, ha, hvalues⟩ := parse_bind_eq_ok.mp hvalues
    obtain ⟨others, final, hothers, hvalues⟩ := parse_bind_eq_ok.mp hvalues
    obtain ⟨rfl, rfl⟩ := parse_pure_eq_ok.mp hvalues
    obtain ⟨t, rfl, ht, hafter⟩ := argument_sound h _ _ _ ha
    obtain ⟨u, rfl, hu, -⟩ := commaTail_sound (argument_sound h) hothers
    exact .inr ⟨t ++ u, by simp, derives_arguments ht hu⟩

lemma creation_sound {keyword : Token} (hkeyword : keyword.kind = .keyword .createObject)
    (hp : Parse.creation nested keyword tokens = (.ok e, rest)) :
    ∃ t, tokens = t ++ rest ∧ Derives (.expr .primary) (keyword :: t) e := by
  obtain ⟨opening, _, rfl, kopening, hp⟩ := expect_bind_eq_ok.mp hp
  obtain ⟨prototype, mid, rfl, kprototype, hp⟩ := expect_bind_eq_ok.mp hp
  obtain ⟨values, _, hvalues, hp⟩ := parse_bind_eq_ok.mp hp
  obtain ⟨closing, _, rfl, kclosing, hp⟩ := expect_bind_eq_ok.mp hp
  obtain ⟨rfl, rfl⟩ := parse_pure_eq_ok.mp hp
  obtain ⟨t, rfl, ht, -⟩ := commaTail_sound h hvalues
  exact ⟨opening :: prototype :: (t ++ [closing]), by simp,
    .create hkeyword kopening kprototype (derives_values ht) kclosing⟩

lemma grouped_sound {opening : Token} (hopening : opening.kind = .leftParen)
    (hp : Parse.grouped nested tokens = (.ok e, rest)) :
    ∃ t, tokens = t ++ rest ∧ Derives (.expr .primary) (opening :: t) e := by
  obtain ⟨closed, mid, hclosed, hp⟩ := parse_bind_eq_ok.mp hp
  cases closed with
  | true => cases hp
  | false =>
    obtain ⟨rfl, -⟩ := sees_eq_false.mp hclosed
    obtain ⟨value, _, hvalue, hp⟩ := parse_bind_eq_ok.mp hp
    obtain ⟨closing, _, rfl, kclosing, hp⟩ := expect_bind_eq_ok.mp hp
    obtain ⟨rfl, rfl⟩ := parse_pure_eq_ok.mp hp
    obtain ⟨t, rfl, ht, -⟩ := h _ _ _ hvalue
    exact ⟨t ++ [closing], by simp, .grouped hopening ht kclosing⟩

lemma primary_sound :
    Sound (Parse.primary nested) (Derives (.expr .primary)) fun _ => false := by
  intro tokens e rest hp
  suffices ∃ t, tokens = t ++ rest ∧ Derives (.expr .primary) t e by
    obtain ⟨t, ht, hd⟩ := this
    refine ⟨t, ht, hd, ?_⟩
    cases rest <;> trivial
  cases tokens with
  | nil => cases hp
  | cons token others =>
    simp only [Parse.primary] at hp
    split at hp
    case h_6 hkind =>
      cases hp
      exact ⟨[token], rfl, .name hkind⟩
    case h_7 hkind =>
      cases hp
      exact ⟨[token], rfl, .this hkind⟩
    case h_8 hkind =>
      obtain ⟨name, _, rfl, kname, hp⟩ := expect_bind_eq_ok.mp hp
      obtain ⟨rfl, rfl⟩ := parse_pure_eq_ok.mp hp
      exact ⟨[token, name], rfl, .substitution hkind kname⟩
    case h_9 hkind =>
      obtain ⟨t, rfl, ht⟩ := creation_sound h hkind hp
      exact ⟨token :: t, rfl, ht⟩
    case h_10 hkind =>
      obtain ⟨t, rfl, ht⟩ := grouped_sound h hkind hp
      exact ⟨token :: t, rfl, ht⟩
    case h_11 => cases hp
    all_goals
      next hkind =>
      cases hp
      exact ⟨[token], rfl, .literal (by simp [hkind])⟩

lemma suffix_sound {others : List Token} {longer : Expr} {apply : Parse Expr}
    (hdone : Derives (.expr .applied) done object)
    (happly : Parse.suffix nested object first = some apply)
    (hp : apply others = (.ok longer, rest)) :
    ∃ t, others = t ++ rest ∧ Derives (.expr .applied) (done ++ first :: t) longer := by
  unfold Parse.suffix at happly
  split at happly
  · next hdot =>
    cases happly
    obtain ⟨property, _, rfl, kproperty, hp⟩ := expect_bind_eq_ok.mp hp
    obtain ⟨rfl, rfl⟩ := parse_pure_eq_ok.mp hp
    exact ⟨[property], rfl, .member hdone hdot kproperty⟩
  · next hopening =>
    cases happly
    obtain ⟨key, _, hkey, hp⟩ := parse_bind_eq_ok.mp hp
    obtain ⟨closing, _, rfl, kclosing, hp⟩ := expect_bind_eq_ok.mp hp
    obtain ⟨rfl, rfl⟩ := parse_pure_eq_ok.mp hp
    obtain ⟨t, rfl, ht, -⟩ := h _ _ _ hkey
    exact ⟨t ++ [closing], by simp, .index hdone hopening ht kclosing⟩
  · next hopening =>
    cases happly
    obtain ⟨all, _, hall, hp⟩ := parse_bind_eq_ok.mp hp
    obtain ⟨rfl, rfl⟩ := parse_pure_eq_ok.mp hp
    obtain ⟨closing, hclosing, ⟨rfl, rfl⟩ | ⟨t, rfl, ht⟩⟩ := arguments_sound h hall
    · exact ⟨[closing], rfl, .call hdone hopening hclosing⟩
    · exact ⟨t ++ [closing], by simp, .callWith hdone hopening ht hclosing⟩
  · cases happly

omit h in
lemma suffix_eq_none : Parse.suffix nested object first = none ↔ applies first.kind = false := by
  unfold Parse.suffix applies
  split <;> simp_all

lemma suffixes_sound (hdone : Derives (.expr .applied) done object)
    (hp : Parse.suffixes nested object tokens = (.ok e, rest)) :
    ∃ t, tokens = t ++ rest ∧ Derives (.expr .applied) (done ++ t) e ∧ Ends applies rest := by
  fun_induction Parse.suffixes nested object tokens generalizing done with
  | case1 object =>
    cases hp
    exact ⟨[], rfl, by simpa using hdone, trivial⟩
  | case2 object first others hnone =>
    cases hp
    exact ⟨[], rfl, by simpa using hdone, suffix_eq_none.mp hnone⟩
  | case3 object first others apply happly e after hafter => cases hp
  | case4 object first others apply happly longer after hlonger hle ih =>
    obtain ⟨t, rfl, ht⟩ := suffix_sound h hdone happly hlonger
    obtain ⟨u, rfl, hu, hrest⟩ := ih ht hp
    exact ⟨first :: (t ++ u), by simp, by simpa using hu, hrest⟩
  | case5 object first others apply happly longer after hlonger hle =>
    obtain ⟨t, rfl, -⟩ := suffix_sound h hdone happly hlonger
    exact absurd (by simp) hle

lemma postfixed_sound :
    Sound (Parse.postfixed nested) (Derives (.expr .applied)) applies := by
  intro tokens e rest hp
  obtain ⟨object, mid, hobject, hsuffixes⟩ := parse_bind_eq_ok.mp hp
  obtain ⟨t, rfl, ht, -⟩ := primary_sound h _ _ _ hobject
  obtain ⟨u, rfl, hu, hrest⟩ := suffixes_sound h (.alone ht) hsuffixes
  exact ⟨t ++ u, by simp, hu, hrest⟩

lemma operators_sound :
    Sound (Parse.operators nested) (Derives .expression) Precedence.or.continues :=
  @level_sound _ .or <| @level_sound _ .and <| @level_sound _ .equality <|
    @level_sound _ .comparison <| @level_sound _ .term <| @level_sound _ .factor <|
    unary_sound (postfixed_sound h)

end Nested

lemma expression_sound : Sound Parse.expression (Derives .expression) Precedence.or.continues := by
  intro tokens
  induction hn : tokens.length using Nat.strong_induction_on generalizing tokens with
  | _ n ih =>
    subst hn
    rw [Parse.expression.eq_def]
    refine operators_sound ?_ tokens
    intro inside e rest hp
    dsimp only at hp
    split at hp
    · next hlt => exact ih _ hlt inside rfl e rest hp
    · cases hp

end Soundness

section Completeness

def startsPrimary : Kind → Bool
  | .number | .text | .trueWord | .falseWord | .nullWord | .name | .keyword .thisWord
  | .ampersand | .keyword .createObject | .leftParen => true
  | _ => false

def Rank.starts : Rank → Kind → Bool
  | operation _ | unary => fun kind => startsPrimary kind || kind == .not || kind == .term
  | applied | primary => startsPrimary

/-- How a phrase starts. An expression that starts with a name does not go on with a colon. -/
def Headed : Phrase → List Token → Prop
  | .expr rank, t => ∃ first u, t = first :: u ∧ rank.starts first.kind = true ∧
      (first.kind = .name → Ends (· == .colon) u)
  | .argument, t | .arguments, t =>
    ∃ first u, t = first :: u ∧ (Rank.operation .or).starts first.kind = true
  | .values, _ => True

lemma headed_append {rank : Rank} (h : Headed (.expr rank) t) (hu : Ends (· == .colon) u) :
    Headed (.expr rank) (t ++ u) := by
  obtain ⟨first, v, rfl, hfirst, hcolon⟩ := h
  refine ⟨first, v ++ u, rfl, hfirst, fun hname => ?_⟩
  cases v with
  | nil => exact hu
  | cons second w => exact hcolon hname

lemma derives_headed {phrase : Phrase} {tree : phrase.Tree} (h : Derives phrase t tree) :
    Headed phrase t := by
  induction h with
  | @operand level _ _ _ ih =>
    obtain ⟨first, u, ht, hfirst, hcolon⟩ := ih
    refine ⟨first, u, ht, ?_, hcolon⟩
    cases level <;> exact hfirst
  | @operation level _ _ _ _ _ _ hoperator _ ih _ =>
    refine headed_append ih ?_
    cases level <;> simp [Ends, hoperator, Precedence.kind]
  | @signed t _ operator hoperator _ _ =>
    refine ⟨operator, t, rfl, ?_, ?_⟩
    · rcases hoperator with hkind | hkind <;> simp [hkind, Rank.starts]
    · rcases hoperator with hkind | hkind <;> simp [hkind]
  | unsigned _ ih =>
    obtain ⟨first, u, ht, hfirst, hcolon⟩ := ih
    refine ⟨first, u, ht, ?_, hcolon⟩
    have hprimary : startsPrimary first.kind = true := hfirst
    simp [Rank.starts, hprimary]
  | alone _ ih => exact ih
  | member _ hdot _ ih => exact headed_append ih (by simp [Ends, hdot])
  | index _ hopening _ _ ih _ => exact headed_append ih (by simp [Ends, hopening])
  | call _ hopening _ ih => exact headed_append ih (by simp [Ends, hopening])
  | callWith _ hopening _ _ ih _ => exact headed_append ih (by simp [Ends, hopening])
  | @literal token hkind =>
    refine ⟨token, [], rfl, ?_, fun _ => trivial⟩
    rcases hkind with hkind | hkind | hkind | hkind | hkind <;>
      simp [hkind, Rank.starts, startsPrimary]
  | @name token hkind =>
    exact ⟨token, [], rfl, by simp [hkind, Rank.starts, startsPrimary], fun _ => trivial⟩
  | @this token hkind =>
    exact ⟨token, [], rfl, by simp [hkind, Rank.starts, startsPrimary], fun _ => trivial⟩
  | @substitution mark token hmark _ =>
    exact ⟨mark, [token], rfl, by simp [hmark, Rank.starts, startsPrimary], by simp [hmark]⟩
  | @create t keyword opening prototype closing _ hkeyword _ _ _ _ _ =>
    exact ⟨keyword, _, rfl, by simp [hkeyword, Rank.starts, startsPrimary], by simp [hkeyword]⟩
  | @grouped t _ opening closing hopening _ _ _ =>
    exact ⟨opening, _, rfl, by simp [hopening, Rank.starts, startsPrimary], by simp [hopening]⟩
  | positional _ ih =>
    obtain ⟨first, u, ht, hfirst, -⟩ := ih
    exact ⟨first, u, ht, hfirst⟩
  | @labelled t _ label colon hlabel _ _ _ =>
    exact ⟨label, colon :: t, rfl, by simp [hlabel, Rank.starts, startsPrimary]⟩
  | lastArgument _ ih => exact ih
  | moreArguments _ _ _ ih _ =>
    obtain ⟨first, u, rfl, hfirst⟩ := ih
    exact ⟨first, _, rfl, hfirst⟩
  | noValues => trivial
  | moreValues _ _ _ _ _ => trivial

variable {nested : Parse Expr}

/-- What reading makes of the tokens of a phrase and of the rest behind them. An operation and an
applied expression may go on in the rest. -/
def Reads (nested : Parse Expr) : (phrase : Phrase) → List Token → phrase.Tree → Prop
  | .expr (.operation level), t, e => ∀ rest, Ends level.operand.continues rest →
      level.read nested (t ++ rest) =
        Parse.chain (· == level.kind) level.join (level.operand.read nested) e rest
  | .expr .unary, t, e => ∀ rest, Ends applies rest →
      Parse.unary nested (t ++ rest) = (.ok e, rest)
  | .expr .applied, t, e => ∀ rest,
      Parse.postfixed nested (t ++ rest) = Parse.suffixes nested e rest
  | .expr .primary, t, e => ∀ rest, Parse.primary nested (t ++ rest) = (.ok e, rest)
  | .argument, t, a => ∀ rest, Ends Precedence.or.continues rest → Ends (· == .colon) rest →
      Parse.argument nested (t ++ rest) = (.ok a, rest)
  | .arguments, t, all => ∀ rest, Ends Precedence.or.continues rest → Ends (· == .colon) rest →
      Ends (· == .comma) rest →
      Parse.commaList (Parse.argument nested) (t ++ rest) = (.ok all, rest)
  | .values, t, values => ∀ rest, Ends Precedence.or.continues rest → Ends (· == .comma) rest →
      Parse.commaTail nested (t ++ rest) = (.ok values, rest)

lemma ends_level {level : Precedence} : Ends level.continues rest ↔
    Ends (· == level.kind) rest ∧ Ends level.operand.continues rest := by
  cases rest with
  | nil => simp [Ends]
  | cons next others =>
    rw [Ends, level_continues, Bool.or_eq_false_iff]
    rfl

lemma chain_ends {operators : Kind → Bool} {join : Expr → Token → Expr → Expr}
    (hends : Ends operators rest) : Parse.chain operators join p left rest = (.ok left, rest) := by
  cases rest with
  | nil => simp [Parse.chain]
  | cons next others =>
    have hnext : operators next.kind = false := hends
    simp [Parse.chain, hnext]

lemma suffixes_ends (hends : Ends applies rest) :
    Parse.suffixes nested object rest = (.ok object, rest) := by
  cases rest with
  | nil => simp [Parse.suffixes]
  | cons next others =>
    rw [Parse.suffixes, suffix_eq_none.mpr hends]

lemma commaTail_ends {α : Type} {item : Parse α} (hends : Ends (· == .comma) rest) :
    Parse.commaTail item rest = (.ok [], rest) := by
  cases rest with
  | nil => simp [Parse.commaTail]
  | cons next others =>
    have hnext : next.kind ≠ .comma := by simpa [Ends] using hends
    simp [Parse.commaTail, hnext]

lemma chain_step {operators : Kind → Bool} {join : Expr → Token → Expr → Expr} {right : Expr}
    {operator : Token} (hoperator : operators operator.kind = true)
    (hp : p (u ++ rest) = (.ok right, rest)) :
    Parse.chain operators join p left (operator :: (u ++ rest)) =
      Parse.chain operators join p (join left operator right) rest := by
  rw [Parse.chain.eq_def]
  simp [hoperator, hp]

lemma suffixes_step {longer : Expr}
    (hp : (Parse.suffix nested object first).map (· (u ++ rest)) = some (.ok longer, rest)) :
    Parse.suffixes nested object (first :: (u ++ rest)) =
      Parse.suffixes nested longer rest := by
  obtain ⟨apply, happly, hp⟩ := Option.map_eq_some_iff.mp hp
  rw [Parse.suffixes.eq_def]
  simp [happly, hp]

lemma reads_closed {rank : Rank} {t rest : List Token} {e : Expr}
    (h : Reads nested (.expr rank) t e) (hends : Ends rank.continues rest) :
    rank.read nested (t ++ rest) = (.ok e, rest) := by
  cases rank with
  | operation level =>
    obtain ⟨hkind, hoperand⟩ := ends_level.mp hends
    exact (h rest hoperand).trans (chain_ends hkind)
  | unary => exact h rest hends
  | applied => exact (h rest).trans (suffixes_ends hends)
  | primary => exact h rest

lemma expect_ok {message : String} (h : token.kind = kind) :
    Parse.expect kind message (token :: rest) = (.ok token, rest) :=
  expect_eq_ok.mpr ⟨rfl, h⟩

lemma sees_rightParen_false (h : (Rank.operation .or).starts first.kind = true) :
    Parse.sees .rightParen (first :: rest) = (.ok false, first :: rest) := by
  refine sees_eq_false.mpr ⟨rfl, ?_⟩
  suffices first.kind ≠ .rightParen by simpa [Ends] using this
  intro hkind
  simp [hkind, Rank.starts, startsPrimary] at h

lemma argument_positional (hhead : Headed .expression t) (hp : nested (t ++ rest) = (.ok e, rest))
    (hcolon : Ends (· == .colon) rest) :
    Parse.argument nested (t ++ rest) = (.ok ⟨none, e⟩, rest) := by
  obtain ⟨first, u, rfl, -, hname⟩ := hhead
  have hvalue : (do return ⟨none, ← nested⟩ : Parse (Argument Expr)) (first :: u ++ rest) =
      (.ok ⟨none, e⟩, rest) := parse_bind_ok hp
  unfold Parse.argument
  split
  · next label colon others heq =>
    rw [if_neg]
    · exact hvalue
    · rintro ⟨hlabel, hkind⟩
      cases u with
      | nil =>
        cases heq
        simp [Ends, hkind] at hcolon
      | cons second w =>
        cases heq
        simpa [Ends, hkind] using hname hlabel
  · exact hvalue

lemma arguments_closed {closing : Token} {all : List (Argument Expr)} (hhead : Headed .arguments t)
    (hclosing : closing.kind = .rightParen)
    (hp : Parse.commaList (Parse.argument nested) (t ++ closing :: rest) =
      (.ok all, closing :: rest)) :
    Parse.arguments nested (t ++ closing :: rest) = (.ok all, rest) := by
  obtain ⟨first, u, rfl, hfirst⟩ := hhead
  refine (parse_bind_ok (sees_rightParen_false hfirst)).trans ?_
  exact (parse_bind_ok hp).trans (parse_bind_ok (expect_ok hclosing))

lemma grouped_closed {closing : Token} (hhead : Headed .expression t)
    (hclosing : closing.kind = .rightParen)
    (hp : nested (t ++ closing :: rest) = (.ok e, closing :: rest)) :
    Parse.grouped nested (t ++ closing :: rest) = (.ok e, rest) := by
  obtain ⟨first, u, rfl, hfirst, -⟩ := hhead
  refine (parse_bind_ok (sees_rightParen_false hfirst)).trans ?_
  exact (parse_bind_ok hp).trans (parse_bind_ok (expect_ok hclosing))

section Fixed

variable (hnested : nested = Parse.operators nested)
  (halike : ∀ bound, Alike [] bound nested nested)

include hnested

lemma nested_closed (h : Reads nested .expression t e) (hends : Ends Precedence.or.continues rest) :
    nested (t ++ rest) = (.ok e, rest) := by
  rw [hnested]
  exact @reads_closed nested (.operation .or) t rest e h hends

include halike in
lemma derives_reads {phrase : Phrase} {tree : phrase.Tree} (h : Derives phrase t tree) :
    Reads nested phrase t tree := by
  induction h with
  | @operand level t e _ ih =>
    intro rest hends
    rw [level_read]
    exact parse_bind_ok (reads_closed ih hends)
  | @operation level t u left right operator _ hoperator _ ihleft ihright =>
    intro rest hends
    have hopened : Ends level.operand.continues (operator :: (u ++ rest)) := by
      rw [Ends, hoperator]
      exact operand_continues_kind level
    rw [List.append_assoc, List.cons_append, ihleft _ hopened]
    exact chain_step (by simp [hoperator]) (reads_closed ihright hends)
  | @signed t right operator hoperator _ ih =>
    intro rest hends
    rw [List.cons_append, Parse.unary, if_pos hoperator, ih rest hends]
  | @unsigned t e hd ih =>
    intro rest hends
    obtain ⟨first, u, rfl, hfirst, -⟩ := derives_headed hd
    have hsign : ¬(first.kind = .not ∨ first.kind = .term) := by
      rintro (hkind | hkind) <;> simp [hkind, Rank.starts, startsPrimary] at hfirst
    rw [List.cons_append, Parse.unary, if_neg hsign]
    exact (ih rest).trans (suffixes_ends hends)
  | alone _ ih => exact fun rest => parse_bind_ok (ih rest)
  | @member t object dot property _ hdot hproperty ih =>
    intro rest
    rw [List.append_assoc, ih]
    refine suffixes_step (u := [property]) ?_
    simp only [Parse.suffix, hdot]
    exact congrArg some (parse_bind_ok (expect_ok hproperty))
  | @index t u object key opening closing _ hopening _ hclosing ih ihkey =>
    intro rest
    have hkey : nested (u ++ closing :: rest) = (.ok key, closing :: rest) :=
      nested_closed hnested ihkey
        (by simp [Ends, hclosing, Precedence.continues, Precedence.kinds, applies])
    rw [List.append_assoc, List.cons_append, ih]
    refine suffixes_step ?_
    simp only [Parse.suffix, hopening, List.append_assoc]
    exact congrArg some ((parse_bind_ok hkey).trans (parse_bind_ok (expect_ok hclosing)))
  | @call t callee opening closing _ hopening hclosing ih =>
    intro rest
    have hsees : Parse.sees .rightParen (closing :: rest) = (.ok true, closing :: rest) :=
      sees_eq_true.mpr ⟨rfl, closing, rest, rfl, hclosing⟩
    have hnone : Parse.arguments nested (closing :: rest) = (.ok [], rest) :=
      (parse_bind_ok hsees).trans (parse_bind_ok (expect_ok hclosing))
    rw [List.append_assoc, ih]
    refine suffixes_step (u := [closing]) ?_
    simp only [Parse.suffix, hopening]
    exact congrArg some (parse_bind_ok hnone)
  | @callWith t u callee arguments opening closing _ hopening hd hclosing ih ihd =>
    intro rest
    have hall : Parse.arguments nested (u ++ closing :: rest) = (.ok arguments, rest) :=
      arguments_closed (derives_headed hd) hclosing (ihd _
        (by simp [Ends, hclosing, Precedence.continues, Precedence.kinds, applies])
        (by simp [Ends, hclosing]) (by simp [Ends, hclosing]))
    rw [List.append_assoc, List.cons_append, ih]
    refine suffixes_step ?_
    simp only [Parse.suffix, hopening, List.append_assoc]
    exact congrArg some (parse_bind_ok hall)
  | @literal token hkind =>
    intro rest
    rcases hkind with hkind | hkind | hkind | hkind | hkind <;> simp [Parse.primary, hkind]
  | name hkind => exact fun rest => by simp [Parse.primary, hkind]
  | this hkind => exact fun rest => by simp [Parse.primary, hkind]
  | @substitution mark token hmark hkind =>
    intro rest
    simp only [List.cons_append, Parse.primary, hmark]
    exact parse_bind_ok (expect_ok hkind)
  | @create t keyword opening prototype closing values hkeyword hopening hprototype _ hclosing ih =>
    intro rest
    have hvalues := ih (closing :: rest)
      (by simp [Ends, hclosing, Precedence.continues, Precedence.kinds, applies]) (by simp [Ends, hclosing])
    simp only [List.cons_append, Parse.primary, hkeyword, List.append_assoc]
    exact (parse_bind_ok (expect_ok hopening)).trans <|
      (parse_bind_ok (expect_ok hprototype)).trans <|
      (parse_bind_ok hvalues).trans (parse_bind_ok (expect_ok hclosing))
  | @grouped t e opening closing hopening hd hclosing ih =>
    intro rest
    simp only [List.cons_append, Parse.primary, hopening, List.append_assoc]
    exact grouped_closed (derives_headed hd) hclosing (nested_closed hnested ih
      (by simp [Ends, hclosing, Precedence.continues, Precedence.kinds, applies]))
  | positional hd ih =>
    intro rest hends hcolon
    exact argument_positional (derives_headed hd) (nested_closed hnested ih hends) hcolon
  | @labelled t e label colon hlabel hcolon _ ih =>
    intro rest hends _
    simp only [List.cons_append, Parse.argument, hlabel, hcolon]
    exact parse_bind_ok (nested_closed hnested ih hends)
  | lastArgument _ ih =>
    intro rest hends hcolon hcomma
    exact (parse_bind_ok (ih rest hends hcolon)).trans (parse_bind_ok (commaTail_ends hcomma))
  | @moreArguments t u argument arguments comma _ hcomma _ ih ihrest =>
    intro rest hends hcolon hlast
    have hfirst := ih (comma :: (u ++ rest))
      (by simp [Ends, hcomma, Precedence.continues, Precedence.kinds, applies]) (by simp [Ends, hcomma])
    rw [List.append_assoc, List.cons_append]
    refine (parse_bind_ok hfirst).trans (parse_bind_ok ?_)
    rw [commaTail_cons (alike_argument (halike _)) comma (Nat.lt_succ_self _), if_pos hcomma]
    exact ihrest rest hends hcolon hlast
  | noValues => exact fun rest _ hcomma => commaTail_ends hcomma
  | @moreValues t u value values comma hcomma _ hd ih ihrest =>
    intro rest hends hlast
    have hmore : Ends Precedence.or.continues (u ++ rest) := by
      cases hd with
      | noValues => exact hends
      | moreValues hcomma => simp [Ends, hcomma, Precedence.continues, Precedence.kinds, applies]
    rw [List.cons_append, List.append_assoc, commaTail_cons (halike _) comma (Nat.lt_succ_self _),
      if_pos hcomma]
    exact (parse_bind_ok (nested_closed hnested ih hmore)).trans
      (parse_bind_ok (ihrest rest hends hlast))

end Fixed

lemma expression_closed {t rest : List Token} {e : Expr} (h : Derives .expression t e)
    (hends : Ends Precedence.or.continues rest) : Parse.expression (t ++ rest) = (.ok e, rest) :=
  nested_closed expression_eq (derives_reads expression_eq (fun _ => alike_expression) h) hends

end Completeness

/-- A token of a kind, without a place in a text. -/
def bare (kind : Kind) : Token :=
  ⟨kind, .generic, "", none, .start⟩

lemma derives_of_primary (h : Derives (.expr .primary) t e) (rank : Rank) :
    Derives (.expr rank) t e := by
  have hunary : Derives (.expr .unary) t e := .unsigned (.alone h)
  have hfactor : Derives (.expr (.operation .factor)) t e := .operand hunary
  have hterm : Derives (.expr (.operation .term)) t e := .operand hfactor
  have hcomparison : Derives (.expr (.operation .comparison)) t e := .operand hterm
  have hequality : Derives (.expr (.operation .equality)) t e := .operand hcomparison
  have hand : Derives (.expr (.operation .and)) t e := .operand hequality
  rcases rank with (_ | _ | _ | _ | _ | _) | _ | _ | _
  · exact .operand hand
  · exact hand
  · exact hequality
  · exact hcomparison
  · exact hterm
  · exact hfactor
  · exact hunary
  · exact .alone h
  · exact h

/-- Reading an expression accepts exactly what the grammar derives, where no token follows that goes
on with an expression. So no tokens stand for two expressions. -/
theorem expression_accepts_derivations :
    (∀ tokens rest e, Parse.expression tokens = (.ok e, rest) ↔
      ∃ t, tokens = t ++ rest ∧ Derives .expression t e ∧ Ends Precedence.or.continues rest) ∧
    ∀ t e e', Derives .expression t e → Derives .expression t e' → e = e' := by
  refine ⟨fun tokens rest e => ⟨expression_sound tokens e rest, ?_⟩, fun t e e' h h' => ?_⟩
  · rintro ⟨t, rfl, ht, hrest⟩
    exact expression_closed ht hrest
  · have hread := @expression_closed t [] e h trivial
    rw [@expression_closed t [] e' h' trivial] at hread
    cases hread
    rfl

/-- `1 + "a" * x` is a sum, whatever follows it in the next line. -/
theorem sum_of_product_derived :
    let tokens := [bare .number, bare .term, bare .text, bare .factor, bare .name]
    let sum := Expr.binary (.literal (bare .number)) (bare .term)
      (.binary (.literal (bare .text)) (bare .factor) (.name (bare .name)))
    Derives .expression tokens sum ∧
      Parse.expression (tokens ++ [bare .separator, bare .term]) =
        (.ok sum, [bare .separator, bare .term]) ∧
      ∀ e, Derives .expression tokens e → e = sum := by
  intro tokens sum
  have hproduct : Derives (.expr (.operation .factor)) [bare .text, bare .factor, bare .name]
      (.binary (.literal (bare .text)) (bare .factor) (.name (bare .name))) :=
    @Derives.operation .factor [bare .text] [bare .name] _ _ _
      (derives_of_primary (.literal (by decide)) _) rfl (derives_of_primary (.name rfl) _)
  have hsum : Derives (.expr (.operation .term)) tokens sum :=
    @Derives.operation .term [bare .number] _ _ _ _
      (derives_of_primary (.literal (by decide)) _) rfl hproduct
  have hderived : Derives .expression tokens sum :=
    @Derives.operand .or _ _ (@Derives.operand .and _ _ (@Derives.operand .equality _ _
      (@Derives.operand .comparison _ _ hsum)))
  refine ⟨hderived, ?_, fun e he => ?_⟩
  · exact (expression_accepts_derivations.1 _ _ _).mpr ⟨tokens, rfl, hderived, rfl⟩
  · exact expression_accepts_derivations.2 tokens e sum he hderived

end XBase.Proofs
