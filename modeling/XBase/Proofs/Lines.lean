import XBase.Proofs.Progress

/-!
# The statements of one line

The grammar of the statements that stand in one line, as rules, and the proof that reading accepts
exactly what the rules derive. A line holds no separator but the one at its end, and its parentheses
are balanced, which is why looking ahead for a closing parenthesis never leaves the line.
-/

namespace XBase.Proofs

variable {t u tokens rest : List Token} {sep : Token} {message : String} {e : Expr}
  {value : Option Expr}

section Shape

/-- The kinds of tokens that give a line its shape. -/
def shapes : Kind → Bool
  | .leftParen | .rightParen | .separator => true
  | _ => false

/-- The kinds of tokens that say what the next token has to be. -/
def demands : Kind → Bool
  | .factor | .keyword .importWord => true
  | _ => false

/-- Tokens of a phrase: there is no separator among them, every parenthesis has its partner, and
behind a factor stands what can be an operand. -/
inductive Phrased : List Token → Prop
  | nil : Phrased []
  | token {token : Token} {t : List Token} (hplain : (shapes token.kind || demands token.kind) = false)
      (h : Phrased t) : Phrased (token :: t)
  | factor {operator first : Token} {t : List Token} (hoperator : operator.kind = .factor)
      (hfactor : first.kind ≠ .factor) (hassign : first.kind ≠ .compoundAssign)
      (h : Phrased (first :: t)) : Phrased (operator :: first :: t)
  | group {opening closing : Token} {t u : List Token} (hopening : opening.kind = .leftParen)
      (ht : Phrased t) (hclosing : closing.kind = .rightParen) (hu : Phrased u) :
      Phrased (opening :: (t ++ closing :: u))

lemma Phrased.append (ht : Phrased t) (hu : Phrased u) : Phrased (t ++ u) := by
  induction ht with
  | nil => exact hu
  | token hplain _ ih => exact .token hplain ih
  | factor hoperator hfactor hassign _ ih => exact .factor hoperator hfactor hassign ih
  | group hopening ht hclosing _ _ ih =>
    rw [List.cons_append, List.append_assoc]
    exact .group hopening ht hclosing ih

lemma Phrased.not_separator (h : Phrased t) {token : Token} (hmem : token ∈ t) :
    token.kind ≠ .separator := by
  induction h with
  | nil => cases hmem
  | token hplain _ ih =>
    rcases List.mem_cons.mp hmem with rfl | hmem
    · intro hkind
      simp [hkind, shapes] at hplain
    · exact ih hmem
  | factor hoperator _ _ _ ih =>
    rcases List.mem_cons.mp hmem with rfl | hmem
    · simp [hoperator]
    · exact ih hmem
  | group hopening _ hclosing _ iht ihu =>
    simp only [List.mem_cons, List.mem_append] at hmem
    rcases hmem with rfl | hmem | rfl | hmem
    · simp [hopening]
    · exact iht hmem
    · simp [hclosing]
    · exact ihu hmem

lemma ne_of_starts {rank : Rank} {kind other : Kind} (h : rank.starts kind = true)
    (hother : rank.starts other = false) : kind ≠ other := by
  rintro rfl
  simp [h] at hother

lemma derives_phrased {phrase : Phrase} {tree : phrase.Tree} (h : Derives phrase t tree) :
    Phrased t := by
  induction h with
  | operand _ ih => exact ih
  | @operation level _ _ _ _ _ _ hoperator hright ih ih' =>
    refine ih.append ?_
    cases level with
    | factor =>
      obtain ⟨first, u, rfl, hfirst, -⟩ := derives_headed hright
      exact .factor hoperator (ne_of_starts hfirst rfl) (ne_of_starts hfirst rfl) ih'
    | or | and | equality | comparison | term => exact .token (hoperator ▸ rfl) ih'
  | signed hoperator _ ih =>
    refine .token ?_ ih
    rcases hoperator with hkind | hkind <;> rw [hkind] <;> rfl
  | unsigned _ ih => exact ih
  | alone _ ih => exact ih
  | member _ hdot hproperty ih =>
    exact ih.append (.token (hdot ▸ rfl) (.token (hproperty ▸ rfl) .nil))
  | index _ hopening _ hclosing ih ihkey =>
    exact ih.append (.token (hopening ▸ rfl) (ihkey.append (.token (hclosing ▸ rfl) .nil)))
  | call _ hopening hclosing ih =>
    exact ih.append (@Phrased.group _ _ [] [] hopening .nil hclosing .nil)
  | callWith _ hopening _ hclosing ih iharguments =>
    exact ih.append (.group hopening iharguments hclosing .nil)
  | literal hkind =>
    refine .token ?_ .nil
    rcases hkind with hkind | hkind | hkind | hkind | hkind <;> rw [hkind] <;> rfl
  | name hkind => exact .token (hkind ▸ rfl) .nil
  | this hkind => exact .token (hkind ▸ rfl) .nil
  | substitution hmark hkind => exact .token (hmark ▸ rfl) (.token (hkind ▸ rfl) .nil)
  | @create t keyword opening prototype closing _ hkeyword hopening hprototype _ hclosing ih =>
    exact .token (hkeyword ▸ rfl) (@Phrased.group opening closing (prototype :: t) [] hopening
      (.token (hprototype ▸ rfl) ih) hclosing .nil)
  | grouped hopening _ hclosing ih => exact .group hopening ih hclosing .nil
  | positional _ ih => exact ih
  | labelled hlabel hcolon _ ih => exact .token (hlabel ▸ rfl) (.token (hcolon ▸ rfl) ih)
  | lastArgument _ ih => exact ih
  | moreArguments _ hcomma _ ih ihrest => exact ih.append (.token (hcomma ▸ rfl) ihrest)
  | noValues => exact .nil
  | moreValues hcomma _ _ ih ihrest => exact .token (hcomma ▸ rfl) (ih.append ihrest)

/-- Whether a parenthesis opens here that closes before a token that satisfies `next`. -/
def opens (next : Option Kind → Bool) (tokens : List Token) : Bool :=
  tokens.head?.any (·.kind == .leftParen) && Parse.closesBefore next 0 tokens

lemma opensBefore_eq (next : Option Kind → Bool) (tokens : List Token) :
    Parse.opensBefore next tokens = (.ok (opens next tokens), tokens) :=
  rfl

/-- Looking ahead passes over a phrase. -/
lemma closesBefore_phrased (h : Phrased t) (next : Option Kind → Bool) {depth : Nat}
    (hdepth : 0 < depth) (rest : List Token) :
    Parse.closesBefore next depth (t ++ rest) = Parse.closesBefore next depth rest := by
  induction h generalizing depth rest with
  | nil => rfl
  | token hplain _ ih =>
    rw [List.cons_append, Parse.closesBefore]
    split <;> simp_all [shapes]
  | factor hoperator _ _ _ ih =>
    rw [List.cons_append, Parse.closesBefore, hoperator]
    exact ih hdepth rest
  | group hopening _ hclosing _ iht ihu =>
    rw [List.cons_append, Parse.closesBefore, hopening, List.append_assoc,
      iht (Nat.succ_pos depth), List.cons_append, Parse.closesBefore, hclosing]
    simp only
    rw [if_neg (by omega)]
    exact ihu hdepth rest

lemma opens_group {opening closing : Token} {t : List Token} (hopening : opening.kind = .leftParen)
    (ht : Phrased t) (hclosing : closing.kind = .rightParen) (next : Option Kind → Bool)
    (rest : List Token) :
    opens next (opening :: (t ++ closing :: rest)) = next (rest.head?.map Token.kind) := by
  rw [opens, Parse.closesBefore, hopening]
  simp only [List.head?_cons, Option.any_some, hopening, beq_self_eq_true, Bool.true_and]
  rw [closesBefore_phrased ht next Nat.one_pos, Parse.closesBefore, hclosing]
  simp

/-- Looking ahead does not leave the line. -/
lemma closesBefore_line (hsep : sep.kind = .separator) (next : Option Kind → Bool) (depth : Nat)
    (t rest : List Token) :
    Parse.closesBefore next depth (t ++ sep :: rest) =
      Parse.closesBefore next depth (t ++ [sep]) := by
  induction t generalizing depth with
  | nil => simp [Parse.closesBefore, hsep]
  | cons token t ih =>
    have hhead : (t ++ sep :: rest).head? = (t ++ [sep]).head? := by cases t <;> rfl
    simp only [List.cons_append, Parse.closesBefore, ih, hhead]

lemma opens_line (hsep : sep.kind = .separator) (next : Option Kind → Bool) (t rest : List Token) :
    opens next (t ++ sep :: rest) = opens next (t ++ [sep]) := by
  have hhead : (t ++ sep :: rest).head? = (t ++ [sep]).head? := by cases t <;> rfl
  rw [opens, opens, closesBefore_line hsep, hhead]

/-- Tokens that end with a separator. -/
def Open (tokens : List Token) : Prop :=
  ∃ last ∈ tokens.getLast?, last.kind = .separator

lemma Open.behind {t u : List Token} (h : Open (t ++ u))
    (ht : ∀ token ∈ t, token.kind ≠ .separator) : Open u := by
  obtain ⟨last, hlast, hkind⟩ := h
  rw [List.getLast?_append] at hlast
  cases hu : u.getLast? with
  | none =>
    rw [hu, Option.none_or] at hlast
    exact absurd hkind (ht last (List.mem_of_mem_getLast? hlast))
  | some other =>
    rw [hu, Option.some_or] at hlast
    cases hlast
    exact ⟨last, hu, hkind⟩

lemma Open.of_append (h : Open (t ++ u)) (ht : Phrased t) : Open u :=
  h.behind fun _ => ht.not_separator

lemma Open.of_cons {token : Token} (h : Open (token :: u)) (hkind : token.kind ≠ .separator) :
    Open u :=
  @Open.behind [token] u h (by simpa using hkind)

lemma endOfStatement_eq_ok (h : Open tokens) :
    Parse.endOfStatement message tokens = (.ok (), rest) ↔
      ∃ sep, tokens = sep :: rest ∧ sep.kind = .separator := by
  cases tokens with
  | nil =>
    obtain ⟨last, hlast, -⟩ := h
    cases hlast
  | cons token others =>
    rw [Parse.endOfStatement]
    by_cases hkind : token.kind = .separator
    · simp [hkind]
    · simp [hkind]

lemma endOfStatement_ok (h : sep.kind = .separator) :
    Parse.endOfStatement message (sep :: rest) = (.ok (), rest) := by
  simp [Parse.endOfStatement, h]

end Shape

section Items

variable {α : Type} {p : Parse α} {D : List Token → α → Prop} {more : Kind → Bool}

/-- Where no token of some kinds follows, a grammar accepts what `D` derives. -/
def Complete (p : Parse α) (D : List Token → α → Prop) (more : Kind → Bool) : Prop :=
  ∀ t a rest, D t a → Ends more rest → p (t ++ rest) = (.ok a, rest)

inductive Listed (D : List Token → α → Prop) : List Token → List α → Prop
  | mk {t u : List Token} {a : α} {items : List α} (h : D t a) (hrest : Trailing D u items) :
      Listed D (t ++ u) (a :: items)

lemma ends_or {other : Kind → Bool} :
    Ends (fun kind => more kind || other kind) rest ↔ Ends more rest ∧ Ends other rest := by
  cases rest <;> simp [Ends]

lemma commaList_sound (h : Sound p D more) :
    Sound (Parse.commaList p) (Listed D) fun kind => more kind || kind == .comma := by
  intro tokens items rest hp
  obtain ⟨a, mid, ha, hp⟩ := parse_bind_eq_ok.mp hp
  obtain ⟨others, _, hothers, hp⟩ := parse_bind_eq_ok.mp hp
  obtain ⟨rfl, rfl⟩ := parse_pure_eq_ok.mp hp
  obtain ⟨t, rfl, ht, hmid⟩ := h _ _ _ ha
  obtain ⟨u, rfl, hu, hmore, hcomma⟩ := commaTail_sound h hothers
  exact ⟨t ++ u, by simp, .mk ht hu, ends_or.mpr ⟨hmore hmid, hcomma⟩⟩

lemma trailing_ends (hcomma : more .comma = false) {items : List α} (h : Trailing D u items)
    (hrest : Ends more rest) : Ends more (u ++ rest) := by
  cases h with
  | nil => exact hrest
  | cons hkind => simpa [Ends, hkind] using hcomma

lemma commaTail_complete (h : Complete p D more) (hcomma : more .comma = false) :
    Complete (Parse.commaTail p) (Trailing D) fun kind => more kind || kind == .comma := by
  intro t items rest ht hends
  obtain ⟨hmore, hlast⟩ := ends_or.mp hends
  induction ht with
  | nil => exact commaTail_ends hlast
  | @cons comma t u a items hkind ha hu ih =>
    have hfirst := h t a (u ++ rest) ha (trailing_ends hcomma hu hmore)
    rw [List.cons_append, List.append_assoc, Parse.commaTail.eq_def]
    simp [hkind, hfirst, ih]

lemma commaList_complete (h : Complete p D more) (hcomma : more .comma = false) :
    Complete (Parse.commaList p) (Listed D) fun kind => more kind || kind == .comma := by
  rintro _ _ rest ⟨ha, hu⟩ hends
  obtain ⟨hmore, -⟩ := ends_or.mp hends
  rw [List.append_assoc]
  refine parse_then (h _ _ _ ha (trailing_ends hcomma hu hmore)) ?_
  exact parse_bind_ok (commaTail_complete h hcomma _ _ rest hu hends)

lemma listed_phrased (h : ∀ t a, D t a → Phrased t) {items : List α} (ht : Listed D t items) :
    Phrased t := by
  obtain ⟨ha, hu⟩ := ht
  refine (h _ _ ha).append ?_
  clear ha
  induction hu with
  | nil => exact .nil
  | cons hcomma hb _ ih => exact .token (hcomma ▸ rfl) ((h _ _ hb).append ih)

/-- The kinds of tokens that go on with a value that a condition may follow. -/
def continuesConditional (kind : Kind) : Bool :=
  Precedence.or.continues kind || kind == .keyword .ifWord || kind == .keyword .elseWord

/-- An expression that a condition may follow. -/
inductive Conditional : List Token → Expr → Prop
  | always {t : List Token} {e : Expr} (h : Derives .expression t e) : Conditional t e
  | when {t u : List Token} {keyword : Token} {consequence condition : Expr}
      (h : Derives .expression t consequence) (hkeyword : keyword.kind = .keyword .ifWord)
      (hcondition : Derives .expression u condition) :
      Conditional (t ++ keyword :: u) (.conditional keyword condition consequence none)
  | choice {t u v : List Token} {keyword other : Token} {consequence condition alternative : Expr}
      (h : Derives .expression t consequence) (hkeyword : keyword.kind = .keyword .ifWord)
      (hcondition : Derives .expression u condition) (hother : other.kind = .keyword .elseWord)
      (halternative : Derives .expression v alternative) :
      Conditional (t ++ keyword :: (u ++ other :: v))
        (.conditional keyword condition consequence (some alternative))

lemma conditional_sound : Sound Parse.conditional Conditional Precedence.or.continues := by
  intro tokens e rest hp
  obtain ⟨consequence, mid, hconsequence, hp⟩ := parse_bind_eq_ok.mp hp
  obtain ⟨found, mid', hfound, hp⟩ := parse_bind_eq_ok.mp hp
  obtain ⟨t, rfl, ht, hmid⟩ := expression_sound _ _ _ hconsequence
  cases found with
  | none =>
    obtain ⟨rfl, -⟩ := accept_eq_none.mp hfound
    obtain ⟨rfl, rfl⟩ := parse_pure_eq_ok.mp hp
    exact ⟨t, rfl, .always ht, hmid⟩
  | some keyword =>
    obtain ⟨condition, last, hcondition, hp⟩ := parse_bind_eq_ok.mp hp
    obtain ⟨other, last', hother, hp⟩ := parse_bind_eq_ok.mp hp
    obtain ⟨u, hmid', hu, hlast⟩ := expression_sound _ _ _ hcondition
    obtain ⟨rfl, kkeyword⟩ := accept_eq_some.mp hfound
    subst hmid'
    cases other with
    | none =>
      obtain ⟨rfl, rfl⟩ := parse_pure_eq_ok.mp hp
      obtain ⟨rfl, -⟩ := accept_eq_none.mp hother
      exact ⟨t ++ keyword :: u, by simp, .when ht (by simpa using kkeyword) hu, hlast⟩
    | some other =>
      obtain ⟨alternative, _, halternative, hp⟩ := parse_bind_eq_ok.mp hp
      obtain ⟨rfl, rfl⟩ := parse_pure_eq_ok.mp hp
      obtain ⟨v, rfl, hv, hrest⟩ := expression_sound _ _ _ halternative
      obtain ⟨rfl, kother⟩ := accept_eq_some.mp hother
      exact ⟨t ++ keyword :: (u ++ other :: v), by simp,
        .choice ht (by simpa using kkeyword) hu (by simpa using kother) hv, hrest⟩

lemma conditional_complete : Complete Parse.conditional Conditional continuesConditional := by
  intro t e rest ht hends
  obtain ⟨hboth, helse⟩ := ends_or.mp hends
  obtain ⟨hmore, hif⟩ := ends_or.mp hboth
  cases ht with
  | always h =>
    refine parse_then (expression_closed h hmore) ?_
    exact parse_bind_ok (accept_eq_none.mpr ⟨rfl, hif⟩)
  | @when t u keyword consequence condition h hkeyword hcondition =>
    rw [List.append_assoc, List.cons_append]
    refine parse_then (expression_closed h (ends_at hkeyword rfl)) ?_
    refine parse_then (accept_ok (by simp [hkeyword])) ?_
    refine parse_then (expression_closed hcondition hmore) ?_
    exact parse_bind_ok (accept_eq_none.mpr ⟨rfl, helse⟩)
  | @choice t u v keyword other consequence condition alternative h hkeyword hcondition hother hv =>
    rw [List.append_assoc, List.cons_append, List.append_assoc, List.cons_append]
    refine parse_then (expression_closed h (ends_at hkeyword rfl)) ?_
    refine parse_then (accept_ok (by simp [hkeyword])) ?_
    refine parse_then (expression_closed hcondition (ends_at hother rfl)) ?_
    refine parse_then (accept_ok (by simp [hother])) ?_
    exact parse_bind_ok (expression_closed hv hmore)

lemma conditional_phrased (h : Conditional t e) : Phrased t := by
  cases h with
  | always h => exact derives_phrased h
  | when h hkeyword hcondition =>
    exact (derives_phrased h).append (.token (hkeyword ▸ rfl) (derives_phrased hcondition))
  | choice h hkeyword hcondition hother halternative =>
    exact (derives_phrased h).append (.token (hkeyword ▸ rfl)
      ((derives_phrased hcondition).append (.token (hother ▸ rfl) (derives_phrased halternative))))

/-- `as name`, if it stands here. -/
inductive AsName : List Token → Option Token → Prop
  | absent : AsName [] none
  | present {keyword name : Token} (hkeyword : keyword.kind = .keyword .asWord)
      (hname : name.kind = .name) : AsName [keyword, name] (some name)

lemma asName_sound (message : String) :
    Sound (Parse.asName message) AsName (fun _ => false) := by
  intro tokens name rest hp
  obtain ⟨found, mid, hfound, hp⟩ := parse_bind_eq_ok.mp hp
  have hrest : Ends (fun _ => false) rest := by cases rest <;> trivial
  cases found with
  | none =>
    obtain ⟨rfl, -⟩ := accept_eq_none.mp hfound
    obtain ⟨rfl, rfl⟩ := parse_pure_eq_ok.mp hp
    exact ⟨[], rfl, .absent, hrest⟩
  | some keyword =>
    obtain ⟨token, _, rfl, kname, hp⟩ := expect_bind_eq_ok.mp hp
    obtain ⟨rfl, rfl⟩ := parse_pure_eq_ok.mp hp
    obtain ⟨rfl, kkeyword⟩ := accept_eq_some.mp hfound
    exact ⟨[keyword, token], rfl, .present (by simpa using kkeyword) kname, hrest⟩

lemma asName_complete (message : String) :
    Complete (Parse.asName message) AsName (· == .keyword .asWord) := by
  intro t name rest ht hends
  cases ht with
  | absent => exact parse_bind_ok (accept_eq_none.mpr ⟨rfl, hends⟩)
  | present hkeyword hname =>
    refine parse_then (accept_ok (by simp [hkeyword])) ?_
    exact parse_bind_ok (expect_ok hname)

lemma asName_phrased {name : Option Token} (h : AsName t name) : Phrased t := by
  cases h with
  | absent => exact .nil
  | present hkeyword hname => exact .token (hkeyword ▸ rfl) (.token (hname ▸ rfl) .nil)

/-- `= value`, if it stands here. -/
inductive Initial (D : List Token → Expr → Prop) : List Token → Option Expr → Prop
  | absent : Initial D [] none
  | present {assign : Token} {t : List Token} {e : Expr} (hassign : assign.kind = .assign)
      (h : D t e) : Initial D (assign :: t) (some e)

section Initial

variable {q : Parse Expr} {E : List Token → Expr → Prop} (make : Option Expr → α)
  {g : Option Token → Parse α}

lemma initial_sound (h : Sound q E more) (hnone : g none = pure (make none))
    (hsome : ∀ token, g (some token) = q >>= fun value => pure (make (some value))) {a : α}
    (hp : (Parse.accept (· == .assign) >>= g) tokens = (.ok a, rest)) :
    ∃ t value, tokens = t ++ rest ∧ Initial E t value ∧ make value = a := by
  obtain ⟨found, mid, hfound, hp⟩ := parse_bind_eq_ok.mp hp
  cases found with
  | none =>
    rw [hnone] at hp
    obtain ⟨rfl, rfl⟩ := parse_pure_eq_ok.mp hp
    obtain ⟨rfl, -⟩ := accept_eq_none.mp hfound
    exact ⟨[], none, rfl, .absent, rfl⟩
  | some assign =>
    rw [hsome] at hp
    obtain ⟨value, _, hvalue, hp⟩ := parse_bind_eq_ok.mp hp
    obtain ⟨rfl, rfl⟩ := parse_pure_eq_ok.mp hp
    obtain ⟨t, rfl, ht, -⟩ := h _ _ _ hvalue
    obtain ⟨rfl, kassign⟩ := accept_eq_some.mp hfound
    exact ⟨assign :: t, some value, rfl, .present (by simpa using kassign) ht, rfl⟩

lemma initial_complete (h : Complete q E more) (hnone : g none = pure (make none))
    (hsome : ∀ token, g (some token) = q >>= fun value => pure (make (some value)))
    (ht : Initial E t value) (hends : Ends more rest) (hassign : Ends (· == .assign) rest) :
    (Parse.accept (· == .assign) >>= g) (t ++ rest) = (.ok (make value), rest) := by
  cases ht with
  | absent =>
    refine parse_then (accept_eq_none.mpr ⟨rfl, hassign⟩) ?_
    rw [hnone]
    rfl
  | present hkind hvalue =>
    refine parse_then (accept_ok (by simp [hkind])) ?_
    rw [hsome]
    exact parse_bind_ok (h _ _ _ hvalue hends)

lemma initial_phrased (h : ∀ t e, E t e → Phrased t) (ht : Initial E t value) : Phrased t := by
  cases ht with
  | absent => exact .nil
  | present hassign hvalue => exact .token (hassign ▸ rfl) (h _ _ hvalue)

lemma initial_ends (ht : Initial E t value) (hrest : Ends (· == .keyword .asWord) rest) :
    Ends (· == .keyword .asWord) (t ++ rest) := by
  cases ht with
  | absent => exact hrest
  | present hassign _ => simp [Ends, hassign]

end Initial

/-- The kinds of tokens that go on with a declared name. -/
def continuesDeclarator (kind : Kind) : Bool :=
  continuesConditional kind || kind == .keyword .asWord || kind == .assign

/-- `name as type = value`. -/
inductive Declares : List Token → Declarator → Prop
  | mk {name : Token} {t u : List Token} {type : Option Token} {value : Option Expr}
      (hname : name.kind = .name) (htype : AsName t type) (hvalue : Initial Conditional u value) :
      Declares (name :: (t ++ u)) ⟨name, type, value⟩

lemma declarator_sound : Sound Parse.declarator Declares fun _ => false := by
  intro tokens declarator rest hp
  obtain ⟨name, _, rfl, kname, hp⟩ := expect_bind_eq_ok.mp hp
  obtain ⟨type, mid, htype, hp⟩ := parse_bind_eq_ok.mp hp
  obtain ⟨u, value, rfl, hu, rfl⟩ := initial_sound (fun value => ⟨name, type, value⟩)
    conditional_sound rfl (fun _ => rfl) hp
  obtain ⟨t, rfl, ht, -⟩ := asName_sound _ _ _ _ htype
  refine ⟨name :: (t ++ u), by simp, .mk kname ht hu, ?_⟩
  cases rest <;> trivial

lemma declarator_complete : Complete Parse.declarator Declares continuesDeclarator := by
  rintro _ _ rest ⟨hname, htype, hvalue⟩ hends
  obtain ⟨hboth, hassign⟩ := ends_or.mp hends
  obtain ⟨hmore, has⟩ := ends_or.mp hboth
  rw [List.cons_append, List.append_assoc]
  refine parse_then (expect_ok hname) ?_
  refine parse_then (asName_complete _ _ _ _ htype (initial_ends hvalue has)) ?_
  exact initial_complete _ conditional_complete rfl (fun _ => rfl) hvalue hmore hassign

lemma declares_phrased {declarator : Declarator} (h : Declares t declarator) : Phrased t := by
  obtain ⟨hname, htype, hvalue⟩ := h
  exact .token (hname ▸ rfl) ((asName_phrased htype).append
    (initial_phrased (fun _ _ => conditional_phrased) hvalue))

/-- A name of a destructuring declaration; its type has no effect. -/
inductive TypedName : List Token → Token → Prop
  | mk {name : Token} {t : List Token} {type : Option Token} (hname : name.kind = .name)
      (htype : AsName t type) : TypedName (name :: t) name

lemma typedName_sound : Sound Parse.typedName TypedName fun _ => false := by
  intro tokens token rest hp
  obtain ⟨name, _, rfl, kname, hp⟩ := expect_bind_eq_ok.mp hp
  obtain ⟨type, _, htype, hp⟩ := parse_bind_eq_ok.mp hp
  obtain ⟨rfl, rfl⟩ := parse_pure_eq_ok.mp hp
  obtain ⟨t, rfl, ht, hrest⟩ := asName_sound _ _ _ _ htype
  exact ⟨name :: t, rfl, .mk kname ht, hrest⟩

lemma typedName_complete : Complete Parse.typedName TypedName (· == .keyword .asWord) := by
  rintro _ _ rest ⟨hname, htype⟩ hends
  refine parse_then (expect_ok hname) ?_
  exact parse_bind_ok (asName_complete _ _ _ _ htype hends)

lemma typedName_phrased {name : Token} (h : TypedName t name) : Phrased t := by
  obtain ⟨hname, htype⟩ := h
  exact .token (hname ▸ rfl) (asName_phrased htype)

/-- The kinds of tokens that go on with a parameter. -/
def continuesParameter (kind : Kind) : Bool :=
  Precedence.or.continues kind || kind == .keyword .asWord || kind == .assign

/-- `name as alias = default`. -/
inductive Binds : List Token → Parameter → Prop
  | mk {name : Token} {t u : List Token} {otherName : Option Token} {value : Option Expr}
      (hname : name.kind = .name) (hother : AsName t otherName)
      (hvalue : Initial (Derives .expression) u value) :
      Binds (name :: (t ++ u)) ⟨name, otherName, value⟩

lemma expression_complete :
    Complete Parse.expression (Derives .expression) Precedence.or.continues :=
  fun _ _ _ h hends => expression_closed h hends

lemma parameter_sound : Sound Parse.parameter Binds fun _ => false := by
  intro tokens parameter rest hp
  obtain ⟨name, _, rfl, kname, hp⟩ := expect_bind_eq_ok.mp hp
  obtain ⟨otherName, mid, hother, hp⟩ := parse_bind_eq_ok.mp hp
  obtain ⟨u, value, rfl, hu, rfl⟩ := initial_sound (fun value => ⟨name, otherName, value⟩)
    expression_sound rfl (fun _ => rfl) hp
  obtain ⟨t, rfl, ht, -⟩ := asName_sound _ _ _ _ hother
  refine ⟨name :: (t ++ u), by simp, .mk kname ht hu, ?_⟩
  cases rest <;> trivial

lemma parameter_complete : Complete Parse.parameter Binds continuesParameter := by
  rintro _ _ rest ⟨hname, hother, hvalue⟩ hends
  obtain ⟨hboth, hassign⟩ := ends_or.mp hends
  obtain ⟨hmore, has⟩ := ends_or.mp hboth
  rw [List.cons_append, List.append_assoc]
  refine parse_then (expect_ok hname) ?_
  refine parse_then (asName_complete _ _ _ _ hother (initial_ends hvalue has)) ?_
  exact initial_complete _ expression_complete rfl (fun _ => rfl) hvalue hmore hassign

lemma binds_phrased {parameter : Parameter} (h : Binds t parameter) : Phrased t := by
  obtain ⟨hname, hother, hvalue⟩ := h
  exact .token (hname ▸ rfl) ((asName_phrased hother).append
    (initial_phrased (fun _ _ => derives_phrased) hvalue))

/-- The parameters of a function; the parentheses may be missing. -/
inductive Parameters : List Token → List Parameter → Prop
  | absent : Parameters [] []
  | none {opening closing : Token} (hopening : opening.kind = .leftParen)
      (hclosing : closing.kind = .rightParen) : Parameters [opening, closing] []
  | some {opening closing : Token} {t : List Token} {all : List Parameter}
      (hopening : opening.kind = .leftParen) (hall : Listed Binds t all)
      (hclosing : closing.kind = .rightParen) : Parameters (opening :: (t ++ [closing])) all

lemma parameters_sound : Sound Parse.parameters Parameters fun _ => false := by
  intro tokens all rest hp
  have hrest : Ends (fun _ => false) rest := by cases rest <;> trivial
  obtain ⟨found, mid, hfound, hp⟩ := parse_bind_eq_ok.mp hp
  cases found with
  | none =>
    obtain ⟨rfl, rfl⟩ := parse_pure_eq_ok.mp hp
    obtain ⟨rfl, -⟩ := accept_eq_none.mp hfound
    exact ⟨[], rfl, .absent, hrest⟩
  | some opening =>
    obtain ⟨closed, mid', hclosed, hp⟩ := parse_bind_eq_ok.mp hp
    cases closed with
    | true =>
      obtain ⟨none, _, hnone, hp⟩ := parse_bind_eq_ok.mp hp
      obtain ⟨closing, _, rfl, kclosing, hp⟩ := expect_bind_eq_ok.mp hp
      obtain ⟨rfl, rfl⟩ := parse_pure_eq_ok.mp hp
      obtain ⟨rfl, rfl⟩ := parse_pure_eq_ok.mp hnone
      obtain ⟨rfl, -⟩ := sees_eq_true.mp hclosed
      obtain ⟨rfl, kopening⟩ := accept_eq_some.mp hfound
      exact ⟨[opening, closing], rfl, .none (by simpa using kopening) kclosing, hrest⟩
    | false =>
      obtain ⟨items, _, hitems, hp⟩ := parse_bind_eq_ok.mp hp
      obtain ⟨closing, _, rfl, kclosing, hp⟩ := expect_bind_eq_ok.mp hp
      obtain ⟨rfl, rfl⟩ := parse_pure_eq_ok.mp hp
      obtain ⟨t, rfl, ht, -⟩ := commaList_sound parameter_sound _ _ _ hitems
      obtain ⟨rfl, -⟩ := sees_eq_false.mp hclosed
      obtain ⟨rfl, kopening⟩ := accept_eq_some.mp hfound
      exact ⟨opening :: (t ++ [closing]), by simp, .some (by simpa using kopening) ht kclosing,
        hrest⟩

lemma parameters_complete : Complete Parse.parameters Parameters (· == .leftParen) := by
  intro t all rest ht hends
  cases ht with
  | absent => exact parse_bind_ok (accept_eq_none.mpr ⟨rfl, hends⟩)
  | @none opening closing hopening hclosing =>
    refine parse_then (accept_ok (by simp [hopening])) ?_
    refine parse_then (sees_eq_true.mpr ⟨rfl, closing, rest, rfl, hclosing⟩) ?_
    exact parse_bind_ok (expect_ok hclosing)
  | @some opening closing t all hopening hall hclosing =>
    have hopen : Parse.sees .rightParen (t ++ closing :: rest) = (.ok false, t ++ closing :: rest) := by
      obtain ⟨⟨hname, -, -⟩, -⟩ := hall
      exact sees_eq_false.mpr ⟨rfl, by simp [Ends, hname]⟩
    rw [List.cons_append, List.append_assoc]
    refine parse_then (accept_ok (by simp [hopening])) ?_
    refine parse_then hopen ?_
    refine parse_then (commaList_complete parameter_complete rfl _ _ _ hall
      (ends_at hclosing rfl)) ?_
    exact parse_bind_ok (expect_ok hclosing)

lemma parameters_phrased {all : List Parameter} (h : Parameters t all) : Phrased t := by
  cases h with
  | absent => exact .nil
  | none hopening hclosing => exact @Phrased.group _ _ [] [] hopening .nil hclosing .nil
  | some hopening hall hclosing =>
    exact .group hopening (listed_phrased (fun _ _ => binds_phrased) hall) hclosing .nil

def Target (t : List Token) (e : Expr) : Prop :=
  Derives .expression t e ∧ e.isTarget = true

lemma target_sound : Sound Parse.target Target Precedence.or.continues := by
  intro tokens e rest hp
  obtain ⟨value, mid, hvalue, hend⟩ := parse_bind_eq_ok.mp hp
  obtain ⟨t, rfl, ht, hmid⟩ := expression_sound _ _ _ hvalue
  split at hend
  · next htarget =>
    obtain ⟨rfl, rfl⟩ := parse_pure_eq_ok.mp hend
    exact ⟨t, rfl, ⟨ht, htarget⟩, hmid⟩
  · cases hend

lemma target_complete : Complete Parse.target Target Precedence.or.continues := by
  rintro t e rest ⟨ht, htarget⟩ hends
  refine parse_then (expression_closed ht hends) ?_
  rw [if_pos htarget]
  rfl

def Releases (t : List Token) (name : Token) : Prop :=
  Derives .expression t (.name name)

lemma released_sound : Sound Parse.released Releases Precedence.or.continues := by
  intro tokens name rest hp
  obtain ⟨value, mid, hvalue, hend⟩ := parse_bind_eq_ok.mp hp
  obtain ⟨t, rfl, ht, hmid⟩ := expression_sound _ _ _ hvalue
  cases value with
  | name token =>
    obtain ⟨rfl, rfl⟩ := parse_pure_eq_ok.mp hend
    exact ⟨t, rfl, ht, hmid⟩
  | _ => cases hend

lemma released_complete : Complete Parse.released Releases Precedence.or.continues :=
  fun _ _ _ h hends => parse_bind_ok (expression_closed h hends)

end Items

section Lines

/-- Reads lines: from tokens that end with a separator it reads only what `D` derives, and that it
reads whatever follows. -/
structure Lined {α : Type} (p : Parse α) (D : List Token → α → Prop) : Prop where
  sound {tokens rest : List Token} {a : α} (hopen : Open tokens)
    (hp : p tokens = (.ok a, rest)) : ∃ t, tokens = t ++ rest ∧ D t a
  complete {t : List Token} {a : α} (h : D t a) (rest : List Token) :
    p (t ++ rest) = (.ok a, rest)

lemma ended_eq_ok {α : Type} {a b : α} (hopen : Open tokens)
    (hp : (do Parse.endOfStatement message; return a : Parse α) tokens = (.ok b, rest)) :
    a = b ∧ ∃ sep, tokens = sep :: rest ∧ sep.kind = .separator := by
  obtain ⟨_, mid, hend, hp⟩ := parse_bind_eq_ok.mp hp
  obtain ⟨rfl, rfl⟩ := parse_pure_eq_ok.mp hp
  exact ⟨rfl, (endOfStatement_eq_ok hopen).mp hend⟩

lemma ended_ok {α : Type} (hsep : sep.kind = .separator) (a : α) (rest : List Token) :
    (do Parse.endOfStatement message; return a : Parse α) (sep :: rest) =
      (.ok a, rest) :=
  parse_bind_ok (endOfStatement_ok hsep)

/-- What may stand behind the closing parenthesis of `print (...)`. -/
def endsPrint (next : Option Kind) : Bool :=
  next.all (· == .separator)

/-- `print a, b` or `print (a, b)`, after the keyword. -/
inductive Printed (keyword : Token) : List Token → Stmt → Prop
  | nothing {sep : Token} (hsep : sep.kind = .separator) :
      Printed keyword [sep] (.print keyword [])
  | empty {opening closing sep : Token} (hopening : opening.kind = .leftParen)
      (hclosing : closing.kind = .rightParen) (hsep : sep.kind = .separator) :
      Printed keyword [opening, closing, sep] (.print keyword [])
  | group {opening closing sep : Token} {t : List Token} {values : List Expr}
      (hopening : opening.kind = .leftParen) (hvalues : Listed (Derives .expression) t values)
      (hclosing : closing.kind = .rightParen) (hsep : sep.kind = .separator) :
      Printed keyword (opening :: (t ++ [closing, sep])) (.print keyword values)
  | list {sep : Token} {t : List Token} {values : List Expr}
      (hvalues : Listed (Derives .expression) t values) (hsep : sep.kind = .separator)
      (hopens : opens endsPrint (t ++ [sep]) = false) :
      Printed keyword (t ++ [sep]) (.print keyword values)

def Started (t : List Token) : Prop :=
  ∃ first u, t = first :: u ∧ (Rank.operation .or).starts first.kind = true

lemma derives_started (h : Derives .expression t e) : Started t := by
  obtain ⟨first, u, rfl, hfirst, -⟩ := derives_headed h
  exact ⟨first, u, rfl, hfirst⟩

lemma Started.append (h : Started t) (u : List Token) : Started (t ++ u) := by
  obtain ⟨first, v, rfl, hfirst⟩ := h
  exact ⟨first, v ++ u, rfl, hfirst⟩

lemma conditional_started (h : Conditional t e) : Started t := by
  cases h with
  | always h => exact derives_started h
  | when h _ _ | choice h _ _ _ _ => exact (derives_started h).append _

lemma listed_started {α : Type} {D : List Token → α → Prop} (h : ∀ t a, D t a → Started t)
    {items : List α} (ht : Listed D t items) : Started t := by
  obtain ⟨ha, -⟩ := ht
  exact (h _ _ ha).append _

def printRest (keyword : Token) (parenthesized : Bool) : Parse Stmt := fun tokens =>
  let nothing := tokens.head?.any (·.kind == .separator) || tokens.isEmpty ||
    parenthesized && tokens.head?.any (·.kind == .rightParen)
  (if nothing then printEnd keyword parenthesized []
    else Parse.expressions >>= printEnd keyword parenthesized) tokens

lemma print_eq (keyword : Token) (tokens : List Token) :
    Parse.print keyword tokens =
      if opens endsPrint tokens then
        (Parse.accept (· == .leftParen) >>= fun _ => printRest keyword true) tokens
      else printRest keyword false tokens := by
  cases hopens : opens endsPrint tokens
  · refine parse_then (opensBefore_eq _ _) ?_
    change opens (fun next => next.all (· == .separator)) tokens = false at hopens
    rw [hopens]
    rfl
  · refine parse_then (opensBefore_eq _ _) ?_
    change opens (fun next => next.all (· == .separator)) tokens = true at hopens
    rw [hopens]
    rfl

lemma opens_head {next : Option Kind → Bool} (h : opens next tokens = true) :
    ∃ opening rest, tokens = opening :: rest ∧ opening.kind = .leftParen := by
  cases tokens with
  | nil => simp [opens] at h
  | cons opening rest =>
    simp only [opens, List.head?_cons, Option.any_some, Bool.and_eq_true, beq_iff_eq] at h
    exact ⟨opening, rest, rfl, h.1⟩

lemma printEnd_sound {keyword : Token} {parenthesized : Bool} {values : List Expr} {s : Stmt}
    (hopen : Open tokens)
    (hp : printEnd keyword parenthesized values tokens = (.ok s, rest)) :
    s = .print keyword values ∧ ∃ sep, sep.kind = .separator ∧
      if parenthesized then
        ∃ closing, tokens = closing :: sep :: rest ∧ closing.kind = .rightParen
      else tokens = sep :: rest := by
  cases parenthesized with
  | false =>
    obtain ⟨rfl, sep, rfl, hsep⟩ := ended_eq_ok hopen hp
    exact ⟨rfl, sep, hsep, rfl⟩
  | true =>
    obtain ⟨closing, mid, rfl, kclosing, hend⟩ := expect_bind_eq_ok.mp hp
    obtain ⟨rfl, sep, rfl, hsep⟩ := ended_eq_ok (hopen.of_cons (by simp [kclosing])) hend
    exact ⟨rfl, sep, hsep, closing, rfl, kclosing⟩

lemma printRest_complete {keyword : Token} {parenthesized : Bool} {values : List Expr}
    (hvalues : Listed (Derives .expression) t values) (hu : Ends Precedence.or.continues u)
    (hcomma : Ends (· == .comma) u)
    (hp : printEnd keyword parenthesized values u = (.ok (.print keyword values), rest)) :
    printRest keyword parenthesized (t ++ u) = (.ok (.print keyword values), rest) := by
  have hlist := commaList_complete expression_complete rfl t values u hvalues
    (ends_or.mpr ⟨hu, hcomma⟩)
  obtain ⟨first, v, rfl, hfirst⟩ := listed_started (fun _ _ => derives_started) hvalues
  have hsomething : ((first :: v ++ u).head?.any (·.kind == .separator) ||
      (first :: v ++ u).isEmpty ||
      parenthesized && (first :: v ++ u).head?.any (·.kind == .rightParen)) = false := by
    have hsep : first.kind ≠ .separator := ne_of_starts hfirst rfl
    have hclosing : first.kind ≠ .rightParen := ne_of_starts hfirst rfl
    simp [hsep, hclosing]
  unfold printRest
  dsimp only
  rw [hsomething]
  exact parse_then hlist hp

lemma lined_print (keyword : Token) : Lined (Parse.print keyword) (Printed keyword) where
  sound {tokens rest s} hopen hp := by
    rw [print_eq] at hp
    split at hp
    · next hopens =>
      obtain ⟨opening, others, rfl, kopening⟩ := opens_head hopens
      have hothers : Open others := hopen.of_cons (by simp [kopening])
      rw [parse_bind_ok (accept_ok (by simp [kopening]))] at hp
      unfold printRest at hp
      dsimp only at hp
      split at hp
      · obtain ⟨rfl, sep, hsep, closing, rfl, kclosing⟩ := printEnd_sound hothers hp
        exact ⟨[opening, closing, sep], rfl, .empty kopening kclosing hsep⟩
      · obtain ⟨values, mid, hvalues, hend⟩ := parse_bind_eq_ok.mp hp
        obtain ⟨t, rfl, ht, -⟩ := commaList_sound expression_sound _ _ _ hvalues
        have hmid := hothers.of_append (listed_phrased (fun _ _ => derives_phrased) ht)
        obtain ⟨rfl, sep, hsep, closing, rfl, kclosing⟩ := printEnd_sound hmid hend
        exact ⟨opening :: (t ++ [closing, sep]), by simp, .group kopening ht kclosing hsep⟩
    · next hopens =>
      unfold printRest at hp
      dsimp only at hp
      split at hp
      · obtain ⟨rfl, sep, hsep, rfl⟩ := printEnd_sound hopen hp
        exact ⟨[sep], rfl, .nothing hsep⟩
      · obtain ⟨values, mid, hvalues, hend⟩ := parse_bind_eq_ok.mp hp
        obtain ⟨t, rfl, ht, -⟩ := commaList_sound expression_sound _ _ _ hvalues
        have hmid := hopen.of_append (listed_phrased (fun _ _ => derives_phrased) ht)
        obtain ⟨rfl, sep, hsep, rfl⟩ := printEnd_sound hmid hend
        rw [opens_line hsep, Bool.not_eq_true] at hopens
        exact ⟨t ++ [sep], by simp, .list ht hsep hopens⟩
  complete {t s} h rest := by
    have hend (sep : Token) (hsep : sep.kind = .separator) (values : List Expr) :
        printEnd keyword false values (sep :: rest) =
          (.ok (.print keyword values), rest) := ended_ok hsep _ rest
    have hclose (closing sep : Token) (hclosing : closing.kind = .rightParen)
        (hsep : sep.kind = .separator) (values : List Expr) :
        printEnd keyword true values (closing :: sep :: rest) =
          (.ok (.print keyword values), rest) :=
      parse_then (expect_ok hclosing) (ended_ok hsep _ rest)
    rw [print_eq]
    cases h with
    | @nothing sep hsep =>
      have hopens : opens endsPrint (sep :: rest) = false := by simp [opens, hsep]
      rw [List.singleton_append, hopens]
      simp only [printRest, List.head?_cons, Option.any_some, hsep]
      exact hend sep hsep []
    | @empty opening closing sep hopening hclosing hsep =>
      have hopens : opens endsPrint (opening :: closing :: sep :: rest) = true :=
        (@opens_group _ _ [] hopening .nil hclosing _ _).trans (by simp [endsPrint, hsep])
      simp only [List.cons_append, List.nil_append, hopens]
      refine parse_then (accept_ok (by simp [hopening])) ?_
      simp only [printRest, List.head?_cons, Option.any_some, hclosing]
      exact hclose closing sep hclosing hsep []
    | @group opening closing sep t values hopening hvalues hclosing hsep =>
      have hphrased := listed_phrased (fun _ _ => derives_phrased) hvalues
      have hopens : opens endsPrint (opening :: (t ++ closing :: sep :: rest)) = true :=
        (opens_group hopening hphrased hclosing _ _).trans (by simp [endsPrint, hsep])
      simp only [List.cons_append, List.append_assoc, List.nil_append, hopens]
      refine parse_then (accept_ok (by simp [hopening])) ?_
      exact printRest_complete hvalues (ends_at hclosing rfl) (by simp [Ends, hclosing])
        (hclose closing sep hclosing hsep values)
    | @list sep t values hvalues hsep hopens =>
      simp only [List.append_assoc, List.singleton_append]
      rw [opens_line hsep, hopens]
      exact printRest_complete hvalues (ends_at hsep rfl) (by simp [Ends, hsep])
        (hend sep hsep values)

/-- `return a, b`, after the keyword. -/
inductive GivenBack (keyword : Token) : List Token → Stmt → Prop
  | nothing {sep : Token} (hsep : sep.kind = .separator) :
      GivenBack keyword [sep] (.giveBack keyword [])
  | list {sep : Token} {t : List Token} {values : List Expr} (hvalues : Listed Conditional t values)
      (hsep : sep.kind = .separator) : GivenBack keyword (t ++ [sep]) (.giveBack keyword values)

lemma lined_giveBack (keyword : Token) : Lined (Parse.giveBack keyword) (GivenBack keyword) where
  sound {tokens rest s} hopen hp := by
    obtain ⟨_, mid, hsees, hp⟩ := parse_bind_eq_ok.mp hp
    cases hsees
    obtain ⟨_, mid, hatEnd, hp⟩ := parse_bind_eq_ok.mp hp
    cases hatEnd
    split at hp
    · obtain ⟨rfl, sep, rfl, hsep⟩ := ended_eq_ok hopen hp
      exact ⟨[sep], rfl, .nothing hsep⟩
    · obtain ⟨values, mid, hvalues, hend⟩ := parse_bind_eq_ok.mp hp
      obtain ⟨t, rfl, ht, -⟩ := commaList_sound conditional_sound _ _ _ hvalues
      have hmid := hopen.of_append (listed_phrased (fun _ _ => conditional_phrased) ht)
      obtain ⟨rfl, sep, rfl, hsep⟩ := ended_eq_ok hmid hend
      exact ⟨t ++ [sep], by simp, .list ht hsep⟩
  complete {t s} h rest := by
    refine parse_then rfl (parse_then rfl ?_)
    cases h with
    | @nothing sep hsep =>
      simp only [List.singleton_append, List.head?_cons, Option.any_some, hsep]
      exact ended_ok hsep _ rest
    | @list sep t values hvalues hsep =>
      have hlist := commaList_complete conditional_complete rfl t values (sep :: rest) hvalues
        (ends_at hsep rfl)
      obtain ⟨first, u, rfl, hfirst⟩ := listed_started (fun _ _ => conditional_started) hvalues
      have hfirst' : first.kind ≠ .separator := ne_of_starts hfirst rfl
      rw [List.append_assoc, List.singleton_append]
      simp only [List.cons_append, List.head?_cons, Option.any_some, List.isEmpty_cons,
        Bool.or_false, beq_iff_eq, hfirst', if_false]
      exact parse_then hlist (ended_ok hsep _ rest)

/-- `release a, b`, after the keyword. -/
inductive Dropped (keyword : Token) : List Token → Stmt → Prop
  | mk {sep : Token} {t : List Token} {targets : List Token} (htargets : Listed Releases t targets)
      (hsep : sep.kind = .separator) : Dropped keyword (t ++ [sep]) (.release keyword targets)

lemma lined_release (keyword : Token) : Lined (Parse.release keyword) (Dropped keyword) where
  sound {tokens rest s} hopen hp := by
    obtain ⟨targets, mid, htargets, hend⟩ := parse_bind_eq_ok.mp hp
    obtain ⟨t, rfl, ht, -⟩ := commaList_sound released_sound _ _ _ htargets
    have hmid := hopen.of_append (listed_phrased (fun _ _ => derives_phrased) ht)
    obtain ⟨rfl, sep, rfl, hsep⟩ := ended_eq_ok hmid hend
    exact ⟨t ++ [sep], by simp, .mk ht hsep⟩
  complete {t s} h rest := by
    obtain ⟨htargets, hsep⟩ := h
    rw [List.append_assoc]
    exact parse_then (commaList_complete released_complete rfl _ _ _ htargets (ends_at hsep rfl))
      (ended_ok hsep _ rest)

/-- A declaration of variables, after the keyword. -/
inductive Declared (keyword : Token) (extent : Extent) : List Token → Stmt → Prop
  | list {sep : Token} {t : List Token} {declarators : List Declarator}
      (hlist : Listed Declares t declarators) (hsep : sep.kind = .separator) :
      Declared keyword extent (t ++ [sep]) (.declare keyword extent declarators)
  | destructure {opening closing assign sep : Token} {t u : List Token} {names : List Token}
      {values : List Expr} (hopening : opening.kind = .leftParen) (hnames : Listed TypedName t names)
      (hclosing : closing.kind = .rightParen) (hassign : assign.kind = .assign)
      (hvalues : Listed (Derives .expression) u values) (hsep : sep.kind = .separator) :
      Declared keyword extent (opening :: (t ++ closing :: assign :: (u ++ [sep])))
        (.destructure keyword extent names values)

lemma lined_declare (keyword : Token) (extent : Extent) :
    Lined (Parse.declare keyword extent) (Declared keyword extent) where
  sound {tokens rest s} hopen hp := by
    obtain ⟨found, mid, hfound, hp⟩ := parse_bind_eq_ok.mp hp
    cases found with
    | none =>
      obtain ⟨rfl, -⟩ := accept_eq_none.mp hfound
      obtain ⟨declarators, mid', hlist, hend⟩ := parse_bind_eq_ok.mp hp
      obtain ⟨t, rfl, ht, -⟩ := commaList_sound declarator_sound _ _ _ hlist
      have hmid := hopen.of_append (listed_phrased (fun _ _ => declares_phrased) ht)
      obtain ⟨rfl, sep, rfl, hsep⟩ := ended_eq_ok hmid hend
      exact ⟨t ++ [sep], by simp, .list ht hsep⟩
    | some opening =>
      obtain ⟨names, _, hnames, hq⟩ := parse_bind_eq_ok.mp hp
      obtain ⟨closing, _, rfl, kclosing, hq⟩ := expect_bind_eq_ok.mp hq
      obtain ⟨assign, _, rfl, kassign, hq⟩ := expect_bind_eq_ok.mp hq
      obtain ⟨values, last, hvalues, hend⟩ := parse_bind_eq_ok.mp hq
      obtain ⟨rfl, kopening⟩ := accept_eq_some.mp hfound
      replace kopening : opening.kind = .leftParen := by simpa using kopening
      obtain ⟨u, rfl, hu, -⟩ := commaList_sound expression_sound _ _ _ hvalues
      obtain ⟨t, rfl, ht, -⟩ := commaList_sound typedName_sound _ _ _ hnames
      have hlast : Open last := by
        refine Open.of_append (t := assign :: u) ?_ (.token (kassign ▸ rfl)
          (listed_phrased (fun _ _ => derives_phrased) hu))
        refine Open.of_append (t := opening :: (t ++ [closing])) (by simpa using hopen) ?_
        exact .group kopening (listed_phrased (fun _ _ => typedName_phrased) ht) kclosing .nil
      obtain ⟨rfl, sep, rfl, hsep⟩ := ended_eq_ok hlast hend
      exact ⟨opening :: (t ++ closing :: assign :: (u ++ [sep])), by simp,
        .destructure kopening ht kclosing kassign hu hsep⟩
  complete {t s} h rest := by
    cases h with
    | @list sep t declarators hlist hsep =>
      have hname : Ends (· == .leftParen) (t ++ sep :: rest) := by
        obtain ⟨⟨hname, -, -⟩, -⟩ := hlist
        simp [Ends, hname]
      rw [List.append_assoc, List.singleton_append]
      refine parse_then (accept_eq_none.mpr ⟨rfl, hname⟩) ?_
      exact parse_then (commaList_complete declarator_complete rfl _ _ _ hlist (ends_at hsep rfl))
        (ended_ok hsep _ rest)
    | @destructure opening closing assign sep t u names values hopening hnames hclosing hassign
        hvalues hsep =>
      simp only [List.cons_append, List.append_assoc, List.nil_append]
      refine parse_then (accept_ok (by simp [hopening])) ?_
      refine parse_then (commaList_complete typedName_complete rfl _ _ _ hnames
        (ends_at hclosing rfl)) ?_
      refine parse_then (expect_ok hclosing) ?_
      refine parse_then (expect_ok hassign) ?_
      refine parse_then (commaList_complete expression_complete rfl _ _ _ hvalues
        (ends_at hsep rfl)) ?_
      exact ended_ok hsep _ rest

lemma lined_binding {α : Type} {value : Parse Expr} {D : List Token → Expr → Prop}
    {more more' : Kind → Bool} {make : Token → Expr → α} {E : List Token → α → Prop}
    {noName noAssign noEnd : String} (hsound : Sound value D more)
    (hcomplete : Complete value D more') (hmore : more' .separator = false)
    (hphrased : ∀ {t : List Token} {e : Expr}, D t e → Phrased t)
    (hmk : ∀ {name assign sep : Token} {t : List Token} {e : Expr}, name.kind = .name →
      assign.kind = .assign → D t e → sep.kind = .separator →
      E (name :: assign :: (t ++ [sep])) (make name e))
    (hinv : ∀ {t : List Token} {a : α}, E t a → ∃ name assign sep u e,
      t = name :: assign :: (u ++ [sep]) ∧ a = make name e ∧ name.kind = .name ∧
        assign.kind = .assign ∧ D u e ∧ sep.kind = .separator) :
    Lined (do
      let name ← Parse.expect .name noName
      let _ ← Parse.expect .assign noAssign
      let e ← value
      Parse.endOfStatement noEnd
      return make name e) E where
  sound {tokens rest a} hopen hp := by
    obtain ⟨name, _, rfl, kname, hq⟩ := expect_bind_eq_ok.mp hp
    obtain ⟨assign, _, rfl, kassign, hq⟩ := expect_bind_eq_ok.mp hq
    obtain ⟨e, last, he, hend⟩ := parse_bind_eq_ok.mp hq
    obtain ⟨t, rfl, ht, -⟩ := hsound _ _ _ he
    have hlast := ((hopen.of_cons (by simp [kname])).of_cons (by simp [kassign])).of_append
      (hphrased ht)
    obtain ⟨rfl, sep, rfl, hsep⟩ := ended_eq_ok hlast hend
    exact ⟨name :: assign :: (t ++ [sep]), by simp, hmk kname kassign ht hsep⟩
  complete {t a} h rest := by
    obtain ⟨name, assign, sep, u, e, rfl, rfl, hname, hassign, he, hsep⟩ := hinv h
    simp only [List.cons_append, List.append_assoc, List.nil_append]
    refine parse_then (expect_ok hname) (parse_then (expect_ok hassign) ?_)
    exact parse_then (hcomplete _ _ _ he (ends_at hsep hmore)) (ended_ok hsep _ rest)

/-- `name = value`, after the keyword of a constant. -/
inductive Constant (keyword : Token) : List Token → Stmt → Prop
  | mk {name assign sep : Token} {t : List Token} {value : Expr} (hname : name.kind = .name)
      (hassign : assign.kind = .assign) (hvalue : Conditional t value)
      (hsep : sep.kind = .separator) :
      Constant keyword (name :: assign :: (t ++ [sep])) (.const keyword name value)

lemma lined_const (keyword : Token) : Lined (Parse.const keyword) (Constant keyword) :=
  lined_binding conditional_sound conditional_complete rfl conditional_phrased .mk
    fun ⟨hname, hassign, hvalue, hsep⟩ =>
      ⟨_, _, _, _, _, rfl, rfl, hname, hassign, hvalue, hsep⟩

/-- `name = value`, a property of a class. -/
inductive Holds : List Token → Property → Prop
  | mk {name assign sep : Token} {t : List Token} {value : Expr} (hname : name.kind = .name)
      (hassign : assign.kind = .assign) (hvalue : Derives .expression t value)
      (hsep : sep.kind = .separator) : Holds (name :: assign :: (t ++ [sep])) ⟨name, value⟩

lemma lined_property : Lined Parse.property Holds :=
  lined_binding expression_sound expression_complete rfl derives_phrased .mk
    fun ⟨hname, hassign, hvalue, hsep⟩ =>
      ⟨_, _, _, _, _, rfl, rfl, hname, hassign, hvalue, hsep⟩

/-- `(a, b) = x, y`, after the opening parenthesis. -/
inductive AssignedAll (opening : Token) : List Token → Stmt → Prop
  | mk {closing assign sep : Token} {t u : List Token} {targets values : List Expr}
      (htargets : Listed Target t targets) (hclosing : closing.kind = .rightParen)
      (hassign : assign.kind = .assign) (hvalues : Listed (Derives .expression) u values)
      (hsep : sep.kind = .separator) :
      AssignedAll opening (t ++ closing :: assign :: (u ++ [sep]))
        (.assignAll opening targets values)

lemma lined_assignAll (opening : Token) :
    Lined (Parse.assignAll opening) (AssignedAll opening) where
  sound {tokens rest s} hopen hp := by
    obtain ⟨targets, _, htargets, hq⟩ := parse_bind_eq_ok.mp hp
    obtain ⟨closing, _, rfl, kclosing, hq⟩ := expect_bind_eq_ok.mp hq
    obtain ⟨assign, _, rfl, kassign, hq⟩ := expect_bind_eq_ok.mp hq
    obtain ⟨values, last, hvalues, hend⟩ := parse_bind_eq_ok.mp hq
    obtain ⟨u, rfl, hu, -⟩ := commaList_sound expression_sound _ _ _ hvalues
    obtain ⟨t, rfl, ht, -⟩ := commaList_sound target_sound _ _ _ htargets
    have hbehind := hopen.of_append (listed_phrased (fun _ _ h => derives_phrased h.1) ht)
    have hlast := ((hbehind.of_cons (by simp [kclosing])).of_cons (by simp [kassign])).of_append
      (listed_phrased (fun _ _ => derives_phrased) hu)
    obtain ⟨rfl, sep, rfl, hsep⟩ := ended_eq_ok hlast hend
    exact ⟨t ++ closing :: assign :: (u ++ [sep]), by simp, .mk ht kclosing kassign hu hsep⟩
  complete {t s} h rest := by
    obtain ⟨htargets, hclosing, hassign, hvalues, hsep⟩ := h
    simp only [List.cons_append, List.append_assoc, List.nil_append]
    refine parse_then (commaList_complete target_complete rfl _ _ _ htargets
      (ends_at hclosing rfl)) ?_
    refine parse_then (expect_ok hclosing) ?_
    refine parse_then (expect_ok hassign) ?_
    refine parse_then (commaList_complete expression_complete rfl _ _ _ hvalues
      (ends_at hsep rfl)) ?_
    exact ended_ok hsep _ rest

/-- An assignment, or an expression alone. -/
inductive Evaluated : List Token → Stmt → Prop
  | alone {sep : Token} {t : List Token} {e : Expr} (h : Derives .expression t e)
      (hsep : sep.kind = .separator) : Evaluated (t ++ [sep]) (.expression e)
  | assign {operator sep : Token} {t u : List Token} {target value : Expr}
      (htarget : Target t target) (hoperator : operator.kind = .assign)
      (hvalue : Derives .expression u value) (hsep : sep.kind = .separator) :
      Evaluated (t ++ operator :: (u ++ [sep])) (.assign operator target value)
  | update {operator sep : Token} {t u : List Token} {target value : Expr}
      (htarget : Target t target) (hoperator : operator.kind = .compoundAssign)
      (hvalue : Derives .expression u value) (hsep : sep.kind = .separator) :
      Evaluated (t ++ operator :: (u ++ [sep])) (.update operator target value)

def assigned (operator : Token) (target value : Expr) : Stmt :=
  if operator.kind = .assign then .assign operator target value
  else .update operator target value

lemma evaluated_assigned {operator : Token} {target value : Expr} (htarget : Target t target)
    (hoperator : operator.kind = .assign ∨ operator.kind = .compoundAssign)
    (hvalue : Derives .expression u value) (hsep : sep.kind = .separator) :
    Evaluated (t ++ operator :: (u ++ [sep])) (assigned operator target value) := by
  unfold assigned
  split
  · next hassign => exact .assign htarget hassign hvalue hsep
  · next hassign => exact .update htarget (hoperator.resolve_left hassign) hvalue hsep

lemma expressionStatement_assigned {operator : Token} {target value : Expr}
    (htarget : Target t target)
    (hoperator : operator.kind = .assign ∨ operator.kind = .compoundAssign)
    (hvalue : Derives .expression u value) (hsep : sep.kind = .separator) (rest : List Token) :
    Parse.expressionStatement (t ++ operator :: (u ++ [sep]) ++ rest) =
      (.ok (assigned operator target value), rest) := by
  have hends : Ends Precedence.or.continues (operator :: (u ++ sep :: rest)) := by
    rcases hoperator with hkind | hkind <;> rw [Ends, hkind] <;> rfl
  have haccept : Parse.accept (fun kind => kind == .assign || kind == .compoundAssign)
      (operator :: (u ++ sep :: rest)) = (.ok (some operator), u ++ sep :: rest) :=
    accept_eq_some.mpr ⟨rfl, by simpa using hoperator⟩
  simp only [List.append_assoc, List.cons_append, List.nil_append]
  refine parse_then (expression_closed htarget.1 hends) ?_
  refine parse_then haccept ?_
  simp only [htarget.2, Bool.not_true, Bool.false_eq_true, if_false]
  exact parse_then (expression_closed hvalue (ends_at hsep rfl)) (ended_ok hsep _ rest)

lemma lined_expressionStatement : Lined Parse.expressionStatement Evaluated where
  sound {tokens rest s} hopen hp := by
    obtain ⟨first, mid, hfirst, hp⟩ := parse_bind_eq_ok.mp hp
    obtain ⟨found, mid', hfound, hp⟩ := parse_bind_eq_ok.mp hp
    obtain ⟨t, rfl, ht, -⟩ := expression_sound _ _ _ hfirst
    have hmid := hopen.of_append (derives_phrased ht)
    cases found with
    | none =>
      obtain ⟨rfl, -⟩ := accept_eq_none.mp hfound
      obtain ⟨rfl, sep, rfl, hsep⟩ := ended_eq_ok hmid hp
      exact ⟨t ++ [sep], by simp, .alone ht hsep⟩
    | some operator =>
      have hoperator := (accept_eq_some.mp hfound).2
      simp only [Bool.or_eq_true, beq_iff_eq] at hoperator
      cases htarget : first.isTarget with
      | false =>
        rw [htarget] at hp
        cases hp
      | true =>
        rw [htarget] at hp
        obtain ⟨value, last, hvalue, hend⟩ := parse_bind_eq_ok.mp hp
        obtain ⟨u, rfl, hu, -⟩ := expression_sound _ _ _ hvalue
        obtain ⟨rfl, -⟩ := accept_eq_some.mp hfound
        have hkind : operator.kind ≠ .separator := by rcases hoperator with h | h <;> simp [h]
        have hlast := (hmid.of_cons hkind).of_append (derives_phrased hu)
        obtain ⟨rfl, sep, rfl, hsep⟩ := ended_eq_ok hlast hend
        exact ⟨t ++ operator :: (u ++ [sep]), by simp,
          evaluated_assigned ⟨ht, htarget⟩ hoperator hu hsep⟩
  complete {t s} h rest := by
    cases h with
    | @alone sep t e h hsep =>
      rw [List.append_assoc, List.singleton_append]
      refine parse_then (expression_closed h (ends_at hsep rfl)) ?_
      refine parse_then (accept_eq_none.mpr ⟨rfl, by simp [Ends, hsep]⟩) ?_
      exact ended_ok hsep _ rest
    | assign htarget hoperator hvalue hsep =>
      have hread := expressionStatement_assigned htarget (.inl hoperator) hvalue hsep rest
      rwa [assigned, if_pos hoperator] at hread
    | update htarget hoperator hvalue hsep =>
      have hread := expressionStatement_assigned htarget (.inr hoperator) hvalue hsep rest
      rwa [assigned, if_neg (by simp [hoperator])] at hread

end Lines

end XBase.Proofs
