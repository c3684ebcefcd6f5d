import XBase.Proofs.Blocks

/-!
# Which tokens follow each other

In the tokens of a good program an operand follows every operator that multiplies or divides, and
the name of a module that is found follows every import. So nowhere in such a program does the text
of two operators look like the start of a comment, and no import is left out.
-/

namespace XBase.Proofs

/-- Tokens in which each factor has an operand behind it, and each import a module that `found`
gives. -/
inductive Sequenced (found : String → Option Stmt) : List Token → Prop
  | nil : Sequenced found []
  | token {a : Token} {t : List Token} (ha : demands a.kind = false) (ht : Sequenced found t) :
      Sequenced found (a :: t)
  | factor {a b : Token} {t : List Token} (ha : a.kind = .factor) (hfactor : b.kind ≠ .factor)
      (hassign : b.kind ≠ .compoundAssign) (ht : Sequenced found (b :: t)) :
      Sequenced found (a :: b :: t)
  | imported {a b : Token} {t : List Token} {s : Stmt} (ha : a.kind = .keyword .importWord)
      (hfound : found b.lexeme = some s) (ht : Sequenced found (b :: t)) :
      Sequenced found (a :: b :: t)

section Lists

variable {found : String → Option Stmt} {t u : List Token} {a : Token}

lemma Sequenced.append (ht : Sequenced found t) (hu : Sequenced found u) :
    Sequenced found (t ++ u) := by
  induction ht with
  | nil => exact hu
  | token ha _ ih => exact .token ha ih
  | factor ha hfactor hassign _ ih => exact .factor ha hfactor hassign ih
  | imported ha hfound _ ih => exact .imported ha hfound ih

lemma Sequenced.behind (h : Sequenced found (t ++ u)) : Sequenced found u := by
  induction t with
  | nil => exact h
  | cons a t ih =>
    apply ih
    rw [List.cons_append] at h
    generalize t ++ u = v at h
    cases h with
    | token _ ht => exact ht
    | factor _ _ _ ht => exact ht
    | imported _ _ ht => exact ht

lemma Sequenced.operand (h : Sequenced found (t ++ a :: u)) (ha : a.kind = .factor) :
    ∀ b ∈ u.head?, b.kind ≠ .factor ∧ b.kind ≠ .compoundAssign := by
  cases h.behind with
  | token hdemands _ => simp [ha, demands] at hdemands
  | factor _ hfactor hassign _ => simpa using ⟨hfactor, hassign⟩
  | imported himport _ _ => simp [ha] at himport

lemma Sequenced.module (h : Sequenced found (t ++ a :: u)) (ha : a.kind = .keyword .importWord) :
    ∀ b ∈ u.head?, ∃ s, found b.lexeme = some s := by
  cases h.behind with
  | token hdemands _ => simp [ha, demands] at hdemands
  | factor hfactor _ _ _ => simp [ha] at hfactor
  | imported _ hfound _ => simpa using ⟨_, hfound⟩

end Lists

section Grammars

variable {found : String → Option Stmt} {α : Type} {t : List Token}

lemma sequenced_sep {sep : Token} (hsep : sep.kind = .separator) : Sequenced found [sep] :=
  .token (hsep ▸ rfl) .nil

/-- Each factor of a phrase has an operand behind it, and a phrase has no import. -/
lemma Phrased.sequenced (h : Phrased t) : Sequenced found t := by
  induction h with
  | nil => exact .nil
  | token hplain _ ih => exact .token (Bool.or_eq_false_iff.mp hplain).2 ih
  | factor hoperator hfactor hassign _ ih => exact .factor hoperator hfactor hassign ih
  | group hopening _ hclosing _ iht ihu =>
    exact .token (hopening ▸ rfl) (iht.append (.token (hclosing ▸ rfl) ihu))

lemma derives_sequenced {phrase : Phrase} {tree : phrase.Tree} (h : Derives phrase t tree) :
    Sequenced found t :=
  (derives_phrased h).sequenced

lemma listed_sequenced {D : List Token → α → Prop} (h : ∀ t a, D t a → Phrased t) {items : List α}
    (ht : Listed D t items) : Sequenced found t :=
  (listed_phrased h ht).sequenced

lemma values_sequenced {values : List Expr} (h : Listed (Derives .expression) t values) :
    Sequenced found t :=
  listed_sequenced (fun _ _ => derives_phrased) h

end Grammars

section Lines

variable {found : String → Option Stmt} {t : List Token} {s : Stmt} {keyword : Token}

lemma printed_sequenced (h : Printed keyword t s) : Sequenced found t := by
  cases h with
  | nothing hsep => exact sequenced_sep hsep
  | empty hopening hclosing hsep =>
    exact .token (hopening ▸ rfl) (.token (hclosing ▸ rfl) (sequenced_sep hsep))
  | group hopening hvalues hclosing hsep =>
    exact .token (hopening ▸ rfl) ((values_sequenced hvalues).append
      (.token (hclosing ▸ rfl) (sequenced_sep hsep)))
  | list hvalues hsep _ => exact (values_sequenced hvalues).append (sequenced_sep hsep)

lemma givenBack_sequenced (h : GivenBack keyword t s) : Sequenced found t := by
  cases h with
  | nothing hsep => exact sequenced_sep hsep
  | list hvalues hsep =>
    exact (listed_sequenced (fun _ _ => conditional_phrased) hvalues).append (sequenced_sep hsep)

lemma dropped_sequenced (h : Dropped keyword t s) : Sequenced found t := by
  obtain ⟨htargets, hsep⟩ := h
  exact (listed_sequenced (fun _ _ => derives_phrased) htargets).append (sequenced_sep hsep)

lemma declared_sequenced {extent : Extent} (h : Declared keyword extent t s) :
    Sequenced found t := by
  cases h with
  | list hlist hsep =>
    exact (listed_sequenced (fun _ _ => declares_phrased) hlist).append (sequenced_sep hsep)
  | destructure hopening hnames hclosing hassign hvalues hsep =>
    exact .token (hopening ▸ rfl) ((listed_sequenced (fun _ _ => typedName_phrased) hnames).append
      (.token (hclosing ▸ rfl) (.token (hassign ▸ rfl)
        ((values_sequenced hvalues).append (sequenced_sep hsep)))))

lemma constant_sequenced (h : Constant keyword t s) : Sequenced found t := by
  obtain ⟨hname, hassign, hvalue, hsep⟩ := h
  exact .token (hname ▸ rfl) (.token (hassign ▸ rfl)
    ((conditional_phrased hvalue).sequenced.append (sequenced_sep hsep)))

lemma holds_sequenced {p : Property} (h : Holds t p) : Sequenced found t := by
  obtain ⟨hname, hassign, hvalue, hsep⟩ := h
  exact .token (hname ▸ rfl) (.token (hassign ▸ rfl)
    ((derives_sequenced hvalue).append (sequenced_sep hsep)))

lemma assignedAll_sequenced (h : AssignedAll keyword t s) : Sequenced found t := by
  obtain ⟨htargets, hclosing, hassign, hvalues, hsep⟩ := h
  exact (listed_sequenced (fun _ _ h => derives_phrased h.1) htargets).append
    (.token (hclosing ▸ rfl) (.token (hassign ▸ rfl)
      ((values_sequenced hvalues).append (sequenced_sep hsep))))

lemma evaluated_sequenced (h : Evaluated t s) : Sequenced found t := by
  cases h with
  | alone h hsep => exact (derives_sequenced h).append (sequenced_sep hsep)
  | assign htarget hoperator hvalue hsep =>
    exact (derives_sequenced htarget.1).append (.token (hoperator ▸ rfl)
      ((derives_sequenced hvalue).append (sequenced_sep hsep)))
  | update htarget hoperator hvalue hsep =>
    exact (derives_sequenced htarget.1).append (.token (hoperator ▸ rfl)
      ((derives_sequenced hvalue).append (sequenced_sep hsep)))

lemma simple_sequenced (h : Simple found t s) : Sequenced found t := by
  cases h with
  | print hkeyword h =>
    refine .token ?_ (printed_sequenced h)
    rcases hkeyword with hkind | hkind <;> rw [hkind] <;> rfl
  | giveBack hkeyword h => exact .token (hkeyword ▸ rfl) (givenBack_sequenced h)
  | release hkeyword h => exact .token (hkeyword ▸ rfl) (dropped_sequenced h)
  | exit hkeyword hsep => exact .token (hkeyword ▸ rfl) (sequenced_sep hsep)
  | loop hkeyword hsep => exact .token (hkeyword ▸ rfl) (sequenced_sep hsep)
  | imported hkeyword hname hsep hfound =>
    exact .imported hkeyword hfound (.token (hname ▸ rfl) (sequenced_sep hsep))
  | assignAll hopening h => exact .token (hopening ▸ rfl) (assignedAll_sequenced h)
  | evaluated h _ => exact evaluated_sequenced h

lemma announced_sequenced (h : Announced t s) : Sequenced found t := by
  cases h with
  | @declared _ extent _ _ hkeyword h =>
    refine .token ?_ (declared_sequenced h)
    cases extent <;> exact hkeyword ▸ rfl
  | constant hkeyword h => exact .token (hkeyword ▸ rfl) (constant_sequenced h)

end Lines

section Blocks

variable {found : String → Option Stmt}

lemma Sequenced.body {t : List Token} (h : Sequenced found t) {sep last sep' : Token}
    (hsep : sep.kind = .separator) (hlast : demands last.kind = false)
    (hsep' : sep'.kind = .separator) : Sequenced found (sep :: (t ++ [last, sep'])) :=
  .token (hsep ▸ rfl) (h.append (.token hlast (sequenced_sep hsep')))

/-- In a program every operator has its operand behind it, and every import its module. -/
lemma builds_sequenced {part : Part} {t : List Token} {tree : part.Tree}
    (h : Builds found part t tree) : Sequenced found t := by
  induction h with
  | simple h => exact simple_sequenced h
  | branch hkeyword hcondition hthen hsep _ hlast hsep' ih =>
    refine .token (hkeyword ▸ rfl) ((derives_sequenced hcondition).append ?_)
    cases hthen with
    | absent => exact ih.body hsep (hlast ▸ rfl) hsep'
    | present hthen => exact .token (hthen ▸ rfl) (ih.body hsep (hlast ▸ rfl) hsep')
  | branchElse hkeyword hcondition hthen hsep _ hother hsep' _ hlast hsep'' ih ih' =>
    have hbodies : Sequenced found _ := .token (by rw [hsep]; rfl)
      (ih.append (.token (by rw [hother]; rfl) (ih'.body hsep' (by rw [hlast]; rfl) hsep'')))
    refine .token (hkeyword ▸ rfl) ((derives_sequenced hcondition).append ?_)
    cases hthen with
    | absent => exact hbodies
    | present hthen => exact .token (hthen ▸ rfl) hbodies
  | choose hkeyword hcase hsep _ hlast hsep' ih =>
    exact .token (hkeyword ▸ rfl) (.token (hcase ▸ rfl) (ih.body hsep (hlast ▸ rfl) hsep'))
  | chooseOtherwise hkeyword hcase hsep _ hother hsep' _ hlast hsep'' ih ih' =>
    exact .token (hkeyword ▸ rfl) (.token (hcase ▸ rfl) (.token (hsep ▸ rfl)
      (ih.append (.token (hother ▸ rfl) (ih'.body hsep' (hlast ▸ rfl) hsep'')))))
  | whileLoop hkeyword hloop hcondition hsep _ hlast hsep' ih =>
    exact .token (hkeyword ▸ rfl) (.token (hloop ▸ rfl)
      ((derives_sequenced hcondition).append (ih.body hsep (hlast ▸ rfl) hsep')))
  | doLoop hkeyword hsep _ hloop hcondition hsep' ih =>
    exact .token (hkeyword ▸ rfl) (.token (hsep ▸ rfl) (ih.append (.token (hloop ▸ rfl)
      ((derives_sequenced hcondition).append (sequenced_sep hsep')))))
  | forLoop hkeyword hcounter hassign hstart hupTo hfinish hstep hsep _ hlast hsep' ih =>
    refine .token (hkeyword ▸ rfl) (.token (hcounter ▸ rfl) (.token (hassign ▸ rfl)
      ((derives_sequenced hstart).append (.token (hupTo ▸ rfl)
        ((derives_sequenced hfinish).append ?_)))))
    cases hstep with
    | absent => exact ih.body hsep (hlast ▸ rfl) hsep'
    | present hkeyword hstep =>
      exact .token (hkeyword ▸ rfl) ((derives_sequenced hstep).append
        (ih.body hsep (hlast ▸ rfl) hsep'))
  | defer hkeyword hsep _ hlast hsep' ih =>
    exact .token (hkeyword ▸ rfl) (ih.body hsep (hlast ▸ rfl) hsep')
  | stated _ ih => exact ih
  | announced h => exact announced_sequenced h
  | method _ ih => exact ih
  | module hkeyword hname hsep _ hlast hsep' ih =>
    exact .token (hkeyword ▸ rfl) (.token (hname ▸ rfl) (ih.body hsep (hlast ▸ rfl) hsep'))
  | classDef hkeyword hname hsuperclass hsep _ hlast hsep' ih =>
    exact .token (hkeyword ▸ rfl) (.token (hname ▸ rfl)
      ((asName_phrased hsuperclass).sequenced.append (ih.body hsep (hlast ▸ rfl) hsep')))
  | function hkeyword hname hparameters hsep _ hlast hsep' ih =>
    exact .token (hkeyword ▸ rfl) (.token (hname ▸ rfl)
      ((parameters_phrased hparameters).sequenced.append (ih.body hsep (hlast ▸ rfl) hsep')))
  | blockEnd | plainEnd | branchesEnd | membersEnd => exact .nil
  | blockSkip hsep _ ih => exact .token (hsep ▸ rfl) ih
  | plainSkip hsep _ ih => exact .token (hsep ▸ rfl) ih
  | membersSkip hsep _ ih => exact .token (hsep ▸ rfl) ih
  | blockNext _ _ ih ih' => exact ih.append ih'
  | plainNext _ _ ih ih' => exact ih.append ih'
  | membersMethod _ _ ih ih' => exact ih.append ih'
  | branchesNext hcase hconditions hsep _ _ ih ih' =>
    exact .token (hcase ▸ rfl) ((values_sequenced hconditions).append
      (.token (hsep ▸ rfl) (ih.append ih')))
  | membersProperty h _ ih => exact (holds_sequenced h).append ih

end Blocks

end XBase.Proofs
