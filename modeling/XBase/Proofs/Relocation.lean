import Mathlib.Data.List.Forall2
import XBase.Proofs.Blocks

/-!
# Tokens in the places of others

Trees of one shape may hold other tokens, related one by one. Tokens may take the places of others
if they have the same kinds and name the same modules. No statement holds a separator, so a
separator may take the place of any other one.
-/

namespace XBase

variable (S : Token → Token → Prop)

inductive Argument.Moved {ε : Type} (E : ε → ε → Prop) : Argument ε → Argument ε → Prop
  | mk {label label' : Option Token} {value value' : ε} (hlabel : Option.Rel S label label')
      (hvalue : E value value') : Argument.Moved E ⟨label, value⟩ ⟨label', value'⟩

/-- Two expressions of one shape, whose tokens are related. -/
inductive Expr.Moved : Expr → Expr → Prop
  | literal {a b : Token} (h : S a b) : Expr.Moved (.literal a) (.literal b)
  | name {a b : Token} (h : S a b) : Expr.Moved (.name a) (.name b)
  | unary {a b : Token} {right right' : Expr} (h : S a b) (hright : Expr.Moved right right') :
      Expr.Moved (.unary a right) (.unary b right')
  | binary {a b : Token} {left left' right right' : Expr} (hleft : Expr.Moved left left')
      (h : S a b) (hright : Expr.Moved right right') :
      Expr.Moved (.binary left a right) (.binary left' b right')
  | logical {a b : Token} {left left' right right' : Expr} (hleft : Expr.Moved left left')
      (h : S a b) (hright : Expr.Moved right right') :
      Expr.Moved (.logical left a right) (.logical left' b right')
  | member {a b : Token} {object object' : Expr} (hobject : Expr.Moved object object') (h : S a b) :
      Expr.Moved (.member object a) (.member object' b)
  | index {a b : Token} {object object' key key' : Expr} (hobject : Expr.Moved object object')
      (h : S a b) (hkey : Expr.Moved key key') :
      Expr.Moved (.index object a key) (.index object' b key')
  | call {callee callee' : Expr} {arguments arguments' : List (Argument Expr)}
      (hcallee : Expr.Moved callee callee')
      (harguments : List.Forall₂ (Argument.Moved S Expr.Moved) arguments arguments') :
      Expr.Moved (.call callee arguments) (.call callee' arguments')
  | create {a b prototype prototype' : Token} {values values' : List Expr} (h : S a b)
      (hprototype : S prototype prototype') (hvalues : List.Forall₂ Expr.Moved values values') :
      Expr.Moved (.create a prototype values) (.create b prototype' values')
  | conditional {a b : Token} {condition condition' consequence consequence' : Expr}
      {alternative alternative' : Option Expr} (h : S a b)
      (hcondition : Expr.Moved condition condition')
      (hconsequence : Expr.Moved consequence consequence')
      (halternative : Option.Rel Expr.Moved alternative alternative') :
      Expr.Moved (.conditional a condition consequence alternative)
        (.conditional b condition' consequence' alternative')
  | this {a b : Token} (h : S a b) : Expr.Moved (.this a) (.this b)
  | substitution {a b : Token} (h : S a b) : Expr.Moved (.substitution a) (.substitution b)

inductive Declarator.Moved : Declarator → Declarator → Prop
  | mk {name name' : Token} {type type' : Option Token} {value value' : Option Expr}
      (hname : S name name') (htype : Option.Rel S type type')
      (hvalue : Option.Rel (Expr.Moved S) value value') :
      Declarator.Moved ⟨name, type, value⟩ ⟨name', type', value'⟩

inductive Parameter.Moved : Parameter → Parameter → Prop
  | mk {name name' : Token} {other other' : Option Token} {value value' : Option Expr}
      (hname : S name name') (hother : Option.Rel S other other')
      (hvalue : Option.Rel (Expr.Moved S) value value') :
      Parameter.Moved ⟨name, other, value⟩ ⟨name', other', value'⟩

inductive Property.Moved : Property → Property → Prop
  | mk {name name' : Token} {value value' : Expr} (hname : S name name')
      (hvalue : Expr.Moved S value value') : Property.Moved ⟨name, value⟩ ⟨name', value'⟩

inductive CaseBranch.Moved {σ : Type} (M : σ → σ → Prop) : CaseBranch σ → CaseBranch σ → Prop
  | mk {conditions conditions' : List Expr} {body body' : List σ}
      (hconditions : List.Forall₂ (Expr.Moved S) conditions conditions')
      (hbody : List.Forall₂ M body body') :
      CaseBranch.Moved M ⟨conditions, body⟩ ⟨conditions', body'⟩

inductive FunctionDecl.Moved {σ : Type} (M : σ → σ → Prop) : FunctionDecl σ → FunctionDecl σ → Prop
  | mk {token token' name name' : Token} {parameters parameters' : List Parameter}
      {body body' : List σ} {defers defers' : List (List σ)} (htoken : S token token')
      (hname : S name name') (hparameters : List.Forall₂ (Parameter.Moved S) parameters parameters')
      (hbody : List.Forall₂ M body body') (hdefers : List.Forall₂ (List.Forall₂ M) defers defers') :
      FunctionDecl.Moved M ⟨token, name, parameters, body, defers⟩
        ⟨token', name', parameters', body', defers'⟩

inductive ClassDecl.Moved {σ : Type} (M : σ → σ → Prop) : ClassDecl σ → ClassDecl σ → Prop
  | mk {token token' name name' : Token} {superclass superclass' : Option Token}
      {properties properties' : List Property} {methods methods' : List (FunctionDecl σ)}
      (htoken : S token token') (hname : S name name')
      (hsuperclass : Option.Rel S superclass superclass')
      (hproperties : List.Forall₂ (Property.Moved S) properties properties')
      (hmethods : List.Forall₂ (FunctionDecl.Moved S M) methods methods') :
      ClassDecl.Moved M ⟨token, name, superclass, properties, methods⟩
        ⟨token', name', superclass', properties', methods'⟩

/-- Two statements of one shape, whose tokens are related; the modules that `found` gives are the
same in both. -/
inductive Stmt.Moved (found : String → Option Stmt) : Stmt → Stmt → Prop
  | imported {module : String} {token name : Token} {body : List Stmt}
      (h : found module = some (.module token name body)) :
      Stmt.Moved found (.module token name body) (.module token name body)
  | expression {value value' : Expr} (hvalue : Expr.Moved S value value') :
      Stmt.Moved found (.expression value) (.expression value')
  | print {token token' : Token} {values values' : List Expr} (htoken : S token token')
      (hvalues : List.Forall₂ (Expr.Moved S) values values') :
      Stmt.Moved found (.print token values) (.print token' values')
  | giveBack {token token' : Token} {values values' : List Expr} (htoken : S token token')
      (hvalues : List.Forall₂ (Expr.Moved S) values values') :
      Stmt.Moved found (.giveBack token values) (.giveBack token' values')
  | declare {token token' : Token} {extent : Extent} {declarators declarators' : List Declarator}
      (htoken : S token token')
      (hdeclarators : List.Forall₂ (Declarator.Moved S) declarators declarators') :
      Stmt.Moved found (.declare token extent declarators) (.declare token' extent declarators')
  | destructure {token token' : Token} {extent : Extent} {names names' : List Token}
      {values values' : List Expr} (htoken : S token token') (hnames : List.Forall₂ S names names')
      (hvalues : List.Forall₂ (Expr.Moved S) values values') :
      Stmt.Moved found (.destructure token extent names values)
        (.destructure token' extent names' values')
  | branch {token token' : Token} {condition condition' : Expr}
      {consequence consequence' alternative alternative' : List Stmt} (htoken : S token token')
      (hcondition : Expr.Moved S condition condition')
      (hconsequence : List.Forall₂ (Stmt.Moved found) consequence consequence')
      (halternative : List.Forall₂ (Stmt.Moved found) alternative alternative') :
      Stmt.Moved found (.branch token condition consequence alternative)
        (.branch token' condition' consequence' alternative')
  | choose {token token' : Token} {branches branches' : List (CaseBranch Stmt)}
      {otherwise otherwise' : Option (List Stmt)} (htoken : S token token')
      (hbranches : List.Forall₂ (CaseBranch.Moved S (Stmt.Moved found)) branches branches')
      (hotherwise : Option.Rel (List.Forall₂ (Stmt.Moved found)) otherwise otherwise') :
      Stmt.Moved found (.choose token branches otherwise) (.choose token' branches' otherwise')
  | whileLoop {token token' : Token} {condition condition' : Expr} {body body' : List Stmt}
      (htoken : S token token') (hcondition : Expr.Moved S condition condition')
      (hbody : List.Forall₂ (Stmt.Moved found) body body') :
      Stmt.Moved found (.whileLoop token condition body) (.whileLoop token' condition' body')
  | doLoop {token token' : Token} {condition condition' : Expr} {body body' : List Stmt}
      (htoken : S token token') (hbody : List.Forall₂ (Stmt.Moved found) body body')
      (hcondition : Expr.Moved S condition condition') :
      Stmt.Moved found (.doLoop token body condition) (.doLoop token' body' condition')
  | forLoop {token token' counter counter' : Token} {start start' finish finish' : Expr}
      {step step' : Option Expr} {body body' : List Stmt} (htoken : S token token')
      (hcounter : S counter counter') (hstart : Expr.Moved S start start')
      (hfinish : Expr.Moved S finish finish') (hstep : Option.Rel (Expr.Moved S) step step')
      (hbody : List.Forall₂ (Stmt.Moved found) body body') :
      Stmt.Moved found (.forLoop token counter start finish step body)
        (.forLoop token' counter' start' finish' step' body')
  | exit {token token' : Token} (htoken : S token token') :
      Stmt.Moved found (.exit token) (.exit token')
  | loop {token token' : Token} (htoken : S token token') :
      Stmt.Moved found (.loop token) (.loop token')
  | function {f f' : FunctionDecl Stmt} (h : FunctionDecl.Moved S (Stmt.Moved found) f f') :
      Stmt.Moved found (.function f) (.function f')
  | classDef {c c' : ClassDecl Stmt} (h : ClassDecl.Moved S (Stmt.Moved found) c c') :
      Stmt.Moved found (.classDef c) (.classDef c')
  | const {token token' name name' : Token} {value value' : Expr} (htoken : S token token')
      (hname : S name name') (hvalue : Expr.Moved S value value') :
      Stmt.Moved found (.const token name value) (.const token' name' value')
  | module {token token' name name' : Token} {body body' : List Stmt} (htoken : S token token')
      (hname : S name name') (hbody : List.Forall₂ (Stmt.Moved found) body body') :
      Stmt.Moved found (.module token name body) (.module token' name' body')
  | release {token token' : Token} {targets targets' : List Token} (htoken : S token token')
      (htargets : List.Forall₂ S targets targets') :
      Stmt.Moved found (.release token targets) (.release token' targets')
  | defer {token token' : Token} {body body' : List Stmt} (htoken : S token token')
      (hbody : List.Forall₂ (Stmt.Moved found) body body') :
      Stmt.Moved found (.defer token body) (.defer token' body')
  | assign {token token' : Token} {target target' value value' : Expr} (htoken : S token token')
      (htarget : Expr.Moved S target target') (hvalue : Expr.Moved S value value') :
      Stmt.Moved found (.assign token target value) (.assign token' target' value')
  | update {token token' : Token} {target target' value value' : Expr} (htoken : S token token')
      (htarget : Expr.Moved S target target') (hvalue : Expr.Moved S value value') :
      Stmt.Moved found (.update token target value) (.update token' target' value')
  | assignAll {token token' : Token} {targets targets' values values' : List Expr}
      (htoken : S token token') (htargets : List.Forall₂ (Expr.Moved S) targets targets')
      (hvalues : List.Forall₂ (Expr.Moved S) values values') :
      Stmt.Moved found (.assignAll token targets values) (.assignAll token' targets' values')

namespace Proofs

/-- A token for which `R` holds may take the place of another one; if it is no separator it is
related by `S`, too. -/
structure Replaces (R S : Token → Token → Prop) : Prop where
  kind {a b : Token} (h : R a b) : b.kind = a.kind
  token {a b : Token} (h : R a b) (hkind : a.kind ≠ .separator) : S a b
  lexeme {a b : Token} (h : R a b) (hkind : a.kind = .name) : b.lexeme = a.lexeme

lemma replaces_self : Replaces Eq Eq where
  kind h := by rw [h]
  token h _ := h
  lexeme h _ := by rw [h]

section Replacement

variable {R S : Token → Token → Prop}

lemma forall₂_append_left_iff {t u v : List Token} :
    List.Forall₂ R (t ++ u) v ↔
      ∃ t' u', List.Forall₂ R t t' ∧ List.Forall₂ R u u' ∧ v = t' ++ u' := by
  constructor
  · intro h
    refine ⟨v.take t.length, v.drop t.length, ?_, ?_, (List.take_append_drop ..).symm⟩
    · simpa using List.forall₂_take t.length h
    · simpa using List.forall₂_drop t.length h
  · rintro ⟨t', u', ht, hu, rfl⟩
    exact List.rel_append ht hu

section Kinds

variable (h : Replaces R S)

include h

lemma closesBefore_moved (next : Option Kind → Bool) {t t' : List Token}
    (ht : List.Forall₂ R t t') (depth : Nat) :
    Parse.closesBefore next depth t' = Parse.closesBefore next depth t := by
  induction ht generalizing depth with
  | nil => rfl
  | @cons a b t t' ha ht ih =>
    have hhead : t'.head?.map Token.kind = t.head?.map Token.kind := by
      cases ht with
      | nil => rfl
      | cons hb _ => simp [h.kind hb]
    simp only [Parse.closesBefore, h.kind ha, hhead, ih]

lemma opens_moved (next : Option Kind → Bool) {t t' : List Token} (ht : List.Forall₂ R t t') :
    opens next t' = opens next t := by
  unfold opens
  rw [closesBefore_moved h next ht]
  cases ht with
  | nil => rfl
  | cons ha _ => simp [h.kind ha]

end Kinds

variable {found : String → Option Stmt}

lemma deferred_moved {s s' : Stmt} (hs : Stmt.Moved S found s s') :
    Option.Rel (List.Forall₂ (Stmt.Moved S found)) (Read.deferred? s) (Read.deferred? s') := by
  cases hs with
  | defer _ hbody => exact .some hbody
  | _ => exact .none

lemma deferral_moved {statements statements' : List Stmt}
    (hs : List.Forall₂ (Stmt.Moved S found) statements statements') :
    List.Forall₂ (Stmt.Moved S found) (statements.filter (Read.deferred? · |>.isNone))
      (statements'.filter (Read.deferred? · |>.isNone)) ∧
    List.Forall₂ (List.Forall₂ (Stmt.Moved S found)) (statements.filterMap Read.deferred?)
      (statements'.filterMap Read.deferred?) := by
  induction hs with
  | nil => exact ⟨.nil, .nil⟩
  | @cons s s' statements statements' hs _ ih =>
    obtain ⟨hbody, hdefers⟩ := ih
    have hdeferred := deferred_moved hs
    generalize hd : Read.deferred? s = d, hd' : Read.deferred? s' = d' at hdeferred
    cases hdeferred with
    | none => simpa [hd, hd'] using ⟨⟨hs, hbody⟩, hdefers⟩
    | some hbody' => simpa [hd, hd'] using ⟨hbody, hbody', hdefers⟩

end Replacement

section Sameness

/-! Trees of one shape with the same tokens are the same. -/

variable {α : Type}

lemma eq_of_rel {R : α → α → Prop} {a b : Option α} (h : Option.Rel R a b)
    (hR : ∀ x y, R x y → x = y) : a = b := by
  cases h with
  | none => rfl
  | some h => rw [hR _ _ h]

lemma eq_of_forall₂ {R : α → α → Prop} {t u : List α} (h : List.Forall₂ R t u)
    (hR : ∀ x y, R x y → x = y) : t = u :=
  List.forall₂_eq_eq_eq ▸ h.imp hR

mutual

lemma expr_eq_of_moved : (e : Expr) → {e' : Expr} → Expr.Moved Eq e e' → e = e'
  | .literal _, _, .literal h | .name _, _, .name h | .this _, _, .this h
  | .substitution _, _, .substitution h => by rw [h]
  | .unary _ right, _, .unary h hright => by rw [h, expr_eq_of_moved right hright]
  | .binary left _ right, _, .binary hleft h hright => by
    rw [expr_eq_of_moved left hleft, h, expr_eq_of_moved right hright]
  | .logical left _ right, _, .logical hleft h hright => by
    rw [expr_eq_of_moved left hleft, h, expr_eq_of_moved right hright]
  | .member object _, _, .member hobject h => by rw [expr_eq_of_moved object hobject, h]
  | .index object _ key, _, .index hobject h hkey => by
    rw [expr_eq_of_moved object hobject, h, expr_eq_of_moved key hkey]
  | .call callee arguments, _, .call hcallee harguments => by
    rw [expr_eq_of_moved callee hcallee, arguments_eq_of_moved arguments harguments]
  | .create _ _ values, _, .create h hprototype hvalues => by
    rw [h, hprototype, exprs_eq_of_moved values hvalues]
  | .conditional _ condition consequence none, _,
      .conditional h hcondition hconsequence .none => by
    rw [h, expr_eq_of_moved condition hcondition, expr_eq_of_moved consequence hconsequence]
  | .conditional _ condition consequence (some alternative), _,
      .conditional h hcondition hconsequence (.some halternative) => by
    rw [h, expr_eq_of_moved condition hcondition, expr_eq_of_moved consequence hconsequence,
      expr_eq_of_moved alternative halternative]

lemma exprs_eq_of_moved : (values : List Expr) → {values' : List Expr} →
    List.Forall₂ (Expr.Moved Eq) values values' → values = values'
  | [], _, .nil => rfl
  | value :: others, _, .cons hvalue hothers => by
    rw [expr_eq_of_moved value hvalue, exprs_eq_of_moved others hothers]

lemma arguments_eq_of_moved : (arguments : List (Argument Expr)) →
    {arguments' : List (Argument Expr)} →
    List.Forall₂ (Argument.Moved Eq (Expr.Moved Eq)) arguments arguments' → arguments = arguments'
  | [], _, .nil => rfl
  | ⟨_, value⟩ :: others, _, .cons (.mk hlabel hvalue) hothers => by
    rw [eq_of_rel hlabel fun _ _ h => h, expr_eq_of_moved value hvalue,
      arguments_eq_of_moved others hothers]

end

lemma declarator_eq_of_moved {d d' : Declarator} (h : Declarator.Moved Eq d d') : d = d' := by
  obtain ⟨hname, htype, hvalue⟩ := h
  rw [hname, eq_of_rel htype fun _ _ h => h, eq_of_rel hvalue fun e _ h => expr_eq_of_moved e h]

lemma parameter_eq_of_moved {p p' : Parameter} (h : Parameter.Moved Eq p p') : p = p' := by
  obtain ⟨hname, hother, hvalue⟩ := h
  rw [hname, eq_of_rel hother fun _ _ h => h, eq_of_rel hvalue fun e _ h => expr_eq_of_moved e h]

lemma property_eq_of_moved {p p' : Property} (h : Property.Moved Eq p p') : p = p' := by
  obtain ⟨hname, hvalue⟩ := h
  rw [hname, expr_eq_of_moved _ hvalue]

variable {found : String → Option Stmt}

mutual

lemma stmt_eq_of_moved : (s : Stmt) → {s' : Stmt} → Stmt.Moved Eq found s s' → s = s'
  | .expression _, _, .expression hvalue => by rw [expr_eq_of_moved _ hvalue]
  | .print _ values, _, .print h hvalues => by rw [h, exprs_eq_of_moved values hvalues]
  | .giveBack _ values, _, .giveBack h hvalues => by rw [h, exprs_eq_of_moved values hvalues]
  | .declare .., _, .declare h hdeclarators => by
    rw [h, eq_of_forall₂ hdeclarators fun _ _ h => declarator_eq_of_moved h]
  | .destructure _ _ _ values, _, .destructure h hnames hvalues => by
    rw [h, eq_of_forall₂ hnames fun _ _ h => h, exprs_eq_of_moved values hvalues]
  | .branch _ _ consequence alternative, _, .branch h hcondition hconsequence halternative => by
    rw [h, expr_eq_of_moved _ hcondition, stmts_eq_of_moved consequence hconsequence,
      stmts_eq_of_moved alternative halternative]
  | .choose _ branches none, _, .choose h hbranches .none => by
    rw [h, branches_eq_of_moved branches hbranches]
  | .choose _ branches (some body), _, .choose h hbranches (.some hbody) => by
    rw [h, branches_eq_of_moved branches hbranches, stmts_eq_of_moved body hbody]
  | .whileLoop _ _ body, _, .whileLoop h hcondition hbody => by
    rw [h, expr_eq_of_moved _ hcondition, stmts_eq_of_moved body hbody]
  | .doLoop _ body _, _, .doLoop h hbody hcondition => by
    rw [h, expr_eq_of_moved _ hcondition, stmts_eq_of_moved body hbody]
  | .forLoop _ _ _ _ _ body, _, .forLoop h hcounter hstart hfinish hstep hbody => by
    rw [h, hcounter, expr_eq_of_moved _ hstart, expr_eq_of_moved _ hfinish,
      eq_of_rel hstep fun e _ h => expr_eq_of_moved e h, stmts_eq_of_moved body hbody]
  | .exit _, _, .exit h | .loop _, _, .loop h => by rw [h]
  | .function ⟨_, _, _, body, defers⟩, _, .function (.mk h hname hparameters hbody hdefers) => by
    rw [h, hname, eq_of_forall₂ hparameters fun _ _ h => parameter_eq_of_moved h,
      stmts_eq_of_moved body hbody, blocks_eq_of_moved defers hdefers]
  | .classDef ⟨_, _, _, _, methods⟩, _,
      .classDef (.mk h hname hsuperclass hproperties hmethods) => by
    rw [h, hname, eq_of_rel hsuperclass fun _ _ h => h,
      eq_of_forall₂ hproperties fun _ _ h => property_eq_of_moved h,
      methods_eq_of_moved methods hmethods]
  | .const .., _, .const h hname hvalue => by rw [h, hname, expr_eq_of_moved _ hvalue]
  | .module _ _ body, _, .module h hname hbody => by rw [h, hname, stmts_eq_of_moved body hbody]
  | .module .., _, .imported _ => rfl
  | .release .., _, .release h htargets => by rw [h, eq_of_forall₂ htargets fun _ _ h => h]
  | .defer _ body, _, .defer h hbody => by rw [h, stmts_eq_of_moved body hbody]
  | .assign .., _, .assign h htarget hvalue => by
    rw [h, expr_eq_of_moved _ htarget, expr_eq_of_moved _ hvalue]
  | .update .., _, .update h htarget hvalue => by
    rw [h, expr_eq_of_moved _ htarget, expr_eq_of_moved _ hvalue]
  | .assignAll _ targets values, _, .assignAll h htargets hvalues => by
    rw [h, exprs_eq_of_moved targets htargets, exprs_eq_of_moved values hvalues]

lemma stmts_eq_of_moved : (body : List Stmt) → {body' : List Stmt} →
    List.Forall₂ (Stmt.Moved Eq found) body body' → body = body'
  | [], _, .nil => rfl
  | s :: others, _, .cons h hothers => by
    rw [stmt_eq_of_moved s h, stmts_eq_of_moved others hothers]

lemma branches_eq_of_moved : (branches : List (CaseBranch Stmt)) →
    {branches' : List (CaseBranch Stmt)} →
    List.Forall₂ (CaseBranch.Moved Eq (Stmt.Moved Eq found)) branches branches' →
      branches = branches'
  | [], _, .nil => rfl
  | ⟨conditions, body⟩ :: others, _, .cons (.mk hconditions hbody) hothers => by
    rw [exprs_eq_of_moved conditions hconditions, stmts_eq_of_moved body hbody,
      branches_eq_of_moved others hothers]

lemma blocks_eq_of_moved : (blocks : List (List Stmt)) → {blocks' : List (List Stmt)} →
    List.Forall₂ (List.Forall₂ (Stmt.Moved Eq found)) blocks blocks' → blocks = blocks'
  | [], _, .nil => rfl
  | block :: others, _, .cons hblock hothers => by
    rw [stmts_eq_of_moved block hblock, blocks_eq_of_moved others hothers]

lemma methods_eq_of_moved : (methods : List (FunctionDecl Stmt)) →
    {methods' : List (FunctionDecl Stmt)} →
    List.Forall₂ (FunctionDecl.Moved Eq (Stmt.Moved Eq found)) methods methods' →
      methods = methods'
  | [], _, .nil => rfl
  | ⟨_, _, _, body, defers⟩ :: others, _,
      .cons (.mk h hname hparameters hbody hdefers) hothers => by
    rw [h, hname, eq_of_forall₂ hparameters fun _ _ h => parameter_eq_of_moved h,
      stmts_eq_of_moved body hbody, blocks_eq_of_moved defers hdefers,
      methods_eq_of_moved others hothers]

end

end Sameness

end Proofs

end XBase
