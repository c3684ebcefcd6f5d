import XBase.Proofs.Derivation

/-!
# Where grammars fail

A grammar that fails points at the token where it stops, at a token that it took before, or at the
end of the text. So no failure lies before the place where reading started, and none lies behind
the place where it stopped.
-/

namespace XBase.Proofs

section Trees

/-- The token that diagnostics about a phrase point at, if the phrase is an expression. -/
def Phrase.pointer? : (phrase : Phrase) → phrase.Tree → Option Token
  | .expr _, e => some e.token
  | .argument, _ | .arguments, _ | .values, _ => none

lemma pointer_mem {phrase : Phrase} {t : List Token} {tree : phrase.Tree}
    (h : Derives phrase t tree) : ∀ token ∈ phrase.pointer? tree, token ∈ t := by
  induction h with
  | operand _ ih => exact ih
  | @operation level _ _ _ _ operator _ _ _ _ _ =>
    intro token htoken
    have hjoin : token = operator := by cases level <;> exact (Option.some.inj htoken).symm
    simp [hjoin]
  | unsigned _ ih => exact ih
  | alone _ ih => exact ih
  | call _ _ _ ih => exact fun token htoken => List.mem_append_left _ (ih token htoken)
  | callWith _ _ _ _ ih _ => exact fun token htoken => List.mem_append_left _ (ih token htoken)
  | grouped _ _ _ ih =>
    intro token htoken
    have hinside := ih token htoken
    simp [hinside]
  | _ => simp [Phrase.pointer?, Expr.token]

lemma token_mem_of_derives {t : List Token} {e : Expr} (h : Derives .expression t e) :
    e.token ∈ t :=
  pointer_mem h e.token rfl

end Trees

section Grammars

variable {α β : Type} {taken : List Token} {bound : Nat}

/-- A grammar that points to what it reads, on lists below a length. -/
abbrev Points (taken : List Token) (bound : Nat) (p : Parse α) : Prop :=
  Alike taken bound p p

/-- What follows an expression may point at the expression. -/
lemma points_expression_bind {f : Expr → Parse β}
    (hf : ∀ value : Expr, Points (value.token :: taken) bound (f value)) :
    Points taken bound (Parse.expression >>= f) := by
  intro tokens hlt
  rcases hp : Parse.expression tokens with ⟨e | value, rest⟩
  · have hfailed := (@alike_expression taken bound tokens hlt).2
    rw [hp] at hfailed
    rw [parse_bind_error hp]
    exact ⟨rfl, hfailed.error⟩
  · obtain ⟨t, rfl, hderives, -⟩ := expression_sound tokens value rest hp
    have hrest : rest.length < bound := (List.suffix_append t rest).length_le.trans_lt hlt
    have hvalue : value.token :: taken ⊆ taken ++ t := by
      apply List.cons_subset.mpr
      exact ⟨List.mem_append_right _ (token_mem_of_derives hderives), List.subset_append_left _ _⟩
    rw [parse_bind_ok hp]
    exact ⟨rfl, (hf value rest hrest).2.after hvalue⟩

lemma points_conditional : Points taken bound Parse.conditional := by
  refine alike_bind alike_expression fun consequence => alike_bind (alike_accept _)
    fun found => ?_
  cases found with
  | none => exact alike_pure _
  | some keyword =>
    refine alike_bind alike_expression fun condition => alike_bind (alike_accept _)
      fun other => ?_
    cases other with
    | none => exact alike_pure _
    | some _ => exact alike_bind alike_expression fun _ => alike_pure _

lemma points_expressions : Points taken bound Parse.expressions :=
  alike_commaList alike_expression

lemma points_target : Points taken bound Parse.target :=
  points_expression_bind fun _ =>
    alike_ite (alike_pure _) (alike_failAt List.mem_cons_self _)

def printEnd (keyword : Token) (parenthesized : Bool) (values : List Expr) : Parse Stmt :=
  if parenthesized then do
    let _ ← Parse.expect .rightParen "Expect ')' after expressions."
    Parse.endOfStatement "Expect new line after `print()` statement."
    return .print keyword values
  else do
    Parse.endOfStatement "Expect new line after `print()` statement."
    return .print keyword values

lemma points_print (token : Token) : Points taken bound (Parse.print token) := by
  have hend (parenthesized : Bool) (values : List Expr) :
      Points taken bound (printEnd token parenthesized values) :=
    alike_ite (alike_bind (alike_expect _ _) fun _ => alike_ended _ _) (alike_ended _ _)
  refine alike_bind (alike_opensBefore _) fun parenthesized => ?_
  refine alike_ite (alike_bind (alike_accept _) fun _ => ?_) ?_
  all_goals
    refine alike_bind (alike_sees _) fun _ => alike_bind alike_atEnd fun _ =>
      alike_bind (alike_sees _) fun _ => alike_ite ?_ ?_
    · exact alike_bind (alike_pure _) fun values => hend parenthesized values
    · exact alike_bind points_expressions fun values => hend parenthesized values

lemma points_giveBack (token : Token) : Points taken bound (Parse.giveBack token) := by
  refine alike_bind (alike_sees _) fun _ => alike_bind alike_atEnd fun _ => alike_ite ?_ ?_
  · exact alike_bind (alike_pure _) fun _ => alike_ended _ _
  · exact alike_bind (alike_commaList points_conditional) fun _ => alike_ended _ _

lemma points_asName (message : String) : Points taken bound (Parse.asName message) := by
  refine alike_bind (alike_word _) fun found => ?_
  cases found with
  | none => exact alike_pure _
  | some _ => exact alike_bind (alike_expect _ _) fun _ => alike_pure _

lemma points_typedName : Points taken bound Parse.typedName :=
  alike_bind (alike_expect _ _) fun _ => alike_bind (points_asName _) fun _ => alike_pure _

lemma points_declarator : Points taken bound Parse.declarator := by
  refine alike_bind (alike_expect _ _) fun _ => alike_bind (points_asName _) fun _ =>
    alike_bind (alike_accept _) fun found => ?_
  cases found with
  | none => exact alike_pure _
  | some _ => exact alike_bind points_conditional fun _ => alike_pure _

lemma points_declare (token : Token) (extent : Extent) :
    Points taken bound (Parse.declare token extent) := by
  refine alike_bind (alike_accept _) fun found => ?_
  cases found with
  | none => exact alike_bind (alike_commaList points_declarator) fun _ => alike_ended _ _
  | some _ =>
    exact alike_bind (alike_commaList points_typedName) fun _ => alike_bind (alike_expect _ _)
      fun _ => alike_bind (alike_expect _ _) fun _ => alike_bind points_expressions
      fun _ => alike_ended _ _

lemma points_const (token : Token) : Points taken bound (Parse.const token) :=
  alike_bind (alike_expect _ _) fun _ => alike_bind (alike_expect _ _) fun _ =>
    alike_bind points_conditional fun _ => alike_ended _ _

lemma points_parameter : Points taken bound Parse.parameter := by
  refine alike_bind (alike_expect _ _) fun _ => alike_bind (points_asName _) fun _ =>
    alike_bind (alike_accept _) fun found => ?_
  cases found with
  | none => exact alike_pure _
  | some _ => exact alike_bind alike_expression fun _ => alike_pure _

lemma points_parameters : Points taken bound Parse.parameters := by
  have hclose (all : List Parameter) : Points taken bound (do
      let _ ← Parse.expect .rightParen "Expect ')' after parameters."
      return all) := alike_bind (alike_expect _ _) fun _ => alike_pure all
  refine alike_bind (alike_accept _) fun found => ?_
  cases found with
  | none => exact alike_pure _
  | some _ =>
    exact alike_bind (alike_sees _) fun _ => alike_ite (alike_bind (alike_pure _) hclose)
      (alike_bind (alike_commaList points_parameter) hclose)

lemma points_released : Points taken bound Parse.released := by
  refine points_expression_bind fun value => ?_
  cases value with
  | name token => exact alike_pure _
  | _ => exact alike_failAt List.mem_cons_self _

lemma points_release (token : Token) : Points taken bound (Parse.release token) :=
  alike_bind (alike_commaList points_released) fun _ => alike_ended _ _

lemma points_assignAll (token : Token) : Points taken bound (Parse.assignAll token) :=
  alike_bind (alike_commaList points_target) fun _ => alike_bind (alike_expect _ _) fun _ =>
    alike_bind (alike_expect _ _) fun _ => alike_bind points_expressions fun _ =>
    alike_ended _ _

lemma points_expressionStatement : Points taken bound Parse.expressionStatement := by
  refine points_expression_bind fun first => alike_bind (alike_accept _) fun found => ?_
  cases found with
  | none => exact alike_ended _ _
  | some operator =>
    have hvalue : Points (first.token :: taken) bound (do
        let value : Expr ← Parse.expression
        Parse.endOfStatement "Expect new line after expression."
        return if operator.kind = .assign then Stmt.assign operator first value
          else Stmt.update operator first value) :=
      alike_bind alike_expression fun _ => alike_ended _ _
    exact alike_ite (alike_bind (alike_failAt List.mem_cons_self _) fun _ => hvalue) hvalue

lemma points_property : Points taken bound Parse.property :=
  alike_bind (alike_expect _ _) fun _ => alike_bind (alike_expect _ _) fun _ =>
    alike_bind alike_expression fun _ => alike_ended _ _

end Grammars

end XBase.Proofs
