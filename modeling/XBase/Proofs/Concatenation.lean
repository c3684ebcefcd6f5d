import XBase.Proofs.Imports
import XBase.Proofs.Joining

/-!
# Reading two texts on end

A good text and any other text behind it, with a line end between them, are read one after the
other: the statements of both if the other text is good too, and the errors of the other text if it
is not, each as many lines further down as the first text takes.
-/

namespace XBase

def Failure.shifted (lines : Nat) (failure : Failure) : Failure :=
  ⟨failure.place.map (Token.shifted lines), failure.cause⟩

/-- The same error some lines further down. Its cause stays as it is, and with it every place in an
imported module. -/
def SyntaxError.shifted (lines : Nat) (e : SyntaxError) : SyntaxError :=
  { e with position := e.position.shifted lines }

namespace Proofs

open SourceUnit (loader loaded importVerdict)

section Shifting

lemma shifted_replaces (lines : Nat) :
    Replaces (fun a b => b = a.shifted lines) fun a b => b = a.shifted lines where
  kind h := by rw [h]; rfl
  token h _ := h
  lexeme h _ := by rw [h]; rfl

lemma stretched_replaces : Replaces Token.Stretched Eq where
  kind h := by rw [h.1]
  token h hkind := by rw [h.1, h.2 hkind]
  lexeme h hkind := h.2 (by simp [hkind])

/-- The same lines read some lines further down, where `found` gives the imported modules. -/
def shiftMirror (lines : Nat) (found : String → Option Stmt) : Mirror where
  place a b := b = a.shifted lines
  token a b := b = a.shifted lines
  failure e e' := e' = e.shifted lines
  failures reported reported' := reported' = reported.map (Failure.shifted lines)
  found := found
  replaces := shifted_replaces lines
  failure_of_token _ h := by rw [h]; rfl
  failure_of_place _ h := by
    cases h with
    | none => rfl
    | some h => rw [h]; rfl
  report h he := by rw [h, he, List.map_append]; rfl

lemma forall₂_shifted (lines : Nat) (tokens : List Token) :
    List.Forall₂ (fun a b => b = a.shifted lines) tokens (tokens.map (Token.shifted lines)) := by
  rw [List.forall₂_map_right_iff]
  exact List.forall₂_same.mpr fun _ _ => rfl

lemma toError_shifted (lines : Nat) (failure : Failure) (finish : Position) :
    (failure.shifted lines).toError (finish.shifted lines) =
      (failure.toError finish).shifted lines := by
  obtain ⟨_ | token, cause⟩ := failure <;> rfl

variable (library : Library) (depth : Nat) (importing : List String)

lemma failures_shifted (lines : Nat) (tokens : List Token) (log log' : List Record) :
    (Read.program (loader library depth importing)
        ⟨tokens.map (Token.shifted lines), [], log'⟩).2.failures =
      (Read.program (loader library depth importing) ⟨tokens, [], log⟩).2.failures.map
        (Failure.shifted lines) := by
  have hloading : (shiftMirror lines (loaded (loader library depth importing))).Loading tokens
      (loader library depth importing) := by
    refine loading_of_verdict (fun _ _ h => moved_of_verdict h) ?_
    rintro keyword _ name causes - rfl - cause -
    rfl
  have hnone : (shiftMirror lines (loaded (loader library depth importing))).failures [] [] := rfl
  exact (mirrors_program (loads_loader library importing depth) hloading
    (forall₂_shifted lines tokens) hnone log log').2

end Shifting

section Concatenation

variable (library : Library) (depth : Nat) (importing : List String)

/-- The tokens of a good text and what follows them are read one after the other. -/
lemma program_append {tokens : List Token} {statements : List Stmt}
    (hbuilds : Builds (loaded (loader library depth importing)) .block tokens statements)
    (rest : List Token) (log : List Record) :
    ∃ log', Read.program (loader library depth importing) ⟨tokens ++ rest, [], log⟩ =
      (statements ++ (Read.program (loader library depth importing) ⟨rest, [], log'⟩).1,
        (Read.program (loader library depth importing) ⟨rest, [], log'⟩).2) := by
  have hfills : Fills (Read.declaration (loader library depth importing)) tokens statements :=
    builds_constructs (knot (loads_loader library importing depth))
      (supplies_loader library importing depth) hbuilds
  exact hfills (fun _ => false) (by simp) rest [] log

/-- A good text keeps its statements if its separators take other line ends. -/
lemma builds_stretched {tokens tokens' : List Token} {statements : List Stmt}
    (hbuilds : Builds (loaded (loader library depth importing)) .block tokens statements)
    (h : List.Forall₂ Token.Stretched tokens tokens') :
    Builds (loaded (loader library depth importing)) .block tokens' statements := by
  obtain ⟨statements', hbuilds', hmoved⟩ := builds_moved stretched_replaces
    (fun _ _ => loaded_module library importing depth) hbuilds h
  rwa [stmts_eq_of_moved statements hmoved]

lemma ofScan_spec (load : Token → String → Read Stmt) (scanned : Scan) :
    ∃ log, (SourceUnit.ofScan load scanned).statements =
        (Read.program load ⟨scanned.tokens, [], log⟩).1 ∧
      (SourceUnit.ofScan load scanned).errors = scanned.errors.map SyntaxError.ofScan ++
        (Read.program load ⟨scanned.tokens, [], log⟩).2.failures.map
          (·.toError scanned.finish) :=
  ⟨_, rfl, rfl⟩

lemma good_empty : (SourceUnit.parseWithin library depth importing "").errors = [] := by
  have htokens : (scan "").tokens = [] := by rw [scan_tokens, readAll_empty]; rfl
  have herrors : (scan "").errors = [] := by rw [scan_errors, readAll_empty]; rfl
  have hbuilds : Builds (loaded (loader library depth importing)) .block (scan "").tokens [] := by
    rw [htokens]
    exact .blockEnd
  exact ((good_iff_builds library importing depth "").mpr ⟨herrors, hbuilds⟩).1

variable {library depth importing} {source : String}
  (hsource : (SourceUnit.parseWithin library depth importing source).errors = []) (other : String)

include hsource

/-- A good text leaves neither a quoted text nor a comment open. -/
lemma clear_of_good : Clear (Piece.cut (endLine source.toList)) := by
  obtain ⟨herrors, hbuilds⟩ := (good_iff_builds library importing depth source).mp ⟨hsource, rfl⟩
  rw [scan_errors] at herrors
  exact clear_of_sequenced herrors (builds_sequenced hbuilds)

lemma joined_unit :
    let tokens := (scan other).tokens.map (Token.shifted (linesBefore source))
    let whole := SourceUnit.parseWithin library depth importing (source ++ "\n" ++ other)
    ∃ log, whole.statements =
        (SourceUnit.parseWithin library depth importing source).statements ++
          (Read.program (loader library depth importing) ⟨tokens, [], log⟩).1 ∧
      whole.errors =
        ((scan other).errors.map (ScanError.shifted (linesBefore source))).map SyntaxError.ofScan ++
          (Read.program (loader library depth importing) ⟨tokens, [], log⟩).2.failures.map
            (·.toError (scan (source ++ "\n" ++ other)).finish) := by
  intro tokens whole
  obtain ⟨herrors, hbuilds⟩ := (good_iff_builds library importing depth source).mp ⟨hsource, rfl⟩
  obtain ⟨before, hstretched, htokens, herrors', -⟩ := scan_joined other (clear_of_good hsource)
  obtain ⟨log, hstatements, hfailures⟩ :=
    ofScan_spec (loader library depth importing) (scan (source ++ "\n" ++ other))
  obtain ⟨log', hprogram⟩ :=
    program_append library depth importing (builds_stretched _ _ _ hbuilds hstretched) tokens log
  rw [htokens, hprogram] at hstatements hfailures
  rw [herrors', herrors, List.nil_append] at hfailures
  exact ⟨log', (congrArg _ (parseWithin_eq library importing depth _)).trans hstatements,
    (congrArg _ (parseWithin_eq library importing depth _)).trans hfailures⟩

lemma joined_errors :
    (SourceUnit.parseWithin library depth importing (source ++ "\n" ++ other)).errors =
      (SourceUnit.parseWithin library depth importing other).errors.map
        (SyntaxError.shifted (linesBefore source)) := by
  obtain ⟨-, -, -, -, hfinish⟩ := scan_joined other (clear_of_good hsource)
  obtain ⟨log, -, herrors⟩ := joined_unit hsource other
  obtain ⟨log', -, herrors'⟩ := ofScan_spec (loader library depth importing) (scan other)
  rw [← parseWithin_eq] at herrors'
  rw [failures_shifted library depth importing _ _ log' log] at herrors
  by_cases hother : other = ""
  · -- Nothing is reported, so it does not matter where the texts end.
    have hgood := good_empty library depth importing
    rw [← hother, herrors'] at hgood
    simp only [List.append_eq_nil_iff, List.map_eq_nil_iff] at hgood
    rw [herrors, herrors', hgood.1, hgood.2]
    rfl
  · rw [herrors, herrors', hfinish hother, List.map_append]
    simp only [List.map_map]
    congr 1
    exact List.map_congr_left fun failure _ => toError_shifted _ failure _

lemma joined_statements
    (hother : (SourceUnit.parseWithin library depth importing other).errors = []) :
    ∃ moved, (SourceUnit.parseWithin library depth importing (source ++ "\n" ++ other)).statements =
        (SourceUnit.parseWithin library depth importing source).statements ++ moved ∧
      List.Forall₂ (Stmt.Moved (fun a b => b = a.shifted (linesBefore source))
          (loaded (loader library depth importing)))
        (SourceUnit.parseWithin library depth importing other).statements moved ∧
      moved = (SourceUnit.ofScan (loader library depth importing) { scan other with
        tokens := (scan other).tokens.map (Token.shifted (linesBefore source)) }).statements := by
  obtain ⟨log, hstatements, -⟩ := joined_unit hsource other
  obtain ⟨-, hbuilds⟩ := (good_iff_builds library importing depth other).mp ⟨hother, rfl⟩
  obtain ⟨moved, hbuilds', hmoved⟩ := builds_moved (shifted_replaces (linesBefore source))
    (fun _ _ => loaded_module library importing depth) hbuilds (forall₂_shifted _ _)
  obtain ⟨log', hblock⟩ := block_of_builds (knot (loads_loader library importing depth))
    (supplies_loader library importing depth) hbuilds' [] log
  have hread : (Read.program (loader library depth importing)
      ⟨(scan other).tokens.map (Token.shifted (linesBefore source)), [], log⟩).1 = moved :=
    congrArg Prod.fst hblock
  rw [hread] at hstatements
  exact ⟨moved, hstatements, hmoved, (unit_of_builds (supplies_loader library importing depth)
    (loads_loader library importing depth) hbuilds').1.symm⟩

end Concatenation

lemma result_eq_ok_iff {unit : SourceUnit} {statements : List Stmt} :
    unit.result = .ok statements ↔ unit.errors = [] ∧ unit.statements = statements := by
  unfold SourceUnit.result
  cases unit.errors <;> simp

lemma result_eq_error_iff {unit : SourceUnit} {errors : List SyntaxError} :
    unit.result = .error errors ↔ unit.errors = errors ∧ errors ≠ [] := by
  unfold SourceUnit.result
  cases unit.errors <;> grind

/-- A good text and any other text behind it, with a line end between them. If the other text is
good, the statements of both follow each other; those of the other text have each token in its
column, as many lines further down as the first text and the line end take, but imported modules
stay as they are. So they are what reading makes of the moved tokens. If the other text has errors,
these are all errors, as many lines further down and with the same causes. -/
theorem parse_concatenation (library : Library) {source : String} {statements : List Stmt}
    (hsource : (SourceUnit.parse library source).result = .ok statements) (other : String) :
    let lines := linesBefore source
    let load := loader library library.size []
    let whole := (SourceUnit.parse library (source ++ "\n" ++ other)).result
    (∀ others, (SourceUnit.parse library other).result = .ok others →
      ∃ moved, whole = .ok (statements ++ moved) ∧
        List.Forall₂ (Stmt.Moved (fun a b => b = a.shifted lines) (loaded load)) others moved ∧
        moved = (SourceUnit.ofScan load
          { scan other with tokens := (scan other).tokens.map (Token.shifted lines) }).statements) ∧
      ∀ errors, (SourceUnit.parse library other).result = .error errors →
        whole = .error (errors.map (SyntaxError.shifted lines)) := by
  intro lines load whole
  obtain ⟨hgood, rfl⟩ := result_eq_ok_iff.mp hsource
  have herrors := joined_errors hgood other
  refine ⟨fun others hothers => ?_, fun errors herror => ?_⟩
  · obtain ⟨hother, rfl⟩ := result_eq_ok_iff.mp hothers
    obtain ⟨moved, hstatements, hmoved, hread⟩ := joined_statements hgood other hother
    have hother : (SourceUnit.parseWithin library library.size [] other).errors = [] := hother
    rw [hother, List.map_nil] at herrors
    exact ⟨moved, result_eq_ok_iff.mpr ⟨herrors, hstatements⟩, hmoved, hread⟩
  · obtain ⟨rfl, hne⟩ := result_eq_error_iff.mp herror
    exact result_eq_error_iff.mpr ⟨herrors, by simpa using hne⟩

/-- A text that ends in a comment without a line end, with the start of a comment quoted in it,
before a good text and before a bad one. -/
theorem quoted_comment_before_texts :
    let library := Library.ofModules [("tools", "y = 1")]
    let source := "x = '/*' // no line end"
    ∃ statements, (SourceUnit.parse library source).result = .ok statements ∧
      (∃ moved, (SourceUnit.parse library (source ++ "\n" ++ "import Tools\nprint(x)")).result =
        .ok (statements ++ moved) ∧ moved.length = 2) ∧
      ∃ errors, (SourceUnit.parse library "x = */ 2").result = .error errors ∧
        (SourceUnit.parse library (source ++ "\n" ++ "x = */ 2")).result =
          .error (errors.map (SyntaxError.shifted 1)) := by
  intro library source
  have hsource : (SourceUnit.parse library source).result =
      .ok (SourceUnit.parse library source).statements := by
    refine result_eq_ok_iff.mpr ⟨?_, rfl⟩
    rw [← List.isEmpty_iff]
    decide +kernel
  have hgood : (SourceUnit.parse library "import Tools\nprint(x)").errors = [] := by
    rw [← List.isEmpty_iff]
    decide +kernel
  have hbad : (SourceUnit.parse library "x = */ 2").errors ≠ [] := by
    rw [← List.isEmpty_eq_false_iff]
    decide +kernel
  have hlength : (SourceUnit.parse library "import Tools\nprint(x)").statements.length = 2 := by
    decide +kernel
  obtain ⟨moved, hwhole, hmoved, -⟩ := (parse_concatenation library hsource
    "import Tools\nprint(x)").1 _ (result_eq_ok_iff.mpr ⟨hgood, rfl⟩)
  have herror := result_eq_error_iff.mpr ⟨rfl, hbad⟩
  have hwhole' := (parse_concatenation library hsource "x = */ 2").2 _ herror
  have hlines : linesBefore source = 1 := by decide +kernel
  rw [hlines] at hwhole'
  exact ⟨_, hsource, ⟨moved, hwhole, hmoved.length_eq.symm.trans hlength⟩, _, herror, hwhole'⟩

end Proofs

end XBase
