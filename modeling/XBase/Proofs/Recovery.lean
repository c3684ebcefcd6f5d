import XBase.Proofs.Concatenation

/-!
# What follows a failing import

An import fails after its line was read to the end, and recovery drops at least one token more. So
what is read behind a failing import starts only at the next place where recovery stops, and the
first line of the text behind it is read only if it starts there.
-/

namespace XBase

def importKeyword : Token :=
  ⟨.keyword .importWord, .keyword, "import", none, .start⟩

/-- The errors that reading some tokens reports, in a text that ends at `finish`. -/
def readErrors (load : Token → String → Read Stmt) (tokens : List Token) (finish : Position) :
    List SyntaxError :=
  (Read.program load ⟨tokens, [], []⟩).2.failures.map (·.toError finish)

namespace Proofs

open SourceUnit (loader loaded importVerdict)

section Line

variable {name : String} (hname : IsName name.toList) (other : String)

include hname

/-- A text whose first line is an import, read piece by piece. -/
lemma readAll_import_line :
    ∃ label sep : Token, label.kind = .name ∧ label.lexeme = name ∧ sep.kind = .separator ∧
      Piece.readAll false .start (Piece.cut (endLine ("import " ++ name ++ "\n" ++ other).toList)) =
        .ok importKeyword :: .ok label :: .ok sep ::
          (Piece.readAll false .start (Piece.cut (endLine other.toList))).map (shiftedItem 1) := by
  obtain ⟨gap, rest, hwhole, hgap, -, hrest⟩ := endLine_joined ("import " ++ name) other
  have himport : Wordy "import".toList := wordy_of_isLower (by simp) rfl
  have htext : endLine ("import " ++ name ++ "\n" ++ other).toList =
      "import".toList ++ ' ' :: (name.toList ++ '\n' :: rest) := by
    rw [hwhole, ← List.append_assoc, ← hgap]
    simp
  obtain ⟨sep, hsep, hsecond⟩ :=
    readAll_line ((Position.start.after "import".toList).after (' ' :: name.toList)) rest
  have hbehind : Piece.readAll false (Position.start.shifted 1) (Piece.cut rest) =
      (Piece.readAll false .start (Piece.cut (endLine other.toList))).map (shiftedItem 1) := by
    rw [readAll_shifted]
    rcases hrest with ⟨rfl, rfl⟩ | ⟨-, rfl⟩
    · rw [readAll_empty, Piece.cut]
      rfl
    · rfl
  rw [after_first_line himport hname, hbehind] at hsecond
  rw [htext, cut_first_line himport hname rfl]
  exact ⟨_, sep, rfl, String.ofList_toList, hsep, congrArg (fun rest => _ :: _ :: rest) hsecond⟩

lemma scan_import_line :
    ∃ label sep : Token, label.kind = .name ∧ label.lexeme = name ∧ sep.kind = .separator ∧
      (scan ("import " ++ name ++ "\n" ++ other)).tokens =
        importKeyword :: label :: sep :: (scan other).tokens.map (Token.shifted 1) ∧
      (scan ("import " ++ name ++ "\n" ++ other)).errors =
        (scan other).errors.map (ScanError.shifted 1) := by
  obtain ⟨label, sep, hkind, hlexeme, hsep, hread⟩ := readAll_import_line hname other
  refine ⟨label, sep, hkind, hlexeme, hsep, ?_, ?_⟩
  · rw [scan_tokens, hread, scan_tokens, ← shifted_tokens]
    rfl
  · rw [scan_errors, hread, scan_errors, ← shifted_errors]
    rfl

lemma finish_import_line (hother : other ≠ "") :
    (scan ("import " ++ name ++ "\n" ++ other)).finish = (scan other).finish.shifted 1 := by
  have hline : '\n' ∉ name.toList := fun h => ne_of_isWord (hname.isWord h) (by decide) rfl
  have hlines : linesBefore ("import " ++ name) = 1 := by
    simp [linesBefore, List.count_eq_zero_of_not_mem hline]
  rw [finish_joined ("import " ++ name) hother, hlines]

end Line

section Reading

variable (library : Library) (depth : Nat) (importing : List String)

/-- The same reading twice, of which the second has reported some failures before. -/
def behindMirror (reported : List Failure) (found : String → Option Stmt) : Mirror where
  place := Eq
  token := Eq
  failure := Eq
  failures failures failures' := failures' = reported ++ failures
  found := found
  replaces := replaces_self
  failure_of_token _ h := by rw [h]
  failure_of_place _ h := by rw [eq_of_rel h fun _ _ h => h]
  report h he := by rw [h, he, List.append_assoc]

lemma failures_behind (tokens : List Token) (reported : List Failure) (log log' : List Record) :
    (Read.program (loader library depth importing) ⟨tokens, reported, log'⟩).2.failures =
      reported ++
        (Read.program (loader library depth importing) ⟨tokens, [], log⟩).2.failures := by
  have hloading : (behindMirror reported (loaded (loader library depth importing))).Loading tokens
      (loader library depth importing) := by
    refine loading_of_verdict (fun _ _ h => moved_of_verdict h) ?_
    rintro keyword _ name causes - rfl - cause -
    rfl
  have hnone : (behindMirror reported (loaded (loader library depth importing))).failures []
      reported := (List.append_nil reported).symm
  exact (mirrors_program (loads_loader library importing depth) hloading
    (List.forall₂_same.mpr fun _ _ => rfl) hnone log log').2

lemma resume_shifted (lines : Nat) (tokens : List Token) :
    resume (tokens.map (Token.shifted lines)) = (resume tokens).map (Token.shifted lines) := by
  have hmoved := forall₂_resume (μ := shiftMirror lines fun _ => none)
    (forall₂_shifted lines tokens)
  have heq : List.Forall₂ Eq ((resume tokens).map (Token.shifted lines))
      (resume (tokens.map (Token.shifted lines))) :=
    List.forall₂_map_left_iff.mpr (hmoved.imp fun _ _ h => Eq.symm h)
  exact (List.forall₂_eq_eq_eq ▸ heq).symm

variable {library depth importing} {label sep : Token}

/-- An import reads its line to the end before it looks for the module. -/
lemma importStatement_line (load : Token → String → Read Stmt) (keyword : Token)
    (hname : label.kind = .name) (hsep : sep.kind = .separator) (rest : List Token)
    (reported : List Failure) (log : List Record) :
    Read.importStatement load keyword ⟨label :: sep :: rest, reported, log⟩ =
      load keyword label.lexeme ⟨rest, reported, log⟩ := by
  have hlabel : Read.lift (Parse.expect .name "Expect import name.")
      ⟨label :: sep :: rest, reported, log⟩ = (.ok label, ⟨sep :: rest, reported, log⟩) := by
    simp [Read.lift, Parse.expect, hname]
  have hend : Read.lift (Parse.endOfStatement "Expect new line after import name.")
      ⟨sep :: rest, reported, log⟩ = (.ok (), ⟨rest, reported, log⟩) := by
    simp [Read.lift, Parse.endOfStatement, hsep]
  exact (read_bind_ok hlabel).trans (read_bind_ok hend)

variable {keyword : Token} (hkeyword : keyword.kind = .keyword .importWord)
  (hname : label.kind = .name) (hsep : sep.kind = .separator) {causes : List SyntaxCause}
  (hfails : importVerdict library importing (SourceUnit.deeper library depth) label.lexeme =
    .error causes)

include hkeyword hname hsep hfails

/-- A failing import reports its failures and leaves what recovery goes on with. -/
lemma declaration_failing_import (rest : List Token) (log : List Record) :
    ∃ log', Read.declaration (loader library depth importing)
        ⟨keyword :: label :: sep :: rest, [], log⟩ =
      (none, ⟨resume rest, causes.map fun cause => ⟨some keyword, cause⟩, log'⟩) := by
  have hknot := knot (loads_loader library importing depth)
  have hread : Read.anyDeclaration (Read.declaration (loader library depth importing))
      (Read.statement (loader library depth importing)) (loader library depth importing)
      ⟨keyword :: label :: sep :: rest, [], log⟩ =
        loader library depth importing keyword label.lexeme ⟨rest, [], log⟩ := by
    have hform := importStatement_line (loader library depth importing) keyword hname hsep rest []
      log
    simpa only [Read.anyDeclaration, Read.declarationForm, Read.anyStatement, Read.statementForm,
      hkeyword] using hform
  have hconcludes := importModule_concludes library importing (SourceUnit.deeper library depth)
    keyword label.lexeme ⟨rest, [], log⟩
  rw [hfails] at hconcludes
  rw [hknot.declaration_eq]
  unfold Read.recovering
  dsimp only
  rw [if_neg (by simp [hkeyword]), hread]
  change Concludes _ _ _ (loader library depth importing keyword label.lexeme ⟨rest, [], log⟩)
    at hconcludes
  generalize loader library depth importing keyword label.lexeme ⟨rest, [], log⟩ = outcome,
    hverdict : Except.error causes = verdict at hconcludes
  cases hconcludes with
  | ok => cases hverdict
  | @error others last log' =>
    cases hverdict
    exact ⟨log', by simp⟩

/-- The failures of a text whose first line is a failing import. -/
lemma program_failing_import (rest : List Token) (log log' : List Record) :
    (Read.program (loader library depth importing)
        ⟨keyword :: label :: sep :: rest, [], log⟩).2.failures =
      (causes.map fun cause => ⟨some keyword, cause⟩) ++
        (Read.program (loader library depth importing) ⟨resume rest, [], log'⟩).2.failures := by
  have hknot := knot (loads_loader library importing depth)
  obtain ⟨after, hdeclaration⟩ :=
    declaration_failing_import hkeyword hname hsep hfails rest log
  rw [← failures_behind library depth importing (resume rest) _ log' after]
  unfold Read.program
  rw [hknot.unguarded.block (fun _ => false) rfl, if_neg Bool.false_ne_true, hdeclaration]

end Reading

section Errors

variable (library : Library) (depth : Nat) (importing : List String)

lemma errors_eq (text : String) :
    (SourceUnit.parseWithin library depth importing text).errors =
      (scan text).errors.map SyntaxError.ofScan ++
        readErrors (loader library depth importing) (scan text).tokens (scan text).finish := by
  obtain ⟨log, -, herrors⟩ := ofScan_spec (loader library depth importing) (scan text)
  rw [parseWithin_eq, herrors, readErrors,
    failures_behind library depth importing (scan text).tokens [] [] log, List.nil_append]

lemma readErrors_shifted (tokens : List Token) (finish : Position) :
    readErrors (loader library depth importing) (tokens.map (Token.shifted 1))
        (finish.shifted 1) =
      (readErrors (loader library depth importing) tokens finish).map (SyntaxError.shifted 1) := by
  unfold readErrors
  rw [failures_shifted library depth importing 1 tokens [] [], List.map_map, List.map_map]
  exact List.map_congr_left fun failure _ => toError_shifted 1 failure finish

lemma readErrors_nil (load : Token → String → Read Stmt) (finish : Position) :
    readErrors load [] finish = [] := by
  unfold readErrors Read.program
  rw [Read.block.eq_def]
  rfl

variable {library depth importing}

/-- A good line in front of other tokens has no part in their errors. -/
lemma readErrors_good_line {line : List Token} (hclosed : Closed line) {finish : Position}
    (hgood : readErrors (loader library depth importing) line finish = []) (rest : List Token) :
    readErrors (loader library depth importing) (line ++ rest) finish =
      readErrors (loader library depth importing) rest finish := by
  have hbuilds : Builds (loaded (loader library depth importing)) .block line
      (Read.program (loader library depth importing) ⟨line, [], []⟩).1 :=
    builds_of_block (knot (loads_loader library importing depth))
      (delivers_loader library importing depth) hclosed rfl (List.map_eq_nil_iff.mp hgood)
  obtain ⟨log, hprogram⟩ := program_append library depth importing hbuilds rest []
  unfold readErrors
  rw [hprogram, failures_behind library depth importing rest [] [] log, List.nil_append]

/-- Recovery drops a line in which no other statement starts. -/
lemma resume_line {first sep : Token} {line : List Token} (hsep : sep.kind = .separator)
    (hplain : ∀ token ∈ first :: line, token.kind ≠ .separator)
    (hinner : ∀ token ∈ line, startsStatement token.kind = false) (rest : List Token) :
    resume (first :: line ++ sep :: rest) = rest := by
  change resumeAfter first (line ++ sep :: rest) = rest
  have hbehind : resumeAfter sep rest = rest := by
    cases rest with
    | nil => rfl
    | cons token rest => exact if_pos (.inl hsep)
  induction line generalizing first with
  | nil =>
    have hfirst : first.kind ≠ .separator := hplain first (by simp)
    rw [List.nil_append, resumeAfter, if_neg (by simp [hfirst, hsep, startsStatement]), hbehind]
  | cons token line ih =>
    have hfirst : first.kind ≠ .separator := hplain first (by simp)
    have htoken : startsStatement token.kind = false := hinner token (by simp)
    rw [List.cons_append, resumeAfter, if_neg (by simp [hfirst, htoken])]
    exact ih (fun other hother => hplain other (List.mem_cons_of_mem first hother))
      fun other hother => hinner other (List.mem_cons_of_mem token hother)

lemma failing_import_errors {name : String} (hname : IsName name.toList)
    {causes : List SyntaxCause}
    (hfails : importVerdict library importing (SourceUnit.deeper library depth) name =
      .error causes) (other : String) :
    (SourceUnit.parseWithin library depth importing ("import " ++ name ++ "\n" ++ other)).errors =
      ((scan other).errors.map SyntaxError.ofScan).map (SyntaxError.shifted 1) ++
        (causes.map fun cause => ⟨.start, some "import", cause⟩) ++
        (readErrors (loader library depth importing) (resume (scan other).tokens)
          (scan other).finish).map (SyntaxError.shifted 1) := by
  obtain ⟨label, sep, hkind, rfl, hsep, htokens, herrors⟩ := scan_import_line hname other
  let finish := (scan ("import " ++ label.lexeme ++ "\n" ++ other)).finish
  have hbehind : readErrors (loader library depth importing)
      ((resume (scan other).tokens).map (Token.shifted 1)) finish =
        (readErrors (loader library depth importing) (resume (scan other).tokens)
          (scan other).finish).map (SyntaxError.shifted 1) := by
    by_cases hother : other = ""
    · -- Nothing is reported, so it does not matter where the texts end.
      have hnone : (scan other).tokens = [] := by
        rw [hother, scan_tokens, readAll_empty]
        rfl
      rw [hnone, resume, List.map_nil, readErrors_nil, readErrors_nil, List.map_nil]
    · have hfinish : finish = (scan other).finish.shifted 1 := finish_import_line hname other hother
      rw [hfinish, readErrors_shifted]
  have hread : readErrors (loader library depth importing)
      (importKeyword :: label :: sep :: (scan other).tokens.map (Token.shifted 1)) finish =
        (causes.map fun cause => ⟨.start, some "import", cause⟩) ++
          readErrors (loader library depth importing)
            ((resume (scan other).tokens).map (Token.shifted 1)) finish := by
    unfold readErrors
    rw [program_failing_import rfl hkind hsep hfails _ [] [], List.map_append, List.map_map,
      resume_shifted]
    rfl
  rw [errors_eq, herrors, htokens, hread, hbehind, List.map_map, List.map_map, List.append_assoc]
  rfl

lemma shifted_injective (lines : Nat) : Function.Injective (SyntaxError.shifted lines) := by
  rintro ⟨⟨line, column⟩, lexeme, cause⟩ ⟨⟨line', column'⟩, lexeme', cause'⟩ h
  simpa [SyntaxError.shifted, Position.shifted] using h

end Errors

/-- A text behind the line of an import that fails, for whatever causes. The errors of the import
stand at its keyword. Of the text only what recovery leaves is read: the errors of its scan are
all reported, one line further down, but those of its grammar only where they come from the tokens
that are left. So they are the ones that the text has alone exactly if the dropped tokens make no
difference; it is enough that the text starts with a good line in which no other statement
starts. -/
theorem failing_import_drops_tokens (library : Library) (depth : Nat) (importing : List String)
    {name : String} (hname : IsName name.toList) {causes : List SyntaxCause}
    (hfails : importVerdict library importing (SourceUnit.deeper library depth) name =
      .error causes) (other : String) :
    let load := loader library depth importing
    let text := scan other
    let whole := SourceUnit.parseWithin library depth importing ("import " ++ name ++ "\n" ++ other)
    let scanned := text.errors.map SyntaxError.ofScan
    let imported : List SyntaxError := causes.map fun cause => ⟨.start, some "import", cause⟩
    let own := readErrors load text.tokens text.finish
    let left := readErrors load (resume text.tokens) text.finish
    (SourceUnit.parseWithin library depth importing other).errors = scanned ++ own ∧
    whole.errors =
      scanned.map (SyntaxError.shifted 1) ++ imported ++ left.map (SyntaxError.shifted 1) ∧
    (whole.errors = scanned.map (SyntaxError.shifted 1) ++ imported ++
      own.map (SyntaxError.shifted 1) ↔ left = own) ∧
    ∀ first line sep rest, text.tokens = first :: line ++ sep :: rest → sep.kind = .separator →
      (∀ token ∈ first :: line, token.kind ≠ .separator) →
      (∀ token ∈ line, startsStatement token.kind = false) →
      readErrors load (first :: line ++ [sep]) text.finish = [] → left = own := by
  intro load text whole scanned imported own left
  have hwhole := failing_import_errors hname hfails other
  refine ⟨errors_eq library depth importing other, hwhole, ?_, ?_⟩
  · have hinjective := List.map_injective_iff.mpr (shifted_injective 1)
    exact (Eq.congr_left hwhole).trans ((List.append_right_inj _).trans hinjective.eq_iff)
  · intro first line sep rest htokens hsep hplain hinner hgood
    have hclosed : Closed (first :: line ++ [sep]) := .inr ⟨sep, List.getLast?_concat .., hsep⟩
    have hdropped := readErrors_good_line hclosed hgood rest
    rw [List.append_assoc, List.singleton_append] at hdropped
    change readErrors load (resume text.tokens) text.finish =
      readErrors load text.tokens text.finish
    rw [htokens, resume_line hsep hplain hinner, hdropped]

/-- A missing module before a good line and a bad one: the bad line is reported as it is alone. -/
theorem bad_second_line_reported :
    let library := Library.ofModules []
    let cause := SyntaxCause.unresolvedImport "nope" "no module named `nope`"
    let other := "x = true\n)"
    let own := (SourceUnit.parseWithin library 0 [] other).errors
    importVerdict library [] none "nope" = .error [cause] ∧
      own.map SyntaxError.lexeme = [some ")"] ∧
      (SourceUnit.parseWithin library 0 [] ("import " ++ "nope" ++ "\n" ++ other)).errors =
        ⟨.start, some "import", cause⟩ :: own.map (SyntaxError.shifted 1) := by
  intro library cause other own
  have hname : IsName "nope".toList := ⟨wordy_of_isLower (by simp) rfl, rfl⟩
  have hfails : importVerdict library [] none "nope" = .error [cause] := rfl
  have hlexemes : own.map SyntaxError.lexeme = [some ")"] := by decide +kernel
  obtain ⟨hown, -, hsame, hline⟩ := failing_import_drops_tokens library 0 [] hname hfails other
  have hkinds : (scan other).tokens.map Token.kind =
      [.name, .assign, .trueWord, .separator, .rightParen, .separator] := by
    decide +kernel
  have hscanned : (scan other).errors = [] := by
    rw [← List.isEmpty_iff]
    decide +kernel
  have hgood : readErrors (loader library 0 []) ((scan other).tokens.take 4) (scan other).finish =
      [] := by
    rw [← List.isEmpty_iff]
    decide +kernel
  simp only [List.map_eq_cons_iff] at hkinds
  obtain ⟨x, _, htokens, hx, assign, _, rfl, hassign, value, _, rfl, hvalue, sep, rest, rfl, hsep,
    -⟩ := hkinds
  rw [htokens] at hgood
  have hplain : ∀ token ∈ [x, assign, value], token.kind ≠ .separator := by
    simp [hx, hassign, hvalue]
  have hinner : ∀ token ∈ [assign, value], startsStatement token.kind = false := by
    simp [hassign, hvalue, startsStatement]
  rw [hscanned] at hown hsame
  have hwhole := hsame.mpr (hline x [assign, value] sep rest htokens hsep hplain hinner hgood)
  refine ⟨hfails, hlexemes, hwhole.trans ?_⟩
  exact congrArg (fun errors => _ :: errors.map (SyntaxError.shifted 1)) hown.symm

/-- A missing module hides an error of the next line, and it adds one where the next line starts a
block. -/
theorem failing_import_hides_and_adds :
    let library := Library.ofModules []
    let block := "if x\n? 1\nendif"
    (SourceUnit.parse library ")").errors.map SyntaxError.lexeme = [some ")"] ∧
    (SourceUnit.parse library ("import nope\n" ++ ")")).errors.map SyntaxError.lexeme =
      [some "import"] ∧
    (SourceUnit.parse library block).errors.map SyntaxError.lexeme = [] ∧
    (SourceUnit.parse library ("import nope\n" ++ block)).errors.map SyntaxError.lexeme =
      [some "import", some "endif"] := by
  decide +kernel

end Proofs

end XBase
