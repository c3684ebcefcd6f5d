import XBase.Proofs.Inlining
import XBase.Proofs.Mirror

/-!
# What an import comes to

An import comes to the same wherever it stands: it gives its module and changes nothing else, or it
reports the causes of its failures at its keyword and fails with the last of them. So reading the
same lines at other places imports the same modules and fails for the same causes.
-/

namespace XBase

namespace SourceUnit

/-- The only statement of an imported unit, or why there is none. -/
def verdict (unit : SourceUnit) (name : String) : Except (List SyntaxCause) Stmt :=
  match unit.errors, unit.statements with
  | [], [statement] => .ok statement
  | [], _ => .error [.unresolvedImport name "`endmodule` found in the module body"]
  | errors, _ => .error (errors.map fun e => e.within name)

/-- The module that an import gives, or the causes of its failures. -/
def importVerdict (library : Library) (importing : List String)
    (parse : Option (List String → String → SourceUnit)) (name : String) :
    Except (List SyntaxCause) Stmt :=
  if importing.contains (Text.lower name) then .error [.circularImport name]
  else
    match library.resolve name with
    | .error reason => .error [.unresolvedImport name reason]
    | .ok source =>
      match parse with
      | none => .error [.importDepth name]
      | some parse => (parse (importing ++ [Text.lower name]) (wrap name source)).verdict name

end SourceUnit

namespace Proofs

open SourceUnit (loader loaded importVerdict)

/-- What an import at `token` makes of a reading, if it comes to a verdict. -/
inductive Concludes (token : Token) (reading : Reading) :
    Except (List SyntaxCause) Stmt → Except Failure Stmt × Reading → Prop
  | ok {s : Stmt} {log : List Record} :
      Concludes token reading (.ok s) (.ok s, { reading with log := log })
  | error {causes : List SyntaxCause} {cause : SyntaxCause} {log : List Record} :
      Concludes token reading (.error (causes ++ [cause]))
        (.error ⟨some token, cause⟩,
          ⟨reading.tokens, reading.failures ++ causes.map fun cause => ⟨some token, cause⟩, log⟩)

section Verdicts

variable {library : Library} {importing : List String}
  {parse : Option (List String → String → SourceUnit)} {token : Token} {name : String}

lemma concludes_failAt (cause : SyntaxCause) (reading : Reading) (log : List Record) :
    Concludes token reading (.error [cause])
      (Read.failAt token cause { reading with log := log } : Except Failure Stmt × Reading) := by
  have h : Concludes token reading (.error ([] ++ [cause])) (.error ⟨some token, cause⟩,
      ⟨reading.tokens, reading.failures ++ [].map fun cause => ⟨some token, cause⟩, log⟩) := .error
  rw [List.map_nil, List.append_nil] at h
  exact h

lemma Concludes.report {reading : Reading} {cause : SyntaxCause} {causes : List SyntaxCause}
    {result : Except Failure Stmt × Reading}
    (h : Concludes token { reading with failures := reading.failures ++ [⟨some token, cause⟩] }
      (.error causes) result) : Concludes token reading (.error (cause :: causes)) result := by
  generalize hverdict : Except.error causes = verdict at h
  cases h with
  | ok => cases hverdict
  | @error others last log =>
    cases hverdict
    have h : Concludes token reading (.error (cause :: others ++ [last]))
        (.error ⟨some token, last⟩, ⟨reading.tokens,
          reading.failures ++ (cause :: others).map fun cause => ⟨some token, cause⟩, log⟩) :=
      .error
    simpa using h

lemma concludes_failWithin {errors : List SyntaxError} (hne : errors ≠ []) (reading : Reading)
    (log : List Record) :
    Concludes token reading (.error (errors.map fun e => e.within name))
      (SourceUnit.failWithin token name errors { reading with log := log }) := by
  induction errors generalizing reading with
  | nil => exact absurd rfl hne
  | cons e others ih =>
    cases others with
    | nil => exact concludes_failAt _ reading log
    | cons e' others =>
      exact .report (ih (by simp)
        { reading with failures := reading.failures ++ [⟨some token, e.within name⟩] })

lemma concludes_onlyModule (unit : SourceUnit) (reading : Reading) (log : List Record) :
    Concludes token reading (unit.verdict name)
      (SourceUnit.onlyModule token name unit { reading with log := log }) := by
  rcases unit with ⟨statements, _ | ⟨e, errors⟩, unitLog⟩
  · rcases statements with _ | ⟨statement, _ | ⟨_, _⟩⟩
    · exact concludes_failAt _ reading (log ++ unitLog)
    · exact .ok
    · exact concludes_failAt _ reading (log ++ unitLog)
  · exact concludes_failWithin (by simp) reading (log ++ unitLog)

variable (library importing parse token name) in
/-- What an import comes to does not depend on what stands around it. -/
lemma importModule_concludes (reading : Reading) :
    Concludes token reading (importVerdict library importing parse name)
      (SourceUnit.importModule library importing parse token name reading) := by
  unfold SourceUnit.importModule importVerdict
  split
  · exact concludes_failAt _ reading reading.log
  · cases library.resolve name with
    | error reason => exact concludes_failAt _ reading reading.log
    | ok source =>
      cases parse with
      | none => exact concludes_failAt _ reading _
      | some parse => exact concludes_onlyModule _ reading _

lemma loaded_eq_toOption :
    loaded (SourceUnit.importModule library importing parse) name =
      (importVerdict library importing parse name).toOption := by
  unfold loaded
  have h := importModule_concludes library importing parse
    ⟨.keyword .importWord, .keyword, "import", none, .start⟩ name ⟨[], [], []⟩
  generalize importVerdict library importing parse name = verdict,
    SourceUnit.importModule library importing parse
      ⟨.keyword .importWord, .keyword, "import", none, .start⟩ name ⟨[], [], []⟩ = result at h ⊢
  cases h <;> rfl

end Verdicts

section Loading

variable {library : Library} {importing : List String}
  {parse : Option (List String → String → SourceUnit)} {μ : Mirror} {whole : List Token}

lemma failures_append {reported reported' : List Failure} (h : μ.failures reported reported')
    {token token' : Token} {causes : List SyntaxCause}
    (hcauses : ∀ cause ∈ causes, μ.failure ⟨some token, cause⟩ ⟨some token', cause⟩) :
    μ.failures (reported ++ causes.map fun cause => ⟨some token, cause⟩)
      (reported' ++ causes.map fun cause => ⟨some token', cause⟩) := by
  induction causes generalizing reported reported' with
  | nil => simpa using h
  | cons cause causes ih =>
    simp only [List.forall_mem_cons] at hcauses
    simpa using ih (μ.report h hcauses.1) hcauses.2

/-- Imports that come to the same give related results in parallel readings if their failures are
related, and their modules to themselves. -/
lemma loadsAlike_of_verdict {library' : Library} {importing' : List String}
    {parse' : Option (List String → String → SourceUnit)}
    (hsame : ∀ keyword name, ImportAt whole keyword name →
      importVerdict library' importing' parse' name.lexeme =
        importVerdict library importing parse name.lexeme)
    (hok : ∀ name s, importVerdict library importing parse name = .ok s → μ.Alter s s)
    (herror : ∀ keyword keyword' name causes, ImportAt whole keyword name →
      μ.place keyword keyword' →
      importVerdict library importing parse name.lexeme = .error causes →
      ∀ cause ∈ causes, μ.failure ⟨some keyword, cause⟩ ⟨some keyword', cause⟩) :
    μ.LoadsAlike whole (SourceUnit.importModule library importing parse)
      (SourceUnit.importModule library' importing' parse') := by
  intro keyword keyword' name himport hplace r r' hr
  have h := importModule_concludes library importing parse keyword name.lexeme r
  have h' := importModule_concludes library' importing' parse' keyword' name.lexeme r'
  rw [hsame keyword name himport] at h'
  have hok := hok name.lexeme
  have herror := herror keyword keyword' name
  generalize importVerdict library importing parse name.lexeme = verdict,
    SourceUnit.importModule library importing parse keyword name.lexeme r = x,
    SourceUnit.importModule library' importing' parse' keyword' name.lexeme r' = y
    at h h' hok herror ⊢
  cases h with
  | ok =>
    cases h' with
    | ok => exact ⟨.ok (hok _ rfl) trivial, ⟨hr.tokens, hr.failures⟩, List.suffix_refl _⟩
  | @error causes cause log =>
    have hcauses := herror _ himport hplace rfl
    simp only [List.mem_append, List.mem_singleton] at hcauses
    generalize hverdict : Except.error (causes ++ [cause]) = verdict at h'
    cases h' with
    | ok => cases hverdict
    | error =>
      obtain ⟨rfl, hlast⟩ := List.append_inj' (Except.error.inj hverdict) rfl
      obtain rfl := List.singleton_inj.mp hlast
      refine ⟨.error (hcauses _ (.inr rfl)), ⟨hr.tokens, ?_⟩, List.suffix_refl _⟩
      exact failures_append hr.failures fun cause hcause => hcauses cause (.inl hcause)

lemma loading_of_verdict
    (hok : ∀ name s, importVerdict library importing parse name = .ok s → μ.Alter s s)
    (herror : ∀ keyword keyword' name causes, ImportAt whole keyword name →
      μ.place keyword keyword' →
      importVerdict library importing parse name.lexeme = .error causes →
      ∀ cause ∈ causes, μ.failure ⟨some keyword, cause⟩ ⟨some keyword', cause⟩) :
    μ.Loading whole (SourceUnit.importModule library importing parse) :=
  loadsAlike_of_verdict (fun _ _ _ => rfl) hok herror

/-- The modules that imports give stay as they are, whatever happens to other tokens. -/
lemma moved_of_verdict {S : Token → Token → Prop} {depth : Nat} {name : String} {s : Stmt}
    (h : importVerdict library importing (SourceUnit.deeper library depth) name = .ok s) :
    Stmt.Moved S (loaded (loader library depth importing)) s s := by
  have hloaded : loaded (loader library depth importing) name = some s := by
    rw [loader, loaded_eq_toOption, h]
    rfl
  obtain ⟨token, name', body, rfl⟩ := loaded_module library importing depth hloaded
  exact .imported hloaded

end Loading

end Proofs

end XBase
