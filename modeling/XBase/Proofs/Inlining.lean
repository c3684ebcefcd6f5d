import XBase.Proofs.Mirror
import XBase.Proofs.Wrapping

/-!
# Imports as modules written in place

An import is read as a module whose body is the imported text. It is good exactly if the text is
good alone, and then its body holds the statements of the text one line further down.
-/

namespace XBase

namespace SourceUnit

/-- Reads the texts of imported modules, where imports are nested at most `depth` deep. -/
def deeper (library : Library) : Nat → Option (List String → String → SourceUnit)
  | 0 => none
  | depth + 1 => some (parseWithin library depth)

/-- Loads imported modules, where imports are nested at most `depth` deep. -/
def loader (library : Library) (depth : Nat) (importing : List String) :
    Token → String → Read Stmt :=
  importModule library importing (deeper library depth)

/-- The module that a loader gives for a name, if it gives one. -/
def loaded (load : Token → String → Read Stmt) (name : String) : Option Stmt :=
  (load ⟨.keyword .importWord, .keyword, "import", none, .start⟩ name ⟨[], [], []⟩).1.toOption

end SourceUnit

namespace Proofs

open SourceUnit (loader loaded)

variable {found : String → Option Stmt} {t body : List Token} {statements : List Stmt}
  {keyword : Token} {s : Stmt} {name : String}

lemma block_cases (h : Builds found .block t statements) :
    t = [] ∧ statements = [] ∨
    (∃ sep u, t = sep :: u ∧ sep.kind = .separator ∧ Builds found .block u statements) ∨
    ∃ u v s rest, t = u ++ v ∧ statements = s :: rest ∧ Builds found .declaration u s ∧
      Builds found .block v rest := by
  cases h with
  | blockEnd => exact .inl ⟨rfl, rfl⟩
  | blockSkip hsep h => exact .inr (.inl ⟨_, _, rfl, hsep, h⟩)
  | blockNext h hrest => exact .inr (.inr ⟨_, _, _, _, rfl, rfl, h, hrest⟩)

lemma separators_of_nothing (h : Builds found .block t []) :
    ∀ token ∈ t, token.kind = .separator := by
  induction t with
  | nil => simp
  | cons token t ih =>
    rcases block_cases h with ⟨hnil, -⟩ | ⟨sep, u, heq, hsep, h⟩ | ⟨u, v, s, rest, -, hcons, -⟩
    · cases hnil
    · obtain ⟨rfl, rfl⟩ := List.cons.inj heq
      exact List.forall_mem_cons.mpr ⟨hsep, ih h⟩
    · cases hcons

section Modules

variable {declaration : Reading → Option Stmt × Reading} {statement : Read Stmt}
  {load : Token → String → Read Stmt} {found : String → Option Stmt}
  (h : Knot declaration statement load) (hfound : Supplies load found)

include h hfound

lemma module_of_declaration (hkeyword : keyword.kind = .keyword .moduleWord)
    (hbuilds : Builds found .declaration (keyword :: t) s) :
    ∃ name sep u last sep' body, t = name :: sep :: (u ++ [last, sep']) ∧
      last.kind = .keyword .endModule ∧ sep'.kind = .separator ∧
      s = .module keyword name body ∧ Builds found .block u body := by
  cases hbuilds with
  | stated hs =>
    obtain ⟨⟨first, u, heq, hfirst⟩, -⟩ := builds_constructs h hfound hs
    obtain ⟨rfl, -⟩ := List.cons.inj heq
    rw [hkeyword] at hfirst
    rcases hfirst with hfirst | hfirst <;> cases hfirst
  | announced hs =>
    cases hs with
    | @declared _ extent _ _ hother _ =>
      rw [hkeyword] at hother
      cases extent <;> cases hother
    | constant hother _ => cases hkeyword.symm.trans hother
  | method hf =>
    cases hf with
    | function hother => cases hkeyword.symm.trans hother
  | module _ _ _ hbody hlast hsep' => exact ⟨_, _, _, _, _, _, rfl, hlast, hsep', rfl, hbody⟩
  | classDef hother => cases hkeyword.symm.trans hother

lemma module_of_block (hkeyword : keyword.kind = .keyword .moduleWord)
    (hbuilds : Builds found .block (keyword :: t) [s]) :
    ∃ name sep u last sep' body v, t = name :: sep :: (u ++ last :: sep' :: v) ∧
      last.kind = .keyword .endModule ∧ sep'.kind = .separator ∧
      (∀ token ∈ v, token.kind = .separator) ∧
      s = .module keyword name body ∧ Builds found .block u body := by
  rcases block_cases hbuilds with
    ⟨hnil, -⟩ | ⟨sep, u, heq, hsep, -⟩ | ⟨u, v, s', rest, heq, hs, hu, hv⟩
  · cases hnil
  · obtain ⟨rfl, -⟩ := List.cons.inj heq
    cases hkeyword.symm.trans hsep
  · obtain ⟨rfl, rfl⟩ := List.cons.inj hs
    obtain ⟨⟨first, u, rfl, -⟩, -⟩ := builds_constructs h hfound hu
    obtain ⟨rfl, rfl⟩ := List.cons.inj heq
    obtain ⟨name, sep, w, last, sep', body, rfl, hlast, hsep', rfl, hbody⟩ :=
      module_of_declaration h hfound hkeyword hu
    exact ⟨name, sep, w, last, sep', body, v, by simp, hlast, hsep', separators_of_nothing hv, rfl,
      hbody⟩

omit h hfound in
/-- The word that closes a module is the last token but one, if only separators follow it. -/
lemma eq_of_closing {u v : List Token} {last last' sep sep' : Token}
    (heq : body ++ [last, sep] = u ++ last' :: sep' :: v) (hlast : last.kind ≠ .separator)
    (hsep' : sep'.kind = .separator) (hv : ∀ token ∈ v, token.kind = .separator) : body = u := by
  rcases List.eq_nil_or_concat v with rfl | ⟨w, token, rfl⟩
  · exact List.append_inj_left' heq rfl
  · have heq : (body ++ [last]) ++ [sep] = (u ++ last' :: sep' :: w) ++ [token] := by
      simpa using heq
    have hends := congrArg List.getLast? (List.append_inj_left' heq rfl)
    rw [List.getLast?_concat, List.getLast?_append_of_ne_nil u (by simp), List.getLast?_cons_cons]
      at hends
    have hmem : last ∈ sep' :: w := List.mem_of_getLast? hends.symm
    rcases List.mem_cons.mp hmem with rfl | hmem
    · exact absurd hsep' hlast
    · exact absurd (hv last (by simp [hmem])) hlast

/-- A module in which only its own last line closes it. -/
lemma builds_of_framed {tokens : List Token} (hframed : Framed name body tokens)
    (hbuilds : Builds found .block tokens [s]) :
    ∃ statements, Builds found .block body statements := by
  obtain ⟨hkeyword, hkind, hname, hsep, hlast, hsep'⟩ := hframed
  obtain ⟨_, _, u, last', sep'', statements, v, heq, hlast', hsep'', hv, -, hbody⟩ :=
    module_of_block h hfound hkeyword hbuilds
  obtain rfl := eq_of_closing (List.cons.inj (List.cons.inj heq).2).2 (by simp [hlast]) hsep'' hv
  exact ⟨statements, hbody⟩

end Modules

lemma framed_builds {tokens : List Token} (hframed : Framed name body tokens)
    (hbody : Builds found .block body statements) :
    ∃ token name', name'.lexeme = name ∧
      Builds found .block tokens [.module token name' statements] := by
  obtain @⟨keyword, name', _, _, _, hkeyword, hkind, hname, hsep, hlast, hsep'⟩ := hframed
  have hmodule := Builds.module hkeyword hkind hsep hbody hlast hsep'
  exact ⟨keyword, name', hname, by simpa using hmodule.blockNext .blockEnd⟩

section Loading

variable {library : Library} {importing : List String}
  {parse : Option (List String → String → SourceUnit)} {name : String}

/-- What an import has to find: a module that is not being imported yet, its text, and one statement
in the text with the lines of the module around it. -/
def Importable (library : Library) (importing : List String)
    (parse : Option (List String → String → SourceUnit)) (name : String) (s : Stmt) : Prop :=
  Text.lower name ∉ importing ∧
    ∃ source read, library.resolve name = .ok source ∧ parse = some read ∧
      (read (importing ++ [Text.lower name]) (SourceUnit.wrap name source)).errors = [] ∧
      (read (importing ++ [Text.lower name]) (SourceUnit.wrap name source)).statements = [s]

lemma failWithin_fails (token : Token) (name : String) (errors : List SyntaxError)
    (reading : Reading) (s : Stmt) :
    (SourceUnit.failWithin token name errors reading).1 ≠ .ok s := by
  induction errors generalizing reading with
  | nil => exact fun h => by cases h
  | cons e others ih =>
    cases others with
    | nil => exact fun h => by cases h
    | cons e' others => exact ih _

lemma onlyModule_ok {token : Token} {unit : SourceUnit} {reading : Reading}
    (h : (SourceUnit.onlyModule token name unit reading).1 = .ok s) :
    unit.errors = [] ∧ unit.statements = [s] := by
  rcases unit with ⟨statements, _ | ⟨e, errors⟩, log⟩
  · rcases statements with _ | ⟨statement, _ | ⟨_, _⟩⟩
    · cases h
    · cases h
      exact ⟨rfl, rfl⟩
    · cases h
  · exact absurd h (failWithin_fails token name (e :: errors) _ s)

lemma importable_of_ok {token : Token} {reading : Reading}
    (h : (SourceUnit.importModule library importing parse token name reading).1 = .ok s) :
    Importable library importing parse name s := by
  unfold SourceUnit.importModule at h
  split at h
  · cases h
  · next hnew =>
    cases hsource : library.resolve name with
    | error reason =>
      rw [hsource] at h
      cases h
    | ok source =>
      rw [hsource] at h
      cases parse with
      | none => cases h
      | some read =>
        exact ⟨by simpa using hnew, source, read, hsource, rfl, onlyModule_ok h⟩

lemma onlyModule_finds {unit : SourceUnit} (herrors : unit.errors = [])
    (hstatements : unit.statements = [s]) (token : Token) (name : String) :
    Finds (SourceUnit.onlyModule token name unit) [] s := by
  obtain ⟨statements, errors, log⟩ := unit
  obtain rfl : errors = [] := herrors
  obtain rfl : statements = [s] := hstatements
  exact fun _ _ _ => ⟨_, rfl⟩

lemma Importable.finds (h : Importable library importing parse name s) (token : Token) :
    Finds (SourceUnit.importModule library importing parse token name) [] s := by
  obtain ⟨hnew, source, read, hsource, rfl, herrors, hstatements⟩ := h
  intro rest failures log
  unfold SourceUnit.importModule
  rw [if_neg (by simpa using hnew), hsource]
  exact onlyModule_finds herrors hstatements token name rest failures _

lemma loaded_eq_some_iff :
    loaded (SourceUnit.importModule library importing parse) name = some s ↔
      Importable library importing parse name s := by
  unfold loaded
  constructor
  · intro h
    cases hload : (SourceUnit.importModule library importing parse
        ⟨.keyword .importWord, .keyword, "import", none, .start⟩ name ⟨[], [], []⟩).1 with
    | error failure =>
      rw [hload] at h
      cases h
    | ok s' =>
      rw [hload] at h
      cases h
      exact importable_of_ok hload
  · intro h
    obtain ⟨log, hload⟩ := h.finds ⟨.keyword .importWord, .keyword, "import", none, .start⟩ [] [] []
    rw [List.append_nil] at hload
    rw [hload]
    rfl

variable (library importing) (depth : Nat)

lemma loads_loader : Loads (loader library depth importing) :=
  loads_importModule library importing _

lemma supplies_loader :
    Supplies (loader library depth importing) (loaded (loader library depth importing)) :=
  fun _ _ h token => (loaded_eq_some_iff.mp h).finds token

lemma delivers_loader :
    Delivers (loader library depth importing) (loaded (loader library depth importing)) :=
  fun _ _ _ _ _ h => loaded_eq_some_iff.mpr (importable_of_ok (congrArg Prod.fst h))

lemma parseWithin_eq (source : String) :
    SourceUnit.parseWithin library depth importing source =
      SourceUnit.ofScan (loader library depth importing) (scan source) := by
  cases depth <;> rfl

/-- The statements of a good text are derived from its tokens, and what is derived from the tokens
of a text are its statements. -/
lemma good_iff_builds (source : String) :
    (SourceUnit.parseWithin library depth importing source).errors = [] ∧
        (SourceUnit.parseWithin library depth importing source).statements = statements ↔
      (scan source).errors = [] ∧
        Builds (loaded (loader library depth importing)) .block (scan source).tokens
          statements := by
  rw [parseWithin_eq]
  constructor
  · rintro ⟨hgood, rfl⟩
    exact builds_of_unit (delivers_loader library importing depth)
      (loads_loader library importing depth) (closed_scan source) hgood
  · rintro ⟨herrors, hbuilds⟩
    obtain ⟨hstatements, hunit⟩ := unit_of_builds (supplies_loader library importing depth)
      (loads_loader library importing depth) hbuilds
    exact ⟨by rw [hunit, herrors]; rfl, hstatements⟩

lemma loaded_module (h : loaded (loader library depth importing) name = some s) :
    ∃ token name' body, s = .module token name' body := by
  obtain ⟨-, source, read, -, hread, herrors, hstatements⟩ := loaded_eq_some_iff.mp h
  cases depth with
  | zero => cases hread
  | succ depth =>
    cases hread
    obtain ⟨-, hbuilds⟩ := (good_iff_builds library _ depth _).mp ⟨herrors, hstatements⟩
    obtain ⟨keyword, rest, htokens, hkeyword⟩ := wrap_starts name source
    rw [htokens] at hbuilds
    obtain ⟨name', sep, u, last, sep', body, v, -, -, -, -, hs, -⟩ :=
      module_of_block (knot (loads_loader library _ depth)) (supplies_loader library _ depth)
        hkeyword hbuilds
    exact ⟨keyword, name', body, hs⟩

end Loading

section Inlining

lemma lowered_replaces : Replaces Token.Lowered fun a b => b = a.down where
  kind h := by rw [h.1]; rfl
  token h hkind := by rw [h.1, h.2 hkind]; rfl
  lexeme h hkind := h.2 (by simp [hkind])

lemma raised_replaces : Replaces (fun b a => Token.Lowered a b) fun _ _ => True where
  kind h := by rw [h.1]; rfl
  token _ _ := trivial
  lexeme {a b} h hkind := by
    have hsame : a.kind = b.kind := by rw [h.1]; rfl
    exact (h.2 (by simp [← hsame, hkind])).symm

variable (library : Library) (importing : List String) (depth : Nat) {name : String}
  (hname : IsName name.toList) (source : String)

include hname

/-- A text that is good within a module is good alone. -/
lemma good_alone
    (hgood : (SourceUnit.parseWithin library depth importing
      (SourceUnit.wrap name source)).errors = [])
    (hs : (SourceUnit.parseWithin library depth importing
      (SourceUnit.wrap name source)).statements = [s]) :
    (SourceUnit.parseWithin library depth importing source).errors = [] := by
  obtain ⟨body, hframed, hlowered, herrors⟩ := scan_wrap hname source
  obtain ⟨hscan, hbuilds⟩ := (good_iff_builds library importing depth _).mp ⟨hgood, hs⟩
  obtain ⟨statements, hbody⟩ := builds_of_framed (knot (loads_loader library importing depth))
    (supplies_loader library importing depth) hframed hbuilds
  obtain ⟨statements', hsource, -⟩ := builds_moved raised_replaces
    (fun _ _ => loaded_module library importing depth) hbody hlowered.flip
  exact ((good_iff_builds library importing depth source).mpr ⟨herrors.mp hscan, hsource⟩).1

/-- A text that is good alone is good within a module, and gives the body of the module. -/
lemma good_within (hgood : (SourceUnit.parseWithin library depth importing source).errors = []) :
    ∃ token name' body tokens, name'.lexeme = name ∧
      List.Forall₂ Token.Lowered (scan source).tokens tokens ∧
      (SourceUnit.ofScan (loader library depth importing)
        { scan source with tokens := tokens }).statements = body ∧
      List.Forall₂ (Stmt.Moved (fun a b => b = a.down) (loaded (loader library depth importing)))
        (SourceUnit.parseWithin library depth importing source).statements body ∧
      (SourceUnit.parseWithin library depth importing (SourceUnit.wrap name source)).errors = [] ∧
      (SourceUnit.parseWithin library depth importing (SourceUnit.wrap name source)).statements =
        [.module token name' body] := by
  obtain ⟨tokens, hframed, hlowered, herrors⟩ := scan_wrap hname source
  obtain ⟨hscan, hsource⟩ := (good_iff_builds library importing depth source).mp ⟨hgood, rfl⟩
  obtain ⟨body, hbody, hmoved⟩ := builds_moved lowered_replaces
    (fun _ _ => loaded_module library importing depth) hsource hlowered
  obtain ⟨token, name', hlexeme, hbuilds⟩ := framed_builds hframed hbody
  have hunit : (SourceUnit.ofScan (loader library depth importing)
      { scan source with tokens := tokens }).statements = body :=
    (unit_of_builds (supplies_loader library importing depth) (loads_loader library importing depth)
      hbody).1
  exact ⟨token, name', body, tokens, hlexeme, hlowered, hunit, hmoved,
    (good_iff_builds library importing depth _).mpr ⟨herrors.mpr hscan, hbuilds⟩⟩

omit hname in
/-- An import finds what the text of the module holds with the lines of the module around it. -/
lemma loader_ok_iff {library importing source} (depth : Nat) (token : Token)
    (hnew : Text.lower name ∉ importing) (hsource : library.resolve name = .ok source)
    (reading : Reading) (s : Stmt) :
    (loader library (depth + 1) importing token name reading).1 = .ok s ↔
      (SourceUnit.parseWithin library depth (importing ++ [Text.lower name])
        (SourceUnit.wrap name source)).errors = [] ∧
      (SourceUnit.parseWithin library depth (importing ++ [Text.lower name])
        (SourceUnit.wrap name source)).statements = [s] := by
  constructor
  · intro h
    obtain ⟨-, source', parse, hsource', hparse, hgood⟩ := importable_of_ok h
    cases hsource.symm.trans hsource'
    cases hparse
    exact hgood
  · intro h
    have himportable :
        Importable library importing (SourceUnit.deeper library (depth + 1)) name s :=
      ⟨hnew, source, _, hsource, rfl, h⟩
    obtain ⟨log, hload⟩ := himportable.finds token reading.tokens reading.failures reading.log
    exact congrArg Prod.fst hload

omit hname in
lemma statement_import {load : Token → String → Read Stmt} (hload : Loads load) {name sep : Token}
    (hkeyword : keyword.kind = .keyword .importWord) (hkind : name.kind = .name)
    (hsep : sep.kind = .separator) (rest : List Token) (failures : List Failure)
    (log : List Record) :
    Read.statement load ⟨keyword :: name :: sep :: rest, failures, log⟩ =
      load keyword name.lexeme ⟨rest, failures, log⟩ := by
  rw [(knot hload).statement_eq]
  have hform : Read.statementForm (Read.declaration load) (Read.statement load) load keyword =
      some (Read.importStatement load keyword) := by
    simp only [Read.statementForm, hkeyword]
  simp only [Read.anyStatement, hform]
  refine (read_bind_ok (lift_eq_ok.mpr ⟨_, expect_ok hkind, rfl⟩)).trans ?_
  exact read_bind_ok (lift_eq_ok.mpr ⟨_, endOfStatement_ok hsep, rfl⟩)

end Inlining

/-- An import of a module that is not being imported yet is good exactly if the text of the module
is good alone. Then it is read as one module of that name, whose body holds the statements of the
text one line further down: what reading makes of the tokens of the text, each in its column one
line further down, where modules that the text imports in turn stay as they are. -/
theorem import_reads_as_written_in_place (library : Library) (depth : Nat) (importing : List String)
    {text source : String} {keyword name sep : Token} (rest : List Token) (failures : List Failure)
    (log : List Record) (hname : name ∈ (scan text).tokens) (hkind : name.kind = .name)
    (hkeyword : keyword.kind = .keyword .importWord) (hsep : sep.kind = .separator)
    (hnew : Text.lower name.lexeme ∉ importing)
    (hsource : library.resolve name.lexeme = .ok source) :
    let within := importing ++ [Text.lower name.lexeme]
    let unit := SourceUnit.parseWithin library depth within source
    let read := Read.statement (loader library (depth + 1) importing)
      ⟨keyword :: name :: sep :: rest, failures, log⟩
    ((∃ s, read.1 = .ok s) ↔ unit.errors = []) ∧
      ∀ s, read.1 = .ok s → read.2.tokens = rest ∧ read.2.failures = failures ∧
        ∃ token name' body tokens, s = .module token name' body ∧ name'.lexeme = name.lexeme ∧
          List.Forall₂ Token.Lowered (scan source).tokens tokens ∧
          body = (SourceUnit.ofScan (loader library depth within)
            { scan source with tokens := tokens }).statements ∧
          List.Forall₂ (Stmt.Moved (fun a b => b = a.down) (loaded (loader library depth within)))
            unit.statements body := by
  intro within unit read
  have hread : read =
      loader library (depth + 1) importing keyword name.lexeme ⟨rest, failures, log⟩ :=
    statement_import (loads_loader library importing (depth + 1)) hkeyword hkind hsep rest failures
      log
  have hword : IsName name.lexeme.toList := isName_of_scan hname hkind
  have himport := loader_ok_iff depth keyword hnew hsource ⟨rest, failures, log⟩
  rw [hread]
  refine ⟨⟨?_, fun hgood => ?_⟩, fun s hs => ?_⟩
  · rintro ⟨s, hs⟩
    obtain ⟨hgood, hstatements⟩ := (himport s).mp hs
    exact good_alone library within depth hword source hgood hstatements
  · obtain ⟨token, name', body, tokens, -, -, -, -, hwrapped⟩ :=
      good_within library within depth hword source hgood
    exact ⟨_, (himport _).mpr hwrapped⟩
  · obtain ⟨hgood, hstatements⟩ := (himport s).mp hs
    have halone := good_alone library within depth hword source hgood hstatements
    obtain ⟨token, name', body, tokens, hlexeme, hlowered, hbody, hmoved, -, hmodule⟩ :=
      good_within library within depth hword source halone
    obtain ⟨log', hload⟩ := (importable_of_ok hs).finds keyword rest failures log
    obtain rfl : s = .module token name' body :=
      List.singleton_inj.mp (hstatements.symm.trans hmodule)
    exact ⟨congrArg (·.2.tokens) hload, congrArg (·.2.failures) hload, token, name', body, tokens,
      rfl, hlexeme, hlowered, hbody.symm, hmoved⟩

/-- A text that ends in a comment, without a line end, leaves the last line of its module whole. -/
theorem tools_read_in_place :
    let library := Library.ofModules [("tools", "x = 1; // endmodule")]
    ∃ keyword name sep, (scan "import Tools").tokens = [keyword, name, sep] ∧
      library.resolve name.lexeme = .ok "x = 1; // endmodule" ∧
      ∃ token name' body,
        (Read.statement (loader library 1 []) ⟨[keyword, name, sep], [], []⟩).1 =
          .ok (.module token name' body) ∧ name'.lexeme = "Tools" := by
  intro library
  have hkinds : (scan "import Tools").tokens.map Token.kind =
      [.keyword .importWord, .name, .separator] := by
    decide +kernel
  have hlexemes : (scan "import Tools").tokens.map Token.lexeme = ["import", "Tools", "\n"] := by
    decide +kernel
  have hsource : library.resolve "Tools" = .ok "x = 1; // endmodule" := by
    decide +kernel
  have hgood : (SourceUnit.parseWithin library 0 [Text.lower "Tools"]
      "x = 1; // endmodule").errors = [] := by
    rw [← List.isEmpty_iff]
    decide +kernel
  simp only [List.map_eq_cons_iff, List.map_eq_nil_iff] at hkinds
  obtain ⟨keyword, _, htokens, hkeyword, name, _, rfl, hkind, sep, _, rfl, hsep, rfl⟩ := hkinds
  obtain ⟨-, hlexeme, -⟩ :
      keyword.lexeme = "import" ∧ name.lexeme = "Tools" ∧ sep.lexeme = "\n" := by
    simpa [htokens] using hlexemes
  have hname : name ∈ (scan "import Tools").tokens := by simp [htokens]
  rw [← hlexeme] at hsource hgood
  obtain ⟨hiff, hmodule⟩ := import_reads_as_written_in_place library 0 [] [] [] [] hname hkind
    hkeyword hsep (by simp) hsource
  obtain ⟨s, hs⟩ := hiff.mpr hgood
  obtain ⟨-, -, token, name', body, -, rfl, hsame, -⟩ := hmodule s hs
  exact ⟨keyword, name, sep, htokens, hsource, token, name', body, hs, hsame.trans hlexeme⟩

end Proofs

end XBase
