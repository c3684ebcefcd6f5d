import Mathlib.Logic.Relation
import XBase.Proofs.Casing
import XBase.Proofs.Imports
import XBase.Proofs.Sequence

/-!
# Chains of imports

Reading a text reads the modules that it imports, and those that they import in turn. The modules
that are being imported at a time are all different, so with finitely many modules this comes to an
end, and no bound on the nesting is ever felt. An import is refused as circular exactly where it
would start a chain that comes back to a module, so a good text has no such chain.
-/

namespace XBase

def SyntaxCause.path : SyntaxCause → List String
  | inModule module _ _ cause => module :: cause.path
  | _ => []

def SyntaxCause.root : SyntaxCause → SyntaxCause
  | inModule _ _ _ cause => cause.root
  | cause => cause

namespace Proofs

open SourceUnit (loader loaded importVerdict)
open Relation (ReflTransGen TransGen)

variable {name text source : String} {keyword label : Token} {names : List String}

section Nesting

/-- A module is imported within the modules `importing`, and is then read within `deeper`. -/
def Deepens (library : Library) (importing deeper : List String) : Prop :=
  ∃ name source, Text.lower name ∉ importing ∧ library.resolve name = .ok source ∧
    deeper = importing ++ [Text.lower name]

/-- A reader of texts whose imports may be nested to any depth. -/
def Unbounded (library : Library) (reader : List String → String → SourceUnit) : Prop :=
  ∀ importing text, reader importing text =
    SourceUnit.ofScan (SourceUnit.importModule library importing (some reader)) (scan text)

lemma importModule_congr {library : Library} {importing : List String}
    {p q : Option (List String → String → SourceUnit)}
    (h : ∀ deeper, Deepens library importing deeper →
      ∃ f g, p = some f ∧ q = some g ∧ ∀ text, f deeper text = g deeper text) :
    SourceUnit.importModule library importing p = SourceUnit.importModule library importing q := by
  funext token name reading
  unfold SourceUnit.importModule
  split
  · rfl
  · next hnew =>
    cases hsource : library.resolve name with
    | error reason => rfl
    | ok source =>
      obtain ⟨f, g, rfl, rfl, hfg⟩ := h _ ⟨name, source, by simpa using hnew, hsource, rfl⟩
      simp only [hfg]

variable {modules : List (String × String)} {importing deeper : List String}

def moduleKeys (modules : List (String × String)) : List String :=
  modules.map fun entry => Text.lower entry.1

lemma mem_moduleKeys_iff :
    Text.lower name ∈ moduleKeys modules ↔
      ∃ source, (Library.ofModules modules).resolve name = .ok source := by
  simp only [Library.ofModules]
  split
  · next entry hentry =>
    have hmem := List.mem_reverse.mp (List.mem_of_find?_eq_some hentry)
    have hkey := List.find?_some hentry
    exact iff_of_true (List.mem_map.mpr ⟨entry, hmem, by simpa using hkey⟩) ⟨_, rfl⟩
  · next hnone =>
    refine iff_of_false (fun hmem => ?_) (by rintro ⟨source, ⟨⟩⟩)
    obtain ⟨entry, hentry, hkey⟩ := List.mem_map.mp hmem
    exact List.find?_eq_none.mp hnone entry (List.mem_reverse.mpr hentry) (by simpa using hkey)

def remaining (modules : List (String × String)) (importing : List String) : Nat :=
  ((moduleKeys modules).toFinset \ importing.toFinset).card

lemma remaining_le (modules : List (String × String)) (importing : List String) :
    remaining modules importing ≤ modules.length := by
  calc remaining modules importing
      ≤ (moduleKeys modules).toFinset.card := Finset.card_le_card Finset.sdiff_subset
    _ ≤ (moduleKeys modules).length := List.toFinset_card_le _
    _ = modules.length := List.length_map _

lemma remaining_lt (h : Deepens (Library.ofModules modules) importing deeper) :
    remaining modules deeper < remaining modules importing := by
  obtain ⟨name, source, hnew, hsource, rfl⟩ := h
  refine Finset.card_lt_card (Finset.ssubset_iff_of_subset ?_ |>.mpr ?_)
  · intro key hkey
    simp only [Finset.mem_sdiff, List.mem_toFinset, List.mem_append, not_or] at hkey ⊢
    exact ⟨hkey.1, hkey.2.1⟩
  · refine ⟨Text.lower name, ?_, ?_⟩
    · simpa using ⟨mem_moduleKeys_iff.mpr ⟨source, hsource⟩, hnew⟩
    · simp

/-- A bound on the nesting of imports is not felt if it leaves room for all other modules. -/
lemma parseWithin_enough {depth depth' : Nat} (h : remaining modules importing ≤ depth)
    (h' : remaining modules importing ≤ depth') (text : String) :
    SourceUnit.parseWithin (Library.ofModules modules) depth importing text =
      SourceUnit.parseWithin (Library.ofModules modules) depth' importing text := by
  induction hleft : remaining modules importing using Nat.strong_induction_on
    generalizing importing depth depth' text with
  | _ left ih =>
    rw [parseWithin_eq, parseWithin_eq, loader, loader, importModule_congr]
    intro deeper hdeeper
    have hlt := remaining_lt hdeeper
    obtain ⟨depth, rfl⟩ := Nat.exists_eq_add_of_lt (Nat.zero_lt_of_lt (hlt.trans_le h))
    obtain ⟨depth', rfl⟩ := Nat.exists_eq_add_of_lt (Nat.zero_lt_of_lt (hlt.trans_le h'))
    refine ⟨_, _, rfl, rfl, fun text => ?_⟩
    exact ih _ (hleft ▸ hlt) (by omega) (by omega) text rfl

lemma unbounded_parseWithin (modules : List (String × String)) :
    Unbounded (Library.ofModules modules)
      (SourceUnit.parseWithin (Library.ofModules modules) modules.length) := by
  intro importing text
  have hle := remaining_le modules importing
  have hle' : remaining modules importing ≤ modules.length + 1 := Nat.le_succ_of_le hle
  exact parseWithin_enough hle hle' text

lemma deepens_wellFounded (modules : List (String × String)) :
    WellFounded fun deeper importing => Deepens (Library.ofModules modules) importing deeper :=
  Subrelation.wf remaining_lt (measure (remaining modules)).wf

/-- There is only one way to read texts whose imports may be nested to any depth. -/
lemma unbounded_unique {reader reader' : List String → String → SourceUnit}
    (h : Unbounded (Library.ofModules modules) reader)
    (h' : Unbounded (Library.ofModules modules) reader') : reader' = reader := by
  funext importing text
  induction importing using (deepens_wellFounded modules).induction generalizing text with
  | _ importing ih =>
    rw [h, h', importModule_congr]
    exact fun deeper hdeeper => ⟨_, _, rfl, rfl, fun text => ih deeper hdeeper text⟩

/-- The modules that are being imported at a time are different ones of the library. -/
lemma nested_bounded (h : ReflTransGen (Deepens (Library.ofModules modules)) [] importing) :
    importing.Nodup ∧ importing ⊆ moduleKeys modules ∧ importing.length ≤ modules.length := by
  have hnested : importing.Nodup ∧ importing ⊆ moduleKeys modules := by
    induction h with
    | refl => exact ⟨List.nodup_nil, List.nil_subset _⟩
    | tail _ hdeeper ih =>
      obtain ⟨name, source, hnew, hsource, rfl⟩ := hdeeper
      refine ⟨List.nodup_append.mpr ⟨ih.1, List.nodup_singleton _, ?_⟩, ?_⟩
      · rintro key hkey _ hmem rfl
        exact hnew (List.mem_singleton.mp hmem ▸ hkey)
      · exact List.append_subset.mpr ⟨ih.2, by simpa using mem_moduleKeys_iff.mpr ⟨source, hsource⟩⟩
  have hlength := (List.subperm_of_subset hnested.1 hnested.2).length_le
  exact ⟨hnested.1, hnested.2, by simpa [moduleKeys] using hlength⟩

end Nesting

section Origins

/-- A text imports a module on a line of its own. -/
def Imports (text name : String) : Prop :=
  ∃ keyword label, ImportAt (scan text).tokens keyword label ∧ label.lexeme = name

/-- The same reading twice, in which `P` holds of the causes of all failures. -/
def causeMirror (P : SyntaxCause → Prop) (hP : ∀ cause, cause.ofGrammar = true → P cause)
    (found : String → Option Stmt) : Mirror where
  place := Eq
  token := Eq
  failure e e' := e = e' ∧ P e.cause
  failures reported reported' := reported = reported' ∧ ∀ e ∈ reported, P e.cause
  found := found
  replaces := replaces_self
  failure_of_token hcause h := ⟨by rw [h], hP _ hcause⟩
  failure_of_place hcause h := by
    rw [eq_of_rel h fun _ _ h => h]
    exact ⟨rfl, hP _ hcause⟩
  report h he := by
    rw [h.1, he.1]
    refine ⟨rfl, fun e hmem => ?_⟩
    rcases List.mem_append.mp hmem with hmem | hmem
    · exact h.2 e (h.1 ▸ hmem)
    · exact List.mem_singleton.mp hmem ▸ he.1 ▸ he.2

variable {library : Library} {importing : List String} {depth : Nat}

/-- What holds of the causes that the grammar gives, and of those of imports, holds of the causes
of all failures. -/
lemma causes_satisfy {P : SyntaxCause → Prop} (hP : ∀ cause, cause.ofGrammar = true → P cause)
    {tokens : List Token} (himport : ∀ keyword name causes, ImportAt tokens keyword name →
      importVerdict library importing (SourceUnit.deeper library depth) name.lexeme =
        .error causes → ∀ cause ∈ causes, P cause) (log : List Record) :
    ∀ e ∈ (Read.program (loader library depth importing) ⟨tokens, [], log⟩).2.failures,
      P e.cause := by
  have hloading : (causeMirror P hP (loaded (loader library depth importing))).Loading tokens
      (loader library depth importing) := by
    refine loading_of_verdict (fun _ _ h => moved_of_verdict h) ?_
    rintro keyword _ name causes hat rfl hverdict cause hcause
    exact ⟨rfl, himport keyword name causes hat hverdict cause hcause⟩
  have hnone : (causeMirror P hP (loaded (loader library depth importing))).failures [] [] :=
    ⟨rfl, by simp⟩
  exact (mirrors_program (loads_loader library importing depth) hloading
    (List.forall₂_same.mpr fun _ _ => rfl) hnone log log).2.2

/-- Where the cause of an error in a text comes from. -/
inductive Origin (library : Library) (reader : List String → String → SourceUnit)
    (importing : List String) (text : String) : SyntaxCause → Prop
  | scanned (cause : ScanCause) : Origin library reader importing text (.scan cause)
  | grammar {cause : SyntaxCause} (h : cause.ofGrammar = true) :
      Origin library reader importing text cause
  | circular {name : String} (himport : Imports text name) (h : Text.lower name ∈ importing) :
      Origin library reader importing text (.circularImport name)
  | unresolved (name reason : String) :
      Origin library reader importing text (.unresolvedImport name reason)
  | within {name source : String} {e : SyntaxError} (himport : Imports text name)
      (hnew : Text.lower name ∉ importing) (hsource : library.resolve name = .ok source)
      (he : e ∈ (reader (importing ++ [Text.lower name]) (SourceUnit.wrap name source)).errors) :
      Origin library reader importing text (e.within name)

lemma origin_of_verdict {reader : List String → String → SourceUnit} (himport : Imports text name)
    {causes : List SyntaxCause}
    (h : importVerdict library importing (some reader) name = .error causes) :
    ∀ cause ∈ causes, Origin library reader importing text cause := by
  unfold importVerdict at h
  split at h
  · next hmem =>
    cases h
    simpa using Origin.circular himport (by simpa using hmem)
  · next hnew =>
    have hnew : Text.lower name ∉ importing := by simpa using hnew
    cases hsource : library.resolve name with
    | error reason =>
      rw [hsource] at h
      cases h
      simpa using Origin.unresolved name reason
    | ok source =>
      rw [hsource] at h
      simp only [SourceUnit.verdict] at h
      split at h
      · cases h
      · cases h
        simpa using Origin.unresolved name _
      · cases h
        intro cause hcause
        obtain ⟨e, he, rfl⟩ := List.mem_map.mp hcause
        exact .within himport hnew hsource he

lemma origin_of_error {e : SyntaxError}
    (he : e ∈ (SourceUnit.parseWithin library (depth + 1) importing text).errors) :
    Origin library (SourceUnit.parseWithin library depth) importing text e.cause := by
  rcases List.mem_append.mp he with he | he
  · obtain ⟨scanError, -, rfl⟩ := List.mem_map.mp he
    exact .scanned scanError.cause
  · obtain ⟨failure, hfailure, rfl⟩ := List.mem_map.mp he
    have hverdicts : ∀ keyword name causes, ImportAt (scan text).tokens keyword name →
        importVerdict library importing (SourceUnit.deeper library (depth + 1)) name.lexeme =
          .error causes → ∀ cause ∈ causes,
            Origin library (SourceUnit.parseWithin library depth) importing text cause :=
      fun keyword name _ hat hverdict => origin_of_verdict ⟨keyword, name, hat, rfl⟩ hverdict
    have hcause := causes_satisfy (fun _ h => .grammar h) hverdicts _ failure hfailure
    obtain ⟨_ | token, cause⟩ := failure <;> exact hcause

end Origins

section Cycles

/-- A chain of imports: the text imports the first module, that one the second, and so on. -/
def ImportChain (library : Library) : String → List String → Prop
  | _, [] => True
  | text, name :: names => Imports text name ∧
      ∃ source, library.resolve name = .ok source ∧ ImportChain library source names

/-- One module imports another one, where modules are known by their names in lowercase. -/
def Requires (library : Library) (key key' : String) : Prop :=
  ∃ source name, library.resolve key = .ok source ∧ Imports source name ∧ Text.lower name = key'

/-- No module that a text imports, directly or through others, leads back to itself. -/
def Acyclic (library : Library) (text : String) : Prop :=
  ∀ name key, Imports text name → ReflTransGen (Requires library) (Text.lower name) key →
    ¬TransGen (Requires library) key key

lemma importAt_isName (h : ImportAt (scan text).tokens keyword label) :
    IsName label.lexeme.toList := by
  obtain ⟨before, after, htokens, -, hkind, -, -⟩ := h
  have hmem : label ∈ (scan text).tokens := by rw [htokens]; simp
  exact isName_of_scan hmem hkind

lemma importAt_moved {R S : Token → Token → Prop} (h : Replaces R S) {whole whole' : List Token}
    (ht : List.Forall₂ R whole whole') (himport : ImportAt whole keyword label) :
    ∃ keyword' label', ImportAt whole' keyword' label' ∧ label'.lexeme = label.lexeme := by
  obtain ⟨before, after, rfl, hkeyword, hkind, hbefore, hafter⟩ := himport
  simp only [forall₂_append_left_iff, List.forall₂_cons_left_iff] at ht
  obtain ⟨before', _, hmoved, ⟨keyword', _, ha, ⟨label', after', hb, hmoved', rfl⟩, rfl⟩, rfl⟩ := ht
  refine ⟨keyword', label', ⟨before', after', rfl, (h.kind ha).trans hkeyword,
    (h.kind hb).trans hkind, ?_, ?_⟩, h.lexeme hb hkind⟩
  · intro last' hlast'
    rcases List.eq_nil_or_concat before with rfl | ⟨front, last, rfl⟩
    · cases hmoved
      cases hlast'
    · simp only [List.concat_eq_append, forall₂_append_left_iff, List.forall₂_cons_left_iff,
        List.forall₂_nil_left_iff] at hmoved
      obtain ⟨front', _, -, ⟨last'', _, hlast, rfl, rfl⟩, rfl⟩ := hmoved
      obtain rfl : last'' = last' := by simpa using hlast'
      exact (h.kind hlast).trans (hbefore last (by simp))
  · intro next' hnext'
    cases hmoved' with
    | nil => cases hnext'
    | @cons next _ rest _ hnext _ =>
      obtain rfl := Option.some.inj hnext'
      exact (h.kind hnext).trans (hafter next rfl)

/-- The lines around a module import nothing. -/
lemma importAt_of_framed {body tokens : List Token} (hframed : Framed name body tokens)
    (h : ImportAt tokens keyword label) : ImportAt body keyword label := by
  obtain @⟨first, name', sep, last, sep', hfirst, hname, -, hsep, hlast, hsep'⟩ := hframed
  obtain ⟨before, after, htokens, hkeyword, hkind, hbefore, hafter⟩ := h
  have hne {token : Token} {kind : Kind} (htoken : token.kind = kind)
      (hkind : kind ≠ .keyword .importWord) : token ≠ keyword := by
    rintro rfl
    exact hkind (htoken.symm.trans hkeyword)
  have hne' : last ≠ label := by
    rintro rfl
    cases hlast.symm.trans hkind
  rcases before with _ | ⟨a, _ | ⟨b, _ | ⟨c, before⟩⟩⟩
  · exact absurd (List.cons.inj htokens).1 (hne hfirst (by decide))
  · exact absurd (List.cons.inj (List.cons.inj htokens).2).1 (hne hname (by decide))
  · exact absurd (List.cons.inj (List.cons.inj (List.cons.inj htokens).2).2).1
      (hne hsep (by decide))
  · have htokens : body ++ [last, sep'] = before ++ keyword :: label :: after :=
      (List.cons.inj (List.cons.inj (List.cons.inj htokens).2).2).2
    rcases List.append_eq_append_iff.mp htokens with ⟨front, rfl, hrest⟩ | ⟨rest, rfl, hrest⟩
    · have hlength := congrArg List.length hrest
      simp only [List.length_append, List.length_cons, List.length_nil] at hlength
      obtain rfl : front = [] := List.eq_nil_of_length_eq_zero (by omega)
      exact absurd (List.cons.inj hrest).1 (hne hlast (by decide))
    · rcases rest with _ | ⟨d, _ | ⟨e, rest⟩⟩
      · exact absurd (List.cons.inj hrest).1.symm (hne hlast (by decide))
      · exact absurd (List.cons.inj (List.cons.inj hrest).2).1.symm hne'
      · simp only [List.cons_append, List.cons.injEq] at hrest
        obtain ⟨rfl, rfl, rfl⟩ := hrest
        refine ⟨before, rest, rfl, hkeyword, hkind, ?_, ?_⟩
        · intro token htoken
          exact hbefore token (by simp [List.getLast?_cons, Option.mem_def.mp htoken])
        · intro token htoken
          exact hafter token (by simp [List.head?_append, Option.mem_def.mp htoken])

lemma imports_of_wrap {label : String} (hname : IsName name.toList)
    (h : Imports (SourceUnit.wrap name source) label) : Imports source label := by
  obtain ⟨body, hframed, hlowered, -⟩ := scan_wrap hname source
  obtain ⟨keyword, token, hat, rfl⟩ := h
  obtain ⟨keyword', token', hat', hlexeme⟩ :=
    importAt_moved raised_replaces hlowered.flip (importAt_of_framed hframed hat)
  exact ⟨keyword', token', hat', hlexeme⟩

variable {modules : List (String × String)} {importing : List String}

lemma resolve_of_lower {name' : String} (hlower : Text.lower name' = Text.lower name)
    (h : (Library.ofModules modules).resolve name = .ok source) :
    (Library.ofModules modules).resolve name' = .ok source := by
  simp only [Library.ofModules, hlower] at h ⊢
  split at h
  · exact h
  · cases h

lemma root_of_grammar {cause : SyntaxCause} (h : cause.ofGrammar = true) : cause.root = cause := by
  cases cause <;> first | rfl | cases h

lemma chain_of_wrap {library : Library} (hname : IsName name.toList)
    (h : ImportChain library (SourceUnit.wrap name source) names) :
    ImportChain library source names := by
  cases names with
  | nil => trivial
  | cons label names => exact ⟨imports_of_wrap hname h.1, h.2⟩

/-- An import is refused as circular only if it stands within another one of the same module. It is
never refused for its depth. -/
lemma circular_chain (text : String)
    (hknown : importing ⊆ moduleKeys modules) {e : SyntaxError}
    (he : e ∈ (SourceUnit.parseWithin (Library.ofModules modules) modules.length importing
      text).errors) :
    (∀ name, e.cause.root ≠ .importDepth name) ∧
      ∀ name, e.cause.root = .circularImport name →
        ImportChain (Library.ofModules modules) text (e.cause.path ++ [name]) ∧
          Text.lower name ∈ importing ++ e.cause.path.map Text.lower := by
  induction importing using (deepens_wellFounded modules).induction generalizing text e with
  | _ importing ih =>
    have hle := remaining_le modules importing
    rw [parseWithin_enough hle (Nat.le_succ_of_le hle)] at he
    have horigin := origin_of_error he
    generalize e.cause = cause at horigin ⊢
    cases horigin with
    | scanned => exact ⟨by rintro name ⟨⟩, by rintro name ⟨⟩⟩
    | grammar hcause =>
      rw [← root_of_grammar hcause] at hcause
      refine ⟨fun name hroot => ?_, fun name hroot => ?_⟩
      · simp [hroot, SyntaxCause.ofGrammar] at hcause
      · simp [hroot, SyntaxCause.ofGrammar] at hcause
    | unresolved => exact ⟨by rintro name ⟨⟩, by rintro name ⟨⟩⟩
    | @circular name himport hmem =>
      refine ⟨by rintro name ⟨⟩, ?_⟩
      rintro _ ⟨⟩
      obtain ⟨source, hsource⟩ := mem_moduleKeys_iff.mp (hknown hmem)
      exact ⟨⟨himport, source, hsource, trivial⟩, List.mem_append_left _ hmem⟩
    | @within name source e' himport hnew hsource he' =>
      obtain ⟨keyword, label, hat, rfl⟩ := himport
      have hdeeper : importing ++ [Text.lower label.lexeme] ⊆ moduleKeys modules :=
        List.append_subset.mpr ⟨hknown, by simpa using mem_moduleKeys_iff.mpr ⟨source, hsource⟩⟩
      obtain ⟨hdepth, hcircular⟩ := ih _ ⟨label.lexeme, source, hnew, hsource, rfl⟩ _ hdeeper he'
      refine ⟨hdepth, fun name hroot => ?_⟩
      obtain ⟨hchain, hmem⟩ := hcircular name hroot
      refine ⟨⟨⟨keyword, label, hat, rfl⟩, source, hsource,
        chain_of_wrap (importAt_isName hat) hchain⟩, ?_⟩
      simpa [SyntaxError.within, SyntaxCause.path] using hmem

lemma chain_requires (h : ImportChain (Library.ofModules modules) text names) :
    (names.map Text.lower).Pairwise (TransGen (Requires (Library.ofModules modules))) := by
  have hchain : (names.map Text.lower).IsChain (Requires (Library.ofModules modules)) := by
    induction names generalizing text with
    | nil => exact .nil
    | cons name names ih =>
      obtain ⟨-, source, hsource, hrest⟩ := h
      refine List.isChain_cons.mpr ⟨fun key hkey => ?_, ih hrest⟩
      cases names with
      | nil => cases hkey
      | cons next names =>
        obtain rfl : Text.lower next = key := by simpa using hkey
        exact ⟨source, next, resolve_of_lower (lower_lower name) hsource, hrest.1, rfl⟩
  exact List.isChain_iff_pairwise.mp (hchain.imp fun _ _ h => .single h)

/-- Where imports are acyclic, no chain of them comes to a module twice. -/
lemma nodup_of_acyclic (hacyclic : Acyclic (Library.ofModules modules) text)
    (h : ImportChain (Library.ofModules modules) text names) : (names.map Text.lower).Nodup := by
  have hpairs := chain_requires h
  cases names with
  | nil => exact List.nodup_nil
  | cons first names =>
    refine hpairs.imp_of_mem fun {key key'} hkey _ hpath heq => ?_
    have hreached : ReflTransGen (Requires (Library.ofModules modules)) (Text.lower first) key := by
      rcases List.mem_cons.mp hkey with rfl | hlater
      · exact .refl
      · exact ((List.pairwise_cons.mp hpairs).1 _ hlater).to_reflTransGen
    exact hacyclic first key h.1 hreached (heq ▸ hpath)

/-- What a good text imports is good within the modules that are being imported then. -/
lemma good_import
    (hgood : (SourceUnit.parseWithin (Library.ofModules modules) modules.length importing
      text).errors = []) (himport : Imports text name) :
    Text.lower name ∉ importing ∧ ∃ source,
      (Library.ofModules modules).resolve name = .ok source ∧
      (SourceUnit.parseWithin (Library.ofModules modules) modules.length
        (importing ++ [Text.lower name]) source).errors = [] := by
  have hle := remaining_le modules importing
  rw [parseWithin_enough hle (Nat.le_succ_of_le hle)] at hgood
  obtain ⟨-, hbuilds⟩ := (good_iff_builds _ importing _ text).mp ⟨hgood, rfl⟩
  obtain ⟨keyword, label, hat, rfl⟩ := himport
  obtain ⟨before, after, htokens, hkeyword, -, -, -⟩ := id hat
  have hsequenced := builds_sequenced hbuilds
  rw [htokens] at hsequenced
  obtain ⟨s, hloaded⟩ := hsequenced.module hkeyword label rfl
  obtain ⟨hnew, source, read, hsource, hread, herrors, hstatements⟩ := loaded_eq_some_iff.mp hloaded
  cases hread
  exact ⟨hnew, source, hsource,
    good_alone _ _ _ (importAt_isName hat) source herrors hstatements⟩

/-- A module that is being imported and whose text is good. -/
def Reached (modules : List (String × String)) (importing : List String) (key : String) : Prop :=
  key ∈ importing ∧ ∃ source, (Library.ofModules modules).resolve key = .ok source ∧
    (SourceUnit.parseWithin (Library.ofModules modules) modules.length importing source).errors = []

lemma reached_import
    (hgood : (SourceUnit.parseWithin (Library.ofModules modules) modules.length importing
      text).errors = []) (himport : Imports text name) :
    Text.lower name ∉ importing ∧
      Reached modules (importing ++ [Text.lower name]) (Text.lower name) := by
  obtain ⟨hnew, source, hsource, hgood'⟩ := good_import hgood himport
  exact ⟨hnew, by simp, source, resolve_of_lower (lower_lower name) hsource, hgood'⟩

/-- Good modules lead only to modules that are not being imported yet, and these are good too. -/
lemma Reached.requires {key key' : String} (h : Reached modules importing key)
    (hpath : TransGen (Requires (Library.ofModules modules)) key key') :
    key' ∉ importing ∧ ∃ deeper, importing ⊆ deeper ∧ Reached modules deeper key' := by
  have hstep {importing : List String} {key key' : String} (h : Reached modules importing key)
      (hrequires : Requires (Library.ofModules modules) key key') :
      key' ∉ importing ∧ ∃ deeper, importing ⊆ deeper ∧ Reached modules deeper key' := by
    obtain ⟨-, source, hsource, hgood⟩ := h
    obtain ⟨source', name, hsource', himport, rfl⟩ := hrequires
    obtain rfl := Except.ok.inj (hsource.symm.trans hsource')
    obtain ⟨hnew, hreached⟩ := reached_import hgood himport
    exact ⟨hnew, _, List.subset_append_left _ _, hreached⟩
  induction hpath with
  | single hrequires => exact hstep h hrequires
  | tail _ hrequires ih =>
    obtain ⟨-, deeper, hsubset, hreached⟩ := ih
    obtain ⟨hnew, deeper', hsubset', hreached'⟩ := hstep hreached hrequires
    exact ⟨fun hmem => hnew (hsubset hmem), deeper', List.Subset.trans hsubset hsubset', hreached'⟩

lemma acyclic_of_good
    (hgood : (SourceUnit.parseWithin (Library.ofModules modules) modules.length []
      text).errors = []) : Acyclic (Library.ofModules modules) text := by
  intro name key himport hpath hcycle
  obtain ⟨-, hfirst⟩ := reached_import hgood himport
  have hreached : ∃ importing, Reached modules importing key := by
    rcases Relation.reflTransGen_iff_eq_or_transGen.mp hpath with rfl | hpath
    · exact ⟨_, hfirst⟩
    · obtain ⟨-, deeper, -, hreached⟩ := hfirst.requires hpath
      exact ⟨deeper, hreached⟩
  obtain ⟨importing, hreached⟩ := hreached
  exact (hreached.requires hcycle).1 hreached.1

end Cycles

/-- Reading a text with imports from finitely many modules. There is exactly one reader whose
imports may be nested to any depth, and reading a text agrees with it. It reads other texts only
one module deeper, which cannot go on forever: the modules that are being imported are different
ones, so there are never more of them than the library has. An error that is a circular import
stands at the end of a chain of imports that has come to the same module before, so a text whose
imports are acyclic has no such error. The imports of a good text are acyclic, and no chain of them
comes to a module twice. -/
theorem imports_come_to_an_end (modules : List (String × String)) (source : String) :
    (∃ reader, Unbounded (Library.ofModules modules) reader ∧
      (∀ reader', Unbounded (Library.ofModules modules) reader' → reader' = reader) ∧
      SourceUnit.parse (Library.ofModules modules) source = reader [] source) ∧
    (∀ importing reader reader' text,
      (∀ deeper, Deepens (Library.ofModules modules) importing deeper →
        ∀ text, reader deeper text = reader' deeper text) →
      SourceUnit.ofScan (SourceUnit.importModule (Library.ofModules modules) importing
          (some reader)) (scan text) =
        SourceUnit.ofScan (SourceUnit.importModule (Library.ofModules modules) importing
          (some reader')) (scan text)) ∧
    WellFounded (fun deeper importing => Deepens (Library.ofModules modules) importing deeper) ∧
    (∀ importing, ReflTransGen (Deepens (Library.ofModules modules)) [] importing →
      importing.Nodup ∧ importing.length ≤ modules.length) ∧
    (∀ e ∈ (SourceUnit.parse (Library.ofModules modules) source).errors,
      (∀ name, e.cause.root ≠ .importDepth name) ∧
      ∀ name, e.cause.root = .circularImport name →
        ImportChain (Library.ofModules modules) source (e.cause.path ++ [name]) ∧
          Text.lower name ∈ e.cause.path.map Text.lower) ∧
    (Acyclic (Library.ofModules modules) source →
      ∀ e ∈ (SourceUnit.parse (Library.ofModules modules) source).errors,
        ∀ name, e.cause.root ≠ .circularImport name) ∧
    ((SourceUnit.parse (Library.ofModules modules) source).errors = [] →
      Acyclic (Library.ofModules modules) source ∧
      ∀ names, ImportChain (Library.ofModules modules) source names →
        (names.map Text.lower).Nodup) := by
  have hreader := unbounded_parseWithin modules
  have hcircular {e : SyntaxError}
      (he : e ∈ (SourceUnit.parse (Library.ofModules modules) source).errors) :=
    circular_chain source (List.nil_subset (moduleKeys modules)) he
  refine ⟨⟨_, hreader, fun _ h => unbounded_unique hreader h, rfl⟩,
    fun importing reader reader' text h => ?_, deepens_wellFounded modules,
    fun importing h => ?_, fun e he => hcircular he, fun hacyclic e he name hroot => ?_,
    fun hgood => ?_⟩
  · rw [importModule_congr]
    exact fun deeper hdeeper => ⟨reader, reader', rfl, rfl, h deeper hdeeper⟩
  · obtain ⟨hnodup, -, hlength⟩ := nested_bounded h
    exact ⟨hnodup, hlength⟩
  · obtain ⟨hchain, hmem⟩ := (hcircular he).2 name hroot
    have hnodup := nodup_of_acyclic hacyclic hchain
    rw [List.map_append, List.nodup_append] at hnodup
    exact hnodup.2.2 _ hmem _ (by simp) rfl
  · have hacyclic := acyclic_of_good hgood
    exact ⟨hacyclic, fun names h => nodup_of_acyclic hacyclic h⟩

/-- Two modules that share a third one, in different spellings, make no cycle. Two modules of which
each imports the other do. -/
theorem shared_acyclic_mutual_cyclic :
    Acyclic (Library.ofModules
        [("left", "import base"), ("right", "import BASE"), ("Base", "x = 1")])
      "import Left\nimport right" ∧
    ¬Acyclic (Library.ofModules [("a", "import B"), ("b", "import A")]) "import a" := by
  have hgood : (SourceUnit.parse (Library.ofModules
      [("left", "import base"), ("right", "import BASE"), ("Base", "x = 1")])
      "import Left\nimport right").errors = [] := by
    rw [← List.isEmpty_iff]
    decide +kernel
  have hcircular : (SourceUnit.parse (Library.ofModules [("a", "import B"), ("b", "import A")])
      "import a").errors.any (fun e => e.cause.root matches .circularImport _) = true := by
    decide +kernel
  obtain ⟨-, -, -, -, -, -, hshared⟩ := imports_come_to_an_end
    [("left", "import base"), ("right", "import BASE"), ("Base", "x = 1")]
    "import Left\nimport right"
  obtain ⟨-, -, -, -, -, hmutual, -⟩ :=
    imports_come_to_an_end [("a", "import B"), ("b", "import A")] "import a"
  refine ⟨(hshared hgood).1, fun hacyclic => ?_⟩
  obtain ⟨e, he, hroot⟩ := List.any_eq_true.mp hcircular
  split at hroot
  · next name hname => exact hmutual hacyclic e he name hname
  · cases hroot

end Proofs

end XBase
