import XBase.Files
import XBase.Proofs.Concatenation
import XBase.Proofs.Cycles
import XBase.Text.Class

/-!
# Imports stay in their directory

Reading a text asks the library for modules by name, and so do the modules that it gets. Only words
are asked for, whatever the texts hold, so the files that they lead to are all direct children of
the directory of the library.
-/

namespace XBase

/-- The names that reading a text within some modules asks the library for, by itself or through
the texts that the library has given. -/
inductive Asks (library : Library) : List String → String → String → Prop
  | here {importing : List String} {text name : String} (himport : Proofs.Imports text name)
      (hnew : Text.lower name ∉ importing) : Asks library importing text name
  | through {importing : List String} {text name source asked : String}
      (himport : Proofs.Imports text name) (hnew : Text.lower name ∉ importing)
      (hsource : library.resolve name = .ok source)
      (h : Asks library (importing ++ [Text.lower name]) (SourceUnit.wrap name source) asked) :
      Asks library importing text asked

/-- A word that starts with no digit. -/
structure ModuleName (name : String) : Prop where
  ne_empty : name ≠ ""
  first : ∀ c ∈ name.toList.head?, c.isDigit = false
  word : ∀ c ∈ name.toList, Text.isWord c = true

/-- Two readings that found the same, though they may have left different records. -/
structure SourceUnit.Agrees (unit unit' : SourceUnit) : Prop where
  errors : unit.errors = unit'.errors
  statements : unit.statements = unit'.statements

/-- The path of a directory with the slash that ends it. The current directory has none. -/
def Path.folder (directory : List Char) : List Char :=
  if directory.getLast? = none ∨ directory.getLast? = some '/' then directory
  else directory ++ ['/']

namespace Files

/-- Follows names from a directory to a directory. -/
def enter (files : Files) (directory : List (List Char)) :
    List (List Char) → Except FileError (List (List Char))
  | [] => .ok directory
  | name :: others =>
    if name = [] ∨ name = ['.'] then files.enter directory others
    else if name = ['.', '.'] then
      if directory = [] then .error .notFound
      else if directory = [root] then files.enter directory others
      else files.enter directory.dropLast others
    else if 255 < (String.ofList name).utf8ByteSize then .error .nameTooLong
    else
      let path := directory ++ [name]
      if (files.content? path).isSome then .error .notDirectory
      else if files.isDirectory path then files.enter path others
      else .error .notFound

/-- The content of the file with a name right in a directory. -/
def child (files : Files) (directory : List (List Char)) (name : List Char) :
    Except FileError String :=
  if 255 < (String.ofList name).utf8ByteSize then .error .nameTooLong
  else
    match files.content? (directory ++ [name]) with
    | some content => .ok content
    | none => .error (if files.isDirectory (directory ++ [name]) then .isDirectory else .notFound)

end Files

namespace Proofs

open SourceUnit (loader loaded importVerdict)

section Names

lemma asks_moduleName {library : Library} {importing : List String} {text name : String}
    (h : Asks library importing text name) : ModuleName name := by
  induction h with
  | here himport _ =>
    obtain ⟨keyword, label, hat, rfl⟩ := himport
    have hname := importAt_isName hat
    exact ⟨fun hempty => hname.ne_nil (by simp [hempty]), fun _ h => hname.head h,
      fun _ h => hname.isWord h⟩
  | through _ _ _ _ ih => exact ih

lemma not_isBlank_of_isWord {c : Char} (hc : Text.isWord c = true) : Text.isBlank c = false := by
  have hnone : ∀ n ∈ [9, 10, 11, 12, 13, 32, 133, 160, 5760, 8192, 8193, 8194, 8195, 8196, 8197,
      8198, 8199, 8200, 8201, 8202, 8232, 8233, 8239, 8287, 12288],
      Text.isWord (Char.ofNat n) = false := by
    decide +kernel
  refine Bool.eq_false_iff.mpr fun hblank => ?_
  have hmem := hnone c.toNat (by simp [Text.isBlank] at hblank ⊢; omega)
  rw [Char.ofNat_toNat, hc] at hmem
  cases hmem

/-- Nothing in the name of a module divides, ends or leaves a path. -/
lemma moduleName_plain {name : String} (h : ModuleName name) :
    ∀ c ∈ name.toList,
      c ≠ '/' ∧ c ≠ '.' ∧ c ≠ '\\' ∧ c ≠ Char.ofNat 0 ∧ Text.isBlank c = false := by
  intro c hc
  have hword := h.word c hc
  exact ⟨ne_of_isWord hword (by decide), ne_of_isWord hword (by decide),
    ne_of_isWord hword (by decide), ne_of_isWord hword (by decide), not_isBlank_of_isWord hword⟩

end Names

section Paths

variable {directory name : List Char}

lemma folder_cases (directory : List Char) :
    (directory = [] ∧ Path.folder directory = []) ∨
      (∃ front, directory = front ++ ['/'] ∧ Path.folder directory = front ++ ['/']) ∨
      (directory ≠ [] ∧ Path.folder directory = directory ++ ['/']) := by
  unfold Path.folder
  by_cases hempty : directory = []
  · subst hempty
    exact .inl ⟨rfl, rfl⟩
  · by_cases hslash : directory.getLast? = some '/'
    · refine .inr (.inl ⟨directory.dropLast, ?_, ?_⟩)
      · exact (List.dropLast_append_getLast? '/' hslash).symm
      · rw [if_pos (.inr hslash), List.dropLast_append_getLast? '/' hslash]
    · refine .inr (.inr ⟨hempty, if_neg ?_⟩)
      simp [hempty, hslash]

lemma join_eq_folder (hname : ∀ c ∈ name, c ≠ '/') :
    Path.join directory name = Path.folder directory ++ name := by
  unfold Path.join
  split
  · exact absurd rfl (hname '/' (by simp))
  · unfold Path.folder
    split
    · next hnone => simp_all
    · next hslash => simp [hslash]
    · next c hother hlast =>
      have hc : c ≠ '/' := fun h => hother h
      simp [hlast, hc]

lemma contains_folder {c : Char} (hc : c ≠ '/') :
    (Path.folder directory).contains c = directory.contains c := by
  obtain ⟨rfl, h⟩ | ⟨front, rfl, h⟩ | ⟨-, h⟩ := folder_cases directory
  · rw [h]
  · rw [h]
  · simp [h, hc]

lemma takeWhile_folder (hname : ∀ c ∈ name, c ≠ '/') :
    ((Path.folder directory ++ name).reverse.takeWhile (· != '/')).reverse = name := by
  have hstop : (Path.folder directory).reverse.takeWhile (· != '/') = [] := by
    obtain ⟨-, h⟩ | ⟨front, -, h⟩ | ⟨-, h⟩ := folder_cases directory <;> simp [h]
  rw [List.reverse_append, List.takeWhile_append_of_pos (by simpa using hname), hstop]
  simp

lemma stem_of_no_dot (hname : ∀ c ∈ name, c ≠ '.') : Path.stem name = name := by
  have hnone : name.reverse.dropWhile (· != '.') = [] := by
    rw [List.dropWhile_eq_nil_iff]
    simpa using hname
  unfold Path.stem
  rw [hnone]
  rfl

lemma withExtension_folder (hempty : name ≠ []) (hname : ∀ c ∈ name, c ≠ '/' ∧ c ≠ '.')
    (extension : List Char) :
    Path.withExtension (Path.folder directory ++ name) extension =
      Path.folder directory ++ name ++ '.' :: extension := by
  have hparent : name ≠ ['.', '.'] := fun h => (hname '.' (by simp [h])).2 rfl
  unfold Path.withExtension
  rw [takeWhile_folder fun c hc => (hname c hc).1]
  simp [hempty, hparent, stem_of_no_dot fun c hc => (hname c hc).2]

lemma names_ne_nil (path : List Char) : Path.names path ≠ [] := by
  fun_cases Path.names path <;> simp

lemma names_of_no_slash (hname : ∀ c ∈ name, c ≠ '/') : Path.names name = [name] := by
  induction name with
  | nil => rfl
  | cons c cs ih =>
    have hc : c ≠ '/' := hname c (by simp)
    have hcs := ih fun d hd => hname d (by simp [hd])
    simp [Path.names, hc, hcs]

lemma names_append_slash (front path : List Char) :
    Path.names (front ++ '/' :: path) = Path.names front ++ Path.names path := by
  induction front with
  | nil => simp [Path.names]
  | cons c cs ih =>
    by_cases hc : c = '/'
    · simp [Path.names, hc, ih]
    · obtain ⟨first, others, hnames⟩ := List.exists_cons_of_ne_nil (names_ne_nil cs)
      simp [Path.names, hc, ih, hnames]

lemma base_folder (hempty : name ≠ []) (hname : ∀ c ∈ name, c ≠ '/') :
    Files.base (Path.folder directory ++ name) = Files.base directory := by
  obtain ⟨c, cs, rfl⟩ := List.exists_cons_of_ne_nil hempty
  have hc : c ≠ '/' := hname c (by simp)
  obtain ⟨rfl, h⟩ | ⟨front, rfl, h⟩ | ⟨hdirectory, h⟩ := folder_cases directory
  · simp [h, Files.base, hc]
  · rw [h]
    unfold Files.base
    cases front <;> rfl
  · rw [h]
    unfold Files.base
    cases directory with
    | nil => exact absurd rfl hdirectory
    | cons d ds => rfl

end Paths

section Following

variable (files : Files)

lemma enter_append_blank (start : List (List Char)) (names : List (List Char)) :
    files.enter start (names ++ [[]]) = files.enter start names := by
  induction names generalizing start with
  | nil => rfl
  | cons name others ih => simp only [List.cons_append, Files.enter, ih]

/-- What leads to a file leads to its directory first, and the file is a child of that. -/
lemma follow_child {name : List Char} (hempty : name ≠ []) (hname : ∃ c ∈ name, c ≠ '.')
    (start : List (List Char)) (names : List (List Char)) :
    files.follow start (names ++ [name]) =
      (files.enter start names).bind fun directory => files.child directory name := by
  obtain ⟨c, hc, hdot⟩ := hname
  have hhere : name ≠ ['.'] := by
    rintro rfl
    exact hdot (by simpa using hc)
  have hparent : name ≠ ['.', '.'] := by
    rintro rfl
    exact hdot (by simpa using hc)
  induction names generalizing start with
  | nil =>
    simp only [List.nil_append, Files.follow, Files.enter, Files.child, Except.bind]
    by_cases hlong : 255 < (String.ofList name).utf8ByteSize
    · simp [hempty, hhere, hparent, hlong]
    cases hcontent : files.content? (start ++ [name]) with
    | some content => simp [hempty, hhere, hparent, hlong]
    | none =>
      by_cases hdirectory : files.isDirectory (start ++ [name]) = true
      · simp [hempty, hhere, hparent, hlong, hdirectory]
      · simp [hempty, hhere, hparent, hlong, hdirectory]
  | cons first others ih =>
    have habove : Files.above (others ++ [name]) = .notFound := by
      unfold Files.above
      rw [if_neg]
      simp only [List.all_append, Bool.and_eq_true, not_and]
      intro _ hall
      simp at hall
      exact hdot (hall.1 c hc)
    simp only [List.cons_append, Files.follow, Files.enter]
    by_cases hskip : first = [] ∨ first = ['.']
    · simp [hskip, ih]
    by_cases hup : first = ['.', '.']
    · simp only [hup]
      by_cases hnowhere : start = []
      · simp [hnowhere, habove, Except.bind]
      · by_cases hroot : start = [Files.root]
        · simp [hroot, ih]
        · simp [hnowhere, hroot, ih]
    by_cases hlong : 255 < (String.ofList first).utf8ByteSize
    · simp [hskip, hup, hlong, Except.bind]
    cases hcontent : files.content? (start ++ [first]) with
    | some content => simp [hskip, hup, hlong, Except.bind]
    | none =>
      by_cases hdirectory : files.isDirectory (start ++ [first]) = true
      · simp [hskip, hup, hlong, hdirectory, ih]
      · simp [hskip, hup, hlong, hdirectory, Except.bind]

lemma follow_folder {name : List Char} (hempty : name ≠ []) (hname : ∃ c ∈ name, c ≠ '.')
    (hslash : ∀ c ∈ name, c ≠ '/') (start : List (List Char)) (directory : List Char) :
    files.follow start (Path.names (Path.folder directory ++ name)) =
      (files.enter start (Path.names directory)).bind fun place => files.child place name := by
  have hnames := names_of_no_slash hslash
  obtain ⟨rfl, h⟩ | ⟨front, rfl, h⟩ | ⟨-, h⟩ := folder_cases directory
  · rw [h, List.nil_append, hnames]
    exact follow_child files hempty hname start []
  · rw [h, List.append_assoc, List.singleton_append, names_append_slash, names_append_slash,
      hnames, follow_child files hempty hname]
    exact congrArg (fun place => Except.bind place _)
      (enter_append_blank files start (Path.names front)).symm
  · rw [h, List.append_assoc, List.singleton_append, names_append_slash, hnames,
      follow_child files hempty hname]

variable {name : String} (h : ModuleName name) (directory : String)
include h

lemma modulePath_eq : Library.modulePath directory name =
    String.ofList (Path.folder directory.toList ++ name.toList ++ ".prg".toList) := by
  have hempty : name.toList ≠ [] := by simpa using h.ne_empty
  have hplain := moduleName_plain h
  unfold Library.modulePath
  rw [join_eq_folder fun c hc => (hplain c hc).1,
    withExtension_folder hempty fun c hc => ⟨(hplain c hc).1, (hplain c hc).2.1⟩]
  rfl

/-- The file of a module is a child of the directory of the library. -/
lemma read_modulePath : files.read (Library.modulePath directory name) =
    if directory.toList.contains (Char.ofNat 0) then .error .nulByte
    else
      (files.enter (Files.base directory.toList) (Path.names directory.toList)).bind fun place =>
        files.child place (name.toList ++ ".prg".toList) := by
  have hempty : name.toList ++ ".prg".toList ≠ [] := by simp
  have hplain : ∀ c ∈ name.toList ++ ".prg".toList, c ≠ '/' ∧ c ≠ Char.ofNat 0 := by
    intro c hc
    rcases List.mem_append.mp hc with hc | hc
    · exact ⟨(moduleName_plain h c hc).1, (moduleName_plain h c hc).2.2.2.1⟩
    · have hextension : ∀ c ∈ ".prg".toList, c ≠ '/' ∧ c ≠ Char.ofNat 0 := by simp
      exact hextension c hc
  have hnul : (Path.folder directory.toList ++ (name.toList ++ ".prg".toList)).contains
      (Char.ofNat 0) = directory.toList.contains (Char.ofNat 0) := by
    have hname : (name.toList ++ ".prg".toList).contains (Char.ofNat 0) = false :=
      Bool.eq_false_iff.mpr fun hmem => (hplain _ (List.contains_iff_mem.mp hmem)).2 rfl
    rw [List.contains_append, hname, Bool.or_false, contains_folder (by decide)]
  rw [modulePath_eq h]
  unfold Files.read
  simp only [String.toList_ofList, List.append_assoc]
  rw [hnul, base_folder hempty fun c hc => (hplain c hc).1,
    follow_folder files hempty ⟨'p', by simp, by decide⟩ fun c hc => (hplain c hc).1]
  simp

end Following

section Agreement

variable {library library' : Library} {importing : List String} {text : String}

lemma verdict_agrees {unit unit' : SourceUnit} (h : unit.Agrees unit') (name : String) :
    unit.verdict name = unit'.verdict name := by
  unfold SourceUnit.verdict
  rw [h.errors, h.statements]

/-- Imports that come to the same let a text be read the same. -/
lemma ofScan_agrees {depth : Nat}
    (hsame : ∀ name, Imports text name →
      importVerdict library' importing (SourceUnit.deeper library' depth) name =
        importVerdict library importing (SourceUnit.deeper library depth) name) :
    (SourceUnit.parseWithin library depth importing text).Agrees
      (SourceUnit.parseWithin library' depth importing text) := by
  let μ := causeMirror (fun _ => True) (fun _ _ => trivial)
    (loaded (loader library depth importing))
  have hload : μ.LoadsAlike (scan text).tokens (loader library depth importing)
      (loader library' depth importing) := by
    refine loadsAlike_of_verdict (fun keyword name hat => hsame _ ⟨keyword, name, hat, rfl⟩)
      (fun _ _ h => moved_of_verdict h) ?_
    rintro keyword _ name causes - rfl - cause -
    exact ⟨rfl, trivial⟩
  have hnone : μ.failures [] [] := ⟨rfl, by simp⟩
  obtain ⟨log, hstatements, herrors⟩ := ofScan_spec (loader library depth importing) (scan text)
  obtain ⟨log', hstatements', herrors'⟩ :=
    ofScan_spec (loader library' depth importing) (scan text)
  obtain ⟨hmoved, hfailures, -⟩ := mirrors_programs (loads_loader library importing depth)
    (loads_loader library' importing depth) hload (List.forall₂_same.mpr fun _ _ => rfl) hnone log
    log'
  rw [parseWithin_eq, parseWithin_eq]
  refine ⟨?_, ?_⟩
  · rw [herrors, herrors', hfailures]
  · rw [hstatements, hstatements', stmts_eq_of_moved _ hmoved]

/-- Reading a text depends on the library only through the modules that it asks for. -/
lemma parseWithin_agrees (depth : Nat) (hagree : ∀ name, Asks library importing text name →
      library'.resolve name = library.resolve name) :
    (SourceUnit.parseWithin library depth importing text).Agrees
      (SourceUnit.parseWithin library' depth importing text) := by
  induction depth generalizing importing text with
  | zero =>
    refine ofScan_agrees fun name himport => ?_
    unfold importVerdict
    split
    · rfl
    · next hnew => rw [hagree name (.here himport (by simpa using hnew))]; rfl
  | succ depth ih =>
    refine ofScan_agrees fun name himport => ?_
    unfold importVerdict
    split
    · rfl
    · next hnew =>
      have hnew : Text.lower name ∉ importing := by simpa using hnew
      rw [hagree name (.here himport hnew)]
      cases hsource : library.resolve name with
      | error reason => rfl
      | ok source =>
        have hagrees := ih fun asked h => hagree asked (.through himport hnew hsource h)
        exact (verdict_agrees hagrees name).symm

end Agreement

/-- Imports do not leave the directory of the library. Whatever a text and the modules that it
imports hold, only words that start with no digit are asked for. So the path of a module is its
name in the directory, with the extension behind the whole name, and what is read there is a direct
child of the directory. Nothing else is asked for: libraries that agree on these names give the
same errors and the same statements. -/
theorem imports_stay_in_directory (library : Library) (depth : Nat) (importing : List String)
    (source : String) :
    (∀ name, Asks library importing source name →
      ModuleName name ∧
      (∀ c ∈ name.toList,
        c ≠ '/' ∧ c ≠ '.' ∧ c ≠ '\\' ∧ c ≠ Char.ofNat 0 ∧ Text.isBlank c = false) ∧
      ∀ (files : Files) (directory : String),
        Library.modulePath directory name =
          String.ofList (Path.folder directory.toList ++ name.toList ++ ".prg".toList) ∧
        files.read (Library.modulePath directory name) =
          if directory.toList.contains (Char.ofNat 0) then .error .nulByte
          else
            (files.enter (Files.base directory.toList) (Path.names directory.toList)).bind
              fun place => files.child place (name.toList ++ ".prg".toList)) ∧
    ∀ library' : Library,
      (∀ name, Asks library importing source name →
        library'.resolve name = library.resolve name) →
      (SourceUnit.parseWithin library depth importing source).Agrees
        (SourceUnit.parseWithin library' depth importing source) := by
  refine ⟨fun name hasks => ?_, fun library' hagree => parseWithin_agrees depth hagree⟩
  have hname := asks_moduleName hasks
  exact ⟨hname, moduleName_plain hname, fun files directory =>
    ⟨modulePath_eq hname directory, read_modulePath files hname directory⟩⟩

lemma imports_of_kinds {text name spelling ending : String} {before after : List (Kind × String)}
    (htokens : (scan text).tokens.map (fun token => (token.kind, token.lexeme)) =
      before ++ (.keyword .importWord, spelling) :: (.name, name) :: (.separator, ending) :: after)
    (hbefore : ∀ last ∈ before.getLast?, last.1 = .separator) : Imports text name := by
  obtain ⟨front, rest, hscan, rfl, hrest⟩ := List.map_eq_append_iff.mp htokens
  obtain ⟨keyword, rest, rfl, hkeyword, hrest⟩ := List.map_eq_cons_iff.mp hrest
  obtain ⟨label, rest, rfl, hlabel, hrest⟩ := List.map_eq_cons_iff.mp hrest
  obtain ⟨sep, rest, rfl, hsep, -⟩ := List.map_eq_cons_iff.mp hrest
  simp only [Prod.mk.injEq] at hkeyword hlabel hsep
  refine ⟨keyword, label, ⟨front, sep :: rest, hscan, hkeyword.1, hlabel.1, ?_, ?_⟩, hlabel.2⟩
  · intro last hlast
    exact hbefore (last.kind, last.lexeme) (by simp [List.getLast?_map, Option.mem_def.mp hlast])
  · simpa using hsep.1

/-- A module is imported through another one and read in the directory of both. The file of the same
name outside of it is left alone. -/
theorem part_read_beside_module :
    let files := Files.ofList [("lib/tools.prg", "import parts"), ("lib/parts.prg", "? x"),
      ("parts.prg", "? y")]
    let library := Library.ofDirectory files "lib/"
    Asks library [] "import tools" "parts" ∧
      files.read (Library.modulePath "lib/" "parts") = .ok "? x" ∧
      ∀ library' : Library,
        (∀ name, Asks library [] "import tools" name →
          library'.resolve name = library.resolve name) →
        (SourceUnit.parse library "import tools").Agrees
          (SourceUnit.parseWithin library' 3 [] "import tools") := by
  intro files library
  have hsource : library.resolve "tools" = .ok "import parts" := by decide +kernel
  have htools : Imports "import tools" "tools" := by
    refine @imports_of_kinds _ _ "import" "\n" [] [] ?_ ?_ <;> decide +kernel
  have hparts : Imports (SourceUnit.wrap "tools" "import parts") "parts" := by
    refine @imports_of_kinds _ _ "import" "\n"
      [(.keyword .moduleWord, "module"), (.name, "tools"), (.separator, "\n")]
      [(.keyword .endModule, "endmodule"), (.separator, "\n")] ?_ ?_ <;> decide +kernel
  have hasks : Asks library [] "import tools" "parts" :=
    .through htools (by simp) hsource (.here hparts (by decide +kernel))
  obtain ⟨hread, hagree⟩ := imports_stay_in_directory library 3 [] "import tools"
  refine ⟨hasks, ?_, hagree⟩
  obtain ⟨-, -, hpath⟩ := hread "parts" hasks
  rw [(hpath files "lib/").2]
  decide +kernel

end Proofs

end XBase
