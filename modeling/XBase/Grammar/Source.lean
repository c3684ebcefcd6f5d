import XBase.Grammar.Stmt
import XBase.Text.Case

/-!
# Source texts and their imports

A source text is scanned and read as one unit; any error fails the whole unit. An import is read
as a module that holds the imported text. A chain of imports visits no module twice.
-/

namespace XBase

/-- Where the texts of imported modules come from. -/
structure Library where
  /-- The text of a module, or the reason why it cannot be had. -/
  resolve : String → Except String String
  /-- No chain of imports is longer than this. -/
  size : Nat

namespace Library

def closed : Library where
  resolve name := .error ("imports are disabled, cannot load `" ++ name ++ "`")
  size := 0

/-- Modules by name, up to case; of two with one name the later counts. -/
def ofModules (modules : List (String × String)) : Library where
  resolve name :=
    match modules.reverse.find? fun entry => Text.lower entry.1 == Text.lower name with
    | some entry => .ok entry.2
    | none => .error ("no module named `" ++ name ++ "`")
  size := modules.length

end Library

/-- What reading a source text found. The unit is good if there is no error. -/
structure SourceUnit where
  statements : List Stmt
  errors : List SyntaxError
  log : List Record

namespace SourceUnit

/-- Reads scanned text; errors of the scan come first. -/
def ofScan (load : Token → String → Read Stmt) (scanned : Scan) : SourceUnit :=
  let trace : Record := ⟨.trace, "scanned " ++ toString (scanned.tokens.length + 1) ++
    " tokens, " ++ toString scanned.errors.length ++ " errors"⟩
  let (statements, final) := Read.program load ⟨scanned.tokens, [], [trace]⟩
  { statements
    errors := scanned.errors.map SyntaxError.ofScan ++
      final.failures.map (·.toError scanned.finish)
    log := final.log }

/-- The text of a module statement that holds an imported text. -/
def wrap (name source : String) : String :=
  "module " ++ name ++ "\n" ++ source ++ "\nendmodule\n"

/-- Reports the failures of an imported module, all at the import, and fails with the last. -/
def failWithin (token : Token) (name : String) : List SyntaxError → Read Stmt
  | [] => Read.failAt token (.unresolvedImport name "")
  | [e] => Read.failAt token (e.within name)
  | e :: rest => fun reading =>
    failWithin token name rest
      { reading with failures := reading.failures ++ [⟨some token, e.within name⟩] }

def onlyModule (token : Token) (name : String) (unit : SourceUnit) : Read Stmt := do
  (fun reading => (.ok (), { reading with log := reading.log ++ unit.log }) : Read Unit)
  match unit.errors, unit.statements with
  | [], [statement] => return statement
  | [], _ => Read.failAt token (.unresolvedImport name "`endmodule` found in the module body")
  | errors, _ => failWithin token name errors

/-- Imports a module, where `importing` names the modules being imported and `parse` reads the
text of the module, if imports may be nested deeper. -/
def importModule (library : Library) (importing : List String)
    (parse : Option (List String → String → SourceUnit)) (token : Token) (name : String) :
    Read Stmt := do
  let key := Text.lower name
  if importing.contains key then Read.failAt token (.circularImport name)
  else
    match library.resolve name with
    | .error reason => Read.failAt token (.unresolvedImport name reason)
    | .ok source =>
      Read.record .debug ("importing module `" ++ name ++ "`")
      match parse with
      | none => Read.failAt token (.importDepth name)
      | some parse => onlyModule token name (parse (importing ++ [key]) (wrap name source))

/-- Reads a source text in which imports are nested at most `depth` deep. -/
def parseWithin (library : Library) (depth : Nat) (importing : List String) (source : String) :
    SourceUnit :=
  match depth with
  | 0 => ofScan (importModule library importing none) (scan source)
  | depth + 1 =>
    ofScan (importModule library importing (some (parseWithin library depth))) (scan source)

def parse (library : Library) (source : String) : SourceUnit :=
  parseWithin library library.size [] source

def missing (unit : SourceUnit) : List String :=
  unit.errors.filterMap fun error => error.cause.missing?

def result (unit : SourceUnit) : Except (List SyntaxError) (List Stmt) :=
  if unit.errors.isEmpty then .ok unit.statements else .error unit.errors

end SourceUnit

end XBase
