import XBase.Files
import XBase.Grammar.Source
import XBase.Run.Unit

/-!
# Sessions

A session runs source texts one after another on one machine, which starts with the first text
that can be read. A text with a syntax error is not run at all.
-/

namespace XBase

inductive UnitError where
  | source (errors : List SyntaxError)
  | runtime (error : RuntimeError)
  /-- A source file cannot be read. -/
  | unreadable (path : String) (error : FileError)
  /-- A loop without a budget ran out of rounds. -/
  | exhausted

namespace UnitError

def message : UnitError → String
  | source errors => String.intercalate "\n" (errors.map SyntaxError.message)
  | runtime error => error.message
  | unreadable path error =>
    "InternalError: Failed open source file `" ++ path ++ "`: " ++ error.message
  | exhausted => "InternalError: A loop ran out of rounds"

def exitCode : UnitError → Nat
  | source _ => 65
  | runtime _ | unreadable _ _ | exhausted => 70

end UnitError

/-- What a unit leaves behind for its reader. -/
structure UnitReport where
  output : String
  error : Option UnitError
  log : List Record

structure Session where
  config : Config
  library : Library
  /-- The directory of imported modules, as it was given. -/
  directory : String
  machine : Option Machine

namespace Session

def new (config : Config) (library : Library) (directory : String) : Session :=
  ⟨config, library, directory, none⟩

/-- The machine for the next unit, its output and records cleared; the first unit starts it. -/
def ready (session : Session) : Machine :=
  match session.machine with
  | some machine => { machine with output := "", log := #[] }
  | none =>
    let machine := Machine.start session.config.host
    let record : Record := ⟨.info, "starting interpreter, import dir `" ++ session.directory ++ "`"⟩
    { machine with log := #[record] ++ machine.log }

def error? : Except Halt Unit → Option UnitError
  | .ok () => none
  | .error (.failure error) => some (.runtime error)
  | .error .exhausted => some .exhausted

def run (session : Session) (source : String) : UnitReport × Session :=
  let unit := SourceUnit.parse session.library source
  match unit.result with
  | .error errors => (⟨"", some (.source errors), unit.log⟩, session)
  | .ok program =>
    let (result, machine) := Run.unit program session.config session.ready
    (⟨machine.output, error? result, unit.log ++ machine.log.toList⟩,
      { session with machine := some machine })

def runFile (session : Session) (files : Files) (path : String) : UnitReport × Session :=
  match files.read path with
  | .error error => (⟨"", some (.unreadable path error), []⟩, session)
  | .ok source => session.run source

end Session

end XBase
