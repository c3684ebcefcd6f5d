import XBase.Command

/-!
# The program

Runs the command line on the files, the input and the output of the process.
-/

namespace XBase.Main

def usage : String :=
  "Usage: file <PATH> | repl [--import-dir <DIR>] [--max-steps <N>] [--max-depth <N>] [-v]"

def load (path : String) : IO (List (String × String)) := do
  try return [(path, ← IO.FS.readFile path)]
  catch _ => return []

/-- Adds to some files those that the imports of a source text need. -/
partial def loadImports (directory source : String) (tried : List String)
    (files : List (String × String)) : IO (List (String × String)) := do
  let library := Library.ofDirectory (Files.ofList files) directory
  let paths := (SourceUnit.parse library source).missing.map (Library.modulePath directory)
  match paths.find? fun path => !tried.contains path with
  | none => return files
  | some path => loadImports directory source (path :: tried) (files ++ (← load path))

/-- What a program finds in this process. The clock stands still during a unit. -/
def host : IO Host := do
  let now := Float.ofNat (← IO.monoNanosNow) / 1000000000
  return ⟨[], Heap.empty, fun _ => now, none⟩

def writeLog (verbose : Bool) (log : List Record) : IO Unit := do
  let level := if verbose then Level.debug else Level.warn
  for record in log do
    if record.level.rank ≤ level.rank then
      IO.eprintln ("[" ++ record.level.name ++ "] " ++ record.text)

/-- Writes what a unit leaves behind and gives its exit code. -/
def write (verbose : Bool) (report : UnitReport) : IO Nat := do
  writeLog verbose report.log
  let outcome := Outcome.ofReport report
  IO.print outcome.stdout
  IO.eprint outcome.stderr
  return outcome.code

/-- The session with the modules that a source text needs and the time of its start. -/
def prepare (command : Command) (session : Session) (source : String) : IO Session := do
  let files ← loadImports command.directory source [] []
  return { session with
    library := Library.ofDirectory (Files.ofList files) command.directory
    config := { session.config with host := ← host } }

def runFile (command : Command) (session : Session) (path : String) : IO Nat := do
  let files := Files.ofList (← load path)
  match files.read path with
  | .error _ => write command.options.verbose (session.runFile files path).1
  | .ok source =>
    let session ← prepare command session source
    write command.options.verbose (session.run source).1

partial def runLines (command : Command) (session : Session) (stdin : IO.FS.Stream) : IO Unit := do
  IO.print Repl.prompt
  (← IO.getStdout).flush
  let line ← stdin.getLine
  if line.isEmpty then IO.println ""
  else if line.toList.all Text.isBlank then runLines command session stdin
  else
    let session ← prepare command session line
    let (report, session) := session.run line
    let _ ← write command.options.verbose report
    runLines command session stdin

end XBase.Main

open XBase XBase.Main in
def main (arguments : List String) : IO UInt32 := do
  match Command.ofArguments arguments with
  | none =>
    IO.eprintln usage
    return Outcome.usage.code.toUInt32
  | some command =>
    let session := command.session (← host) (Files.ofList [])
    match command.mode with
    | .file path => return (← runFile command session path).toUInt32
    | .repl =>
      runLines command session (← IO.getStdin)
      return 0
