import XBase.Session
import XBase.Text.Class

/-!
# The command line

`file <path>` runs one source file, and `repl` runs each line of the input as a unit of one
session. Both take options in any order.
-/

namespace XBase

inductive Mode where
  | file (path : String)
  | repl
deriving DecidableEq, Repr

/-- The options of a command line; each is given at most once. -/
structure Options where
  directory : Option String
  maxSteps : Option Nat
  maxDepth : Option Nat
  verbose : Bool
deriving DecidableEq, Repr

structure Command where
  mode : Mode
  options : Options
deriving DecidableEq, Repr

namespace Options

def none : Options :=
  ⟨.none, .none, .none, false⟩

/-- Reads a natural number of 64 bits. -/
def readNatural (text : String) : Option Nat :=
  let digits := match text.toList with
    | '+' :: digits => digits
    | digits => digits
  if digits.isEmpty || !digits.all Char.isDigit then .none
  else
    let n := Decimal.ofDigits digits
    if n < Nat.pow 2 64 then some n else .none

def set (options : Options) (name value : String) : Option Options :=
  match name with
  | "--import-dir" =>
    if options.directory.isSome then .none else some { options with directory := some value }
  | "--max-steps" => do
    if options.maxSteps.isSome then .none
    else return { options with maxSteps := some (← readNatural value) }
  | "--max-depth" => do
    if options.maxDepth.isSome then .none
    else return { options with maxDepth := some (← readNatural value) }
  | _ => .none

/-- The name of an option and the value that is written to it with an equals sign. -/
def split (argument : String) : String × Option String :=
  let name := argument.toList.takeWhile (· != '=')
  match argument.toList.dropWhile (· != '=') with
  | [] => (argument, .none)
  | _ :: value => (String.ofList name, some (String.ofList value))

def isOption (argument : String) : Bool :=
  match argument.toList with
  | '-' :: _ :: _ => true
  | _ => false

def read (options : Options) (operands : List String) : List String → Option (Options × List String)
  | [] => some (options, operands)
  | argument :: others =>
    if argument == "--" then some (options, operands ++ others)
    else if !isOption argument then read options (operands ++ [argument]) others
    else if argument == "-v" || argument == "--verbose" then
      if options.verbose then .none else read { options with verbose := true } operands others
    else
      match split argument, others with
      | (name, some value), others =>
        (options.set name value).bind fun options => read options operands others
      | (name, .none), value :: others =>
        if isOption value then .none
        else (options.set name value).bind fun options => read options operands others
      | (_, .none), [] => .none

end Options

namespace Command

def ofArguments (arguments : List String) : Option Command :=
  match arguments with
  | "file" :: others =>
    match Options.none.read [] others with
    | some (options, [path]) => some ⟨.file path, options⟩
    | _ => none
  | "repl" :: others =>
    match Options.none.read [] others with
    | some (options, []) => some ⟨.repl, options⟩
    | _ => none
  | _ => none

def directory (command : Command) : String :=
  command.options.directory.getD "."

def limits (command : Command) : Limits :=
  ⟨command.options.maxSteps, command.options.maxDepth.getD Limits.standard.maxDepth⟩

def session (command : Command) (host : Host) (files : Files) : Session :=
  Session.new ⟨command.limits, host⟩ (Library.ofDirectory files command.directory)
    command.directory

end Command

/-- What a program leaves behind. -/
structure Outcome where
  code : Nat
  stdout : String
  stderr : String
deriving DecidableEq, Repr

namespace Outcome

def usage : Outcome :=
  ⟨64, "", ""⟩

def ofReport (report : UnitReport) : Outcome :=
  match report.error with
  | none => ⟨0, report.output, ""⟩
  | some error => ⟨error.exitCode, report.output, error.message ++ "\n"⟩

end Outcome

namespace Repl

def prompt : String :=
  "fox-dream> "

/-- The lines of an input, each with the newline that ends it. -/
def lines : List Char → List (List Char)
  | [] => []
  | c :: cs =>
    if c == '\n' then [c] :: lines cs
    else
      match lines cs with
      | [] => [[c]]
      | line :: others => (c :: line) :: others

/-- What a line prints and reports; a blank line is passed over. -/
def line (session : Session) (text : List Char) : Outcome × Session :=
  if text.all Text.isBlank then (⟨0, "", ""⟩, session)
  else
    let (report, session) := session.run (String.ofList text)
    ({ Outcome.ofReport report with code := 0 }, session)

/-- Runs lines one after another; an error ends only its line. -/
def run (session : Session) (outcome : Outcome) : List (List Char) → Outcome
  | [] => { outcome with stdout := outcome.stdout ++ prompt ++ "\n" }
  | text :: others =>
    let (result, session) := line session text
    run session
      { outcome with
        stdout := outcome.stdout ++ prompt ++ result.stdout
        stderr := outcome.stderr ++ result.stderr } others

end Repl

namespace Command

/-- Runs a command on the files and the input that it finds. -/
def run (command : Command) (host : Host) (files : Files) (input : String) : Outcome :=
  let session := command.session host files
  match command.mode with
  | .file path => Outcome.ofReport (session.runFile files path).1
  | .repl => Repl.run session ⟨0, "", ""⟩ (Repl.lines input.toList)

def runArguments (arguments : List String) (host : Host) (files : Files) (input : String) :
    Outcome :=
  match ofArguments arguments with
  | some command => command.run host files input
  | none => Outcome.usage

end Command

end XBase
