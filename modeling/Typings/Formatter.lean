import Typings.Layout.Format
import Typings.SystemError
import Typings.Text.Surrogate
import Typings.TimeLimit

/-!
# Formatters

A formatter turns the generated source into its final form or refuses it. It either lays the source
out itself or hands it to an external program, which is given the source on its standard input and
told the language by its arguments, and which is waited for within a limit of time. A formatter may
also break down, whatever the source is.
-/

namespace Typings

/-- Why a program does not start. -/
inductive StartError where
  | system (cause : SystemCause)
  | nullInArgument
deriving DecidableEq

/-- A run of a program to its end. -/
structure ProgramRun where
  /-- The time it takes, in nanoseconds. -/
  elapsed : Nat
  status : Int
  stdout : List UInt8
  stderr : List UInt8
deriving DecidableEq

/-- Runs programs, given a command line and the standard input. -/
abbrev Runner : Type := List String → List UInt8 → Except StartError ProgramRun

/-- An external formatter: its command line without the arguments that every run adds, whether
statements keep their semicolons, and how long a run may take. -/
structure ExternalFormatter where
  command : List String := ["npx", "--no-install", "prettier"]
  semi : Bool := false
  timeout : Option Seconds := some (.decimal (.ofDecimal false 60 0))

/-- Why a source is refused. -/
inductive Refusal where
  | layout (e : Layout.ScanError)
  | executableNotFound (program : String)
  | timedOut (limit : Option Seconds)
  /-- What the program wrote to standard error, or failing that its status. -/
  | failed (status : Int) (stderr : String)

def Refusal.message : Refusal → String
  | layout e => e.message
  | executableNotFound program => "Formatter executable not found: " ++ program
  | timedOut limit =>
    "Formatter timed out after " ++ (limit.map Seconds.text).getD "None" ++ " seconds"
  | failed status stderr =>
    match Text.trim stderr.toList with
    | [] => "prettier exited with status " ++ toString status
    | report => String.ofList report

/-- What keeps a formatter from doing its work. -/
inductive Breakdown where
  | margin (e : Text.MarginError)
  | system (e : SystemError)
  /-- The command line is empty. -/
  | noProgram
  | nullInArgument
  | limit (e : LimitError)
  /-- What the program wrote is no text. -/
  | undecodable (e : Text.Utf8Error)
  /-- The program cannot be given the source. -/
  | unencodable (e : Text.SurrogateError)
deriving DecidableEq

def Breakdown.message : Breakdown → String
  | margin e => e.message
  | system e => e.message
  | noProgram => "tuple index out of range"
  | nullInArgument => "embedded null byte"
  | limit e => e.message
  | undecodable e => e.message
  | unencodable e => e.message

inductive FormatError where
  | refused (r : Refusal)
  | broken (b : Breakdown)

def FormatError.message : FormatError → String
  | refused r => r.message
  | broken b => b.message

abbrev Formatter : Type := String → Except FormatError String

namespace Formatter

def identity : Formatter := Except.ok

def layout (indent : Option Int) : Formatter := fun source ↦
  match Layout.format indent source with
  | .ok text => .ok text
  | .error (.scan e) => .error (.refused (.layout e))
  | .error (.margin e) => .error (.broken (.margin e))

end Formatter

namespace ExternalFormatter

def arguments (f : ExternalFormatter) : List String :=
  f.command ++ ["--parser", "typescript"] ++ if f.semi then [] else ["--no-semi"]

/-- The text of what a program has written, its line ends unified. -/
def decode (bytes : List UInt8) : Except FormatError String :=
  match Text.decodeUtf8 bytes with
  | .ok cs => .ok (String.ofList (Text.unifyNewlines cs))
  | .error e => .error (.broken (.undecodable e))

def startFailure (f : ExternalFormatter) : StartError → FormatError
  | .system cause =>
    match cause, f.command with
    | .notFound, [] => .broken .noProgram
    | .notFound, program :: _ => .refused (.executableNotFound program)
    | cause, command => .broken (.system ⟨cause, command.headD ""⟩)
  | .nullInArgument => .broken .nullInArgument

/-- What a run that has been waited for comes to. Both streams must be texts, whatever the status
is. -/
def result (run : ProgramRun) : Except FormatError String := do
  let text ← decode run.stdout
  let report ← decode run.stderr
  if run.status = 0 then return text else .error (.refused (.failed run.status report))

/-- A limit that cannot be waited for shows when the program has been started. -/
def outcome (f : ExternalFormatter) : Except StartError ProgramRun → Except FormatError String
  | .error e => .error (f.startFailure e)
  | .ok run =>
    match f.timeout.bind Seconds.error? with
    | some e => .error (.broken (.limit e))
    | none =>
      if f.timeout.any (Seconds.isReached run.elapsed) then .error (.refused (.timedOut f.timeout))
      else result run

/-- A source may hold stand-ins for lone surrogates. That it cannot be encoded then shows when the
program has been started. -/
def formatter (f : ExternalFormatter) (run : Runner) (σ : Text.StandIns) :
    Formatter := fun source ↦
  match σ.flaw? source with
  | none => f.outcome (run f.arguments (Text.encodeUtf8 source))
  | some e =>
    match run f.arguments [] with
    | .error cause => .error (f.startFailure cause)
    | .ok _ => .error (.broken (.unencodable e))

end ExternalFormatter

end Typings
