import Typings.Command.Arguments
import Typings.Command.FileTree
import Typings.Generation
import Typings.Wire.Document

/-!
# A run of the command

The command reads a description, generates the module and delivers it to standard output or a file.
No text is delivered unless all of it succeeds, and only a text that cannot be encoded leaves a
trace: the empty file that it was meant for. Input that cannot be opened, that describes no API
or from which nothing can be generated is logged as an error; whatever else goes wrong ends the
run.
-/

namespace Typings.Command

/-! ## Logging -/

inductive Level where
  | debug
  | info
  | error
deriving DecidableEq

structure LogLine where
  level : Level
  message : String
deriving DecidableEq

def Level.text : Level → String
  | debug => "DEBUG"
  | info => "INFO"
  | error => "ERROR"

def LogLine.text (l : LogLine) : String := l.level.text ++ ": " ++ l.message ++ "\n"

/-- Only errors are shown unless the run is to be verbose. -/
def LogLine.isShown (verbose : Bool) (l : LogLine) : Bool := verbose || l.level == .error

/-- The stages of a generation that are logged, as far as it comes; the last ones are the
formatter's own. -/
def generationLog (options : Options) (formatterName : String) (formatterLog : List LogLine)
    (d : Description) : List LogLine :=
  let declared (x : Declaration) : LogLine :=
    ⟨.debug, "Emitted declaration for type " ++ x.id ++ " (" ++ x.tag ++ ", " ++
      toString x.members.length ++ " fields)"⟩
  let formatting := match d.toModule with
    | .error _ => []
    | .ok m =>
      ⟨.debug, "Formatting " ++ toString (m.render options.toNaming).length ++
        " characters with " ++ formatterName⟩ :: formatterLog
  [⟨.debug, "Generating declarations for " ++ toString d.types.size ++ " types"⟩] ++
    (d.types.emitAll .empty).declarations.map declared ++ formatting

/-! ## Outcomes -/

/-- What ends a run without a result of its own. -/
inductive Crash where
  | undecodable (e : Text.Utf8Error)
  | numeralTooLong (e : Json.ReadError)
  | system (e : SystemError)
  /-- A path holds the null character. -/
  | nullInPath
  | formatter (e : Breakdown)
  /-- The text holds lone surrogates. -/
  | unencodable (e : Text.SurrogateError)
deriving DecidableEq

def Crash.message : Crash → String
  | undecodable e => e.message
  | numeralTooLong e => e.message
  | system e => e.message
  | nullInPath => "embedded null byte"
  | formatter e => e.message
  | unencodable e => e.message

inductive Ending where
  | returned (status : Nat)
  | crashed (e : Crash)
  | usage (e : UsageError)
  | help
deriving DecidableEq

structure Report where
  ending : Ending
  log : List LogLine := []
  stdout : String := ""
  /-- The tree as the run leaves it. -/
  tree : FileTree

/-- What a run finds. -/
structure Surroundings where
  tree : FileTree
  working : Place
  /-- Standard input, decoded. -/
  stdin : String
  /-- Why standard input cannot be decoded, if it cannot. -/
  stdinFlaw : Option Text.Utf8Error := none
  /-- Runs the program of an external formatter. -/
  program : Runner

/-! ## Input -/

inductive InputError where
  | unreadable (e : SystemError)
  | crash (e : Crash)

def decodeText (bytes : List UInt8) : Except InputError String :=
  match Text.decodeUtf8 bytes with
  | .ok cs => .ok (String.ofList (Text.unifyNewlines cs))
  | .error e => .error (.crash (.undecodable e))

/-- The text of the input; a dash stands for standard input. -/
def readInput (s : Surroundings) (input : String) : Except InputError String :=
  if input = "-" then
    match s.stdinFlaw with
    | some e => .error (.crash (.undecodable e))
    | none => .ok (String.ofList (Text.unifyNewlines s.stdin.toList))
  else
    let p := Path.ofText input
    if p.hasNull then .error (.crash .nullInPath)
    else match s.tree.read s.working p with
    | .ok bytes => decodeText bytes
    | .error cause => .error (.unreadable ⟨cause, p.text⟩)

/-! ## Output -/

/-- Puts bytes into a file within a directory that is there. -/
def writeBytes (working : Place) (p : Path) (bytes : List UInt8) : EStateM Crash FileTree Unit := do
  if p.hasNull then throw .nullInPath
  else match (← get).write working p bytes with
  | .ok t => set t
  | .error cause => throw (.system ⟨cause, p.text⟩)

/-- Puts a text into a file. A text that cannot be encoded leaves the file empty, for that shows
only when the file has been opened. -/
def writeText (σ : Text.StandIns) (working : Place) (p : Path) (text : String) :
    EStateM Crash FileTree Unit := do
  match σ.encode text with
  | .ok bytes => writeBytes working p bytes
  | .error e =>
    writeBytes working p []
    throw (.unencodable e)

/-- Puts a text into a file, making the directories that lead to it. These stay if the file cannot
be written. -/
def deliver (σ : Text.StandIns) (working : Place) (p : Path) (text : String) :
    EStateM Crash FileTree Unit := do
  if p.parent.hasNull then throw .nullInPath
  else
    (FileTree.ensureDirectory working p.root p.parent.components.reverse).adaptExcept .system
    writeText σ working p text

/-! ## The run -/

namespace Settings

/-- Stand-ins for the lone surrogates of the input; what else is generated has no use for them. -/
def standIns (s : Settings) (input : String) : Text.StandIns :=
  Json.standIns (s.apiTypeName ++ input).toList

def formatter (s : Settings) (program : Runner) (σ : Text.StandIns) : Formatter :=
  if s.prettier then ExternalFormatter.formatter {} program σ else Formatter.layout s.indent

def formatterName (s : Settings) : String :=
  if s.prettier then "PrettierFormatter" else "SourceFormatter"

def formatterLog (s : Settings) : List LogLine :=
  if s.prettier then
    [⟨.debug, "Running formatter: " ++ " ".intercalate (ExternalFormatter.arguments {})⟩]
  else []

def options (s : Settings) (program : Runner) (σ : Text.StandIns) : Options :=
  { apiTypeName := s.apiTypeName, formatter := s.formatter program σ }

/-- The file to write; an empty path is none. -/
def outputPath (s : Settings) : Option Path :=
  match s.out with
  | some path => if path = "" then none else some (Path.ofText path)
  | none => none

end Settings

def failure (s : Surroundings) (log : List LogLine) (message : String) : Report :=
  { ending := .returned 1, log := log ++ [⟨.error, message⟩], tree := s.tree }

/-- What becomes of a run whose generation fails: a refusal by the system counts as the input's. -/
def failGeneration (s : Surroundings) (settings : Settings) (log : List LogLine) :
    GenerationError → Report
  | .format (.broken (.system e)) =>
    failure s log ("Cannot read " ++ settings.input ++ ": " ++ e.message)
  | .format (.broken e) => { ending := .crashed (.formatter e), log, tree := s.tree }
  | e => failure s log ("Generation failed: " ++ e.message)

/-- Generates the module of a description and delivers it. Only a text that can be encoded is
written to the standard output. -/
def runDescription (s : Surroundings) (settings : Settings) (σ : Text.StandIns) (d : Description) :
    Report :=
  let options := settings.options s.program σ
  let log := generationLog options settings.formatterName settings.formatterLog d
  match generate options d with
  | .error e => failGeneration s settings log e
  | .ok text =>
    match settings.outputPath with
    | none =>
      match σ.encode text with
      | .ok _ => { ending := .returned 0, log, stdout := text, tree := s.tree }
      | .error e => { ending := .crashed (.unencodable e), log, tree := s.tree }
    | some p =>
      match (deliver σ s.working p text).run s.tree with
      | .ok _ tree => { ending := .returned 0, log := log ++ [⟨.info, "Wrote " ++ p.text⟩], tree }
      | .error e tree => { ending := .crashed e, log, tree }

def runSettings (s : Surroundings) (settings : Settings) : Report :=
  match readInput s settings.input with
  | .error (.unreadable e) =>
    failure s [] ("Cannot read " ++ settings.input ++ ": " ++ e.message)
  | .error (.crash e) => { ending := .crashed e, tree := s.tree }
  | .ok input =>
    match Wire.parseWith (settings.standIns input) .builtin input with
    | .error (.text e@(.numeralTooLong _)) =>
      { ending := .crashed (.numeralTooLong e), tree := s.tree }
    | .error e => failure s [] ("Generation failed: " ++ e.message)
    | .ok d => runDescription s settings (settings.standIns input) d

def run (s : Surroundings) (arguments : List String) : Report :=
  match parseArguments arguments with
  | .error .help => { ending := .help, tree := s.tree }
  | .error (.usage e) => { ending := .usage e, tree := s.tree }
  | .ok settings =>
    let report := runSettings s settings
    { report with log := report.log.filter (LogLine.isShown settings.verbose) }

end Typings.Command
