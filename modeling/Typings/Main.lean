import Typings.Command.Run

/-!
# The command line program
-/

namespace Typings

open Command

def usage : String :=
  "usage: apicodegen [-h] [-o OUT] [--api-type-name API_TYPE_NAME]\n" ++
  "                  [--indent INDENT] [--prettier] [-v]\n" ++
  "                  input\n"

def help : String :=
  usage ++
  "\nGenerate TypeScript declarations from a JSON API description.\n" ++
  "\npositional arguments:\n" ++
  "  input                 Path to the JSON description, or - for stdin\n" ++
  "\noptions:\n" ++
  "  -h, --help            show this help message and exit\n" ++
  "  -o OUT, --out OUT     Write to file instead of stdout.\n" ++
  "  --api-type-name API_TYPE_NAME\n" ++
  "                        Name of the aggregate endpoint tree type (default:\n" ++
  "                        __API__).\n" ++
  "  --indent INDENT       Indent width (default: 2).\n" ++
  "  --prettier            Format with the prettier executable.\n" ++
  "  -v, --verbose         Log debug output to stderr.\n"

/-! ## The part of the file system that a run can see -/

/-- The text of a place. -/
def placeText (place : Place) : String := "/" ++ "/".intercalate place

def probeItem (place : Place) : IO (Option Item) := do
  let path := (← IO.currentDir) / placeText place
  if ← path.isDir then return some .directory
  else if ← path.pathExists then return some (.file (← IO.FS.readBinFile path).toList)
  else return none

/-- Looks at every place that a path leads over. -/
def probe (t : FileTree) (place : Place) : List String → IO FileTree
  | [] => return t
  | name :: rest => do
    let place := if name = ".." then place.dropLast else place ++ [name]
    match ← probeItem place with
    | some item => probe (t.put place item) place rest
    | none => probe t place rest

def probePath (t : FileTree) (working : Place) (p : Path) : IO FileTree :=
  if p.hasNull then return t else probe t (FileTree.origin working p) p.components

/-- Carries out on the file system what a run has done to the tree. -/
def carryOut (before after : FileTree) : IO Unit := do
  for (place, item) in after.items do
    if before.item? place != some item then
      match item with
      | .directory => IO.FS.createDirAll (placeText place)
      | .file bytes => IO.FS.writeBinFile (placeText place) ⟨bytes.toArray⟩

/-! ## The program -/

def decodeStdin : IO String := do
  match decodeText (← (← IO.getStdin).readBinToEnd).toList with
  | .ok text => return text
  | .error _ => throw (IO.userError "standard input is not UTF-8")

/-- Runs the command in the current directory. No program is started: a formatter that would be one
counts as not found. -/
def runHere (settings : Settings) : IO Report := do
  let working := (Path.ofText (← IO.currentDir).toString).components
  let base ← probe ⟨[]⟩ [] working
  let tree ← probePath base working (Path.ofText settings.input)
  let tree ← match settings.outputPath with
    | some p => probePath tree working p
    | none => pure tree
  let stdin ← if settings.input = "-" then decodeStdin else pure ""
  let surroundings : Surroundings :=
    { tree, working, stdin, program := fun _ _ ↦ .error (.system .notFound) }
  let report := runSettings surroundings settings
  carryOut tree report.tree
  return { report with log := report.log.filter (LogLine.isShown settings.verbose) }

def conclude (report : Report) : IO UInt32 := do
  for line in report.log do
    IO.eprint line.text
  IO.print report.stdout
  match report.ending with
  | .returned status => return status.toUInt32
  | .crashed e =>
    IO.eprintln e.message
    return 1
  | .usage e =>
    IO.eprint (usage ++ "apicodegen: error: " ++ e.message ++ "\n")
    return 2
  | .help =>
    IO.print help
    return 0

end Typings

def main (arguments : List String) : IO UInt32 := do
  match Typings.Command.parseArguments arguments with
  | .ok settings => Typings.conclude (← Typings.runHere settings)
  | .error .help => Typings.conclude { ending := .help, tree := ⟨[]⟩ }
  | .error (.usage e) => Typings.conclude { ending := .usage e, tree := ⟨[]⟩ }
