import Typings.Text.Digit
import Typings.Text.Quoted

/-!
# Command line arguments

Words are told apart first: options, which may be shortened as long as that leaves one reading and
may carry their value after an equals sign or, short ones, directly; the separator `--`, after which
nothing is an option; and plain words. Then they are consumed from left to right. Of an option given
twice the later one counts, and one that carries `--` as its value is left without any.
-/

namespace Typings.Command

inductive Flag where
  | help
  | out
  | apiTypeName
  | indent
  | prettier
  | verbose
deriving DecidableEq

namespace Flag

/-- The spellings of all options, in the order in which they are listed to the user. -/
def spellings : List (String × Flag) :=
  [("-h", help), ("--help", help), ("-o", out), ("--out", out), ("--api-type-name", apiTypeName),
    ("--indent", indent), ("--prettier", prettier), ("-v", verbose), ("--verbose", verbose)]

def takesValue : Flag → Bool
  | out | apiTypeName | indent => true
  | help | prettier | verbose => false

/-- The name of an option in messages: all its spellings. -/
def title (flag : Flag) : String :=
  "/".intercalate ((spellings.filter fun (_, f) ↦ f = flag).map Prod.fst)

end Flag

structure Settings where
  input : String
  out : Option String := none
  apiTypeName : String := "__API__"
  indent : Option Int := some 2
  prettier : Bool := false
  verbose : Bool := false
deriving DecidableEq

/-- Why the arguments are refused. -/
inductive UsageError where
  | ambiguous (word : String) (candidates : List String)
  | valueExpected (flag : Flag)
  | valueIgnored (flag : Flag) (value : String)
  | notAnInteger (flag : Flag) (value : String)
  | inputRequired
  | unrecognized (words : List String)
deriving DecidableEq

def UsageError.message : UsageError → String
  | ambiguous word candidates =>
    "ambiguous option: " ++ word ++ " could match " ++ ", ".intercalate candidates
  | valueExpected flag => "argument " ++ flag.title ++ ": expected one argument"
  | valueIgnored flag value =>
    "argument " ++ flag.title ++ ": ignored explicit argument " ++ Text.quoted value
  | notAnInteger flag value =>
    "argument " ++ flag.title ++ ": invalid int value: " ++ Text.quoted value
  | inputRequired => "the following arguments are required: input"
  | unrecognized words => "unrecognized arguments: " ++ " ".intercalate words

/-! ## Telling words apart -/

inductive Word where
  | plain (text : String)
  /-- An option, with the value that its own word carries. -/
  | option (flag : Flag) (isLong : Bool) (carried : Option (List Char))
  /-- A word that looks like an option but is none. -/
  | unknown (text : String)
deriving DecidableEq

/-- The text before the first equals sign and, if there is one, that after it. -/
def splitEquals (cs : List Char) : List Char × Option (List Char) :=
  match cs.dropWhile (· != '=') with
  | [] => (cs, none)
  | _ :: value => (cs.takeWhile (· != '='), some value)

def looksNegative (cs : List Char) : Bool :=
  let isDigit (c : Char) : Bool := (Text.digit? c).isSome
  match cs with
  | '-' :: rest =>
    let rest := if rest.getLast? = some '\n' then rest.dropLast else rest
    match rest.dropWhile isDigit with
    | [] => !rest.isEmpty
    | '.' :: fraction => !fraction.isEmpty && fraction.all isDigit
    | _ => false
  | _ => false

def isLongSpelling (spelling : String) : Bool := "--".toList.isPrefixOf spelling.toList

def optionWord (spelling : String) (flag : Flag) (carried : Option (List Char)) : Word :=
  .option flag (isLongSpelling spelling) carried

/-- The readings of a word that is not the exact spelling of an option. -/
def readings (word : String) : List (String × Word) :=
  match word.toList with
  | '-' :: '-' :: _ =>
    let (start, value) := splitEquals word.toList
    (Flag.spellings.filter fun (spelling, _) ↦ start.isPrefixOf spelling.toList).map
      fun (spelling, flag) ↦ (spelling, optionWord spelling flag value)
  | '-' :: c :: rest =>
    Flag.spellings.filterMap fun (spelling, flag) ↦
      if spelling.toList = ['-', c] then some (spelling, optionWord spelling flag (some rest))
      else if word.toList.isPrefixOf spelling.toList then
        some (spelling, optionWord spelling flag none)
      else none
  | _ => []

def classify (word : String) : Except UsageError Word :=
  match word.toList with
  | '-' :: _ :: _ =>
    let (start, value) := splitEquals word.toList
    match Flag.spellings.lookup word, Flag.spellings.lookup (String.ofList start), value with
    | some flag, _, _ => .ok (optionWord word flag none)
    | none, some flag, some value => .ok (optionWord (String.ofList start) flag (some value))
    | none, _, _ =>
      match readings word with
      | [(_, reading)] => .ok reading
      | [] => .ok (if looksNegative word.toList || ' ' ∈ word.toList then .plain word
          else .unknown word)
      | candidates => .error (.ambiguous word (candidates.map Prod.fst))
  | _ => .ok (.plain word)

/-- The words before the separator, and those after it if there is one. -/
structure Words where
  before : List Word
  after : Option (List String)

def classifyAll : List String → Except UsageError Words
  | [] => .ok ⟨[], none⟩
  | word :: rest =>
    if word = "--" then .ok ⟨[], some rest⟩
    else do
      let first ← classify word
      let words ← classifyAll rest
      return { words with before := first :: words.before }

/-! ## Consuming words -/

/-- What the words so far amount to. -/
structure Progress where
  input : Option String := none
  settings : Settings := { input := "" }
  unrecognized : List String := []

/-- The arguments are refused, or help is asked for. -/
inductive Stop where
  | help
  | usage (e : UsageError)
deriving DecidableEq

namespace Progress

/-- Takes an option with its value, if it has one. -/
def set (p : Progress) (flag : Flag) (value : Option String) : Except Stop Progress :=
  match flag with
  | .out => .ok { p with settings.out := value }
  | .apiTypeName => .ok { p with settings.apiTypeName := value.getD "[]" }
  | .indent =>
    match value with
    | none => .ok { p with settings.indent := none }
    | some text =>
      match Text.int? text with
      | some n => .ok { p with settings.indent := some n }
      | none => .error (.usage (.notAnInteger flag text))
  | .prettier => .ok { p with settings.prettier := true }
  | .verbose => .ok { p with settings.verbose := true }
  | .help => .error .help

def setAll (p : Progress) : List (Flag × Option String) → Except Stop Progress
  | [] => .ok p
  | (flag, value) :: rest =>
    match p.set flag value with
    | .ok p => setAll p rest
    | .error stop => .error stop

def reject (p : Progress) (words : List String) : Progress :=
  { p with unrecognized := p.unrecognized ++ words }

end Progress

/-- What the word of an option says: options in order with their values, and a last option whose
value is still to come. -/
structure Cluster where
  done : List (Flag × Option String) := []
  awaiting : Option Flag := none

def Cluster.push (flag : Flag) (c : Cluster) : Cluster := { c with done := (flag, none) :: c.done }

/-- An option that carries no value. -/
def Cluster.bare (flag : Flag) : Cluster :=
  if flag.takesValue then { awaiting := some flag } else { done := [(flag, none)] }

/-- An option that takes the value that it carries. -/
def Cluster.withValue (flag : Flag) (value : List Char) : Cluster :=
  { done := [(flag, if value = ['-', '-'] then none else some (String.ofList value))] }

/-- Reads what a short option carries: its value or, if it takes none, further options. -/
def readShort (flag : Flag) : List Char → Except UsageError Cluster
  | [] => if flag.takesValue then .ok (.withValue flag []) else .error (.valueIgnored flag "")
  | c :: rest =>
    if flag.takesValue then .ok (.withValue flag (c :: rest))
    else match Flag.spellings.lookup (String.ofList ['-', c]), rest with
      | none, _ => .error (.valueIgnored flag (String.ofList (c :: rest)))
      | some next, [] => .ok ((Cluster.bare next).push flag)
      | some next, rest@(_ :: _) => (readShort next rest).map (Cluster.push flag)

/-- What the word of an option says. -/
def readOption (flag : Flag) (isLong : Bool) : Option (List Char) → Except UsageError Cluster
  | none => .ok (.bare flag)
  | some value =>
    if isLong && !flag.takesValue then .error (.valueIgnored flag (String.ofList value))
    else readShort flag value

/-- Consumes what the separator is followed by. -/
def Progress.finish (p : Progress) (after : Option (List String)) : Progress :=
  match p.input, after with
  | _, none => p
  | none, some (text :: rest) => { p with input := some text }.reject rest
  | _, some rest => p.reject ("--" :: rest)

/-- Consumes words from left to right. An input right before the separator takes it along. -/
def consume (p : Progress) (after : Option (List String)) : List Word → Except Stop Progress
  | [] => .ok (p.finish after)
  | .plain text :: rest =>
    match p.input, rest with
    | none, [] => .ok ({ p with input := some text }.reject (after.getD []))
    | none, rest => consume { p with input := some text } after rest
    | some _, rest => consume (p.reject [text]) after rest
  | .unknown text :: rest => consume (p.reject [text]) after rest
  | .option flag isLong carried :: rest =>
    match readOption flag isLong carried with
    | .error e => .error (.usage e)
    | .ok cluster =>
      match cluster.awaiting, rest with
      | none, rest =>
        match p.setAll cluster.done with
        | .error stop => .error stop
        | .ok p => consume p after rest
      | some last, .plain value :: rest =>
        match p.setAll (cluster.done ++ [(last, some value)]) with
        | .error stop => .error stop
        | .ok p => consume p after rest
      | some last, _ => .error (.usage (.valueExpected last))

def parseArguments (arguments : List String) : Except Stop Settings :=
  match classifyAll arguments with
  | .error e => .error (.usage e)
  | .ok words =>
    match consume {} words.after words.before with
    | .error stop => .error stop
    | .ok p =>
      match p.input, p.unrecognized with
      | none, _ => .error (.usage .inputRequired)
      | some input, [] => .ok { p.settings with input }
      | some _, words => .error (.usage (.unrecognized words))

end Typings.Command
