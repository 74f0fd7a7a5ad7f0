import Typings.Layout.Lexeme

/-!
# Bracket depth of lines

A text is cut into lines without the blanks around them, and each line gets the number of brackets
that are open where it begins, less those that the closing brackets at its head close. A text is
refused at the first bracket that closes nothing or something else, at the first line that ends
within a string, and at its end if a comment or a bracket is still open.
-/

namespace Typings.Layout

structure Line where
  number : Nat
  text : List Char
  lexemes : List Lexeme
  /-- The mode in which the line begins. -/
  start : Mode
  /-- The mode in which it ends. -/
  finish : Mode

namespace Line

def inComment (l : Line) : Bool :=
  match l.start with
  | .comment _ => true
  | _ => false

end Line

/-- A string never runs on into the next line. -/
def Mode.afterLine : Mode → Mode
  | .string _ => .code
  | mode => mode

def readLines (number : Nat) (start : Mode) : List (List Char) → List Line
  | [] => []
  | text :: rest =>
    let (lexemes, finish) := lex number start text
    { number, text, lexemes, start, finish } :: readLines (number + 1) finish.afterLine rest

/-- The lines of a source text, numbered from one. -/
def sourceLines (source : List Char) : List Line :=
  readLines 1 .code ((Text.splitLines source).map Text.trim)

inductive ScanError where
  | unexpectedCloser (b : Bracket) (line : Nat) (text : List Char)
  | unterminatedString (line : Nat) (text : List Char)
  | unterminatedComment (line : Nat)
  | unclosed (b : Bracket) (line : Nat)
deriving DecidableEq

def ScanError.message : ScanError → String
  | unexpectedCloser b line text =>
    "Unexpected '" ++ b.closer.toString ++ "' on line " ++ toString line ++ ": " ++
      String.ofList text
  | unterminatedString line text =>
    "Unterminated string literal on line " ++ toString line ++ ": " ++ String.ofList text
  | unterminatedComment line => "Unterminated comment opened on line " ++ toString line
  | unclosed b line => "Unclosed '" ++ b.opener.toString ++ "' opened on line " ++ toString line

/-- The open brackets, innermost first, each with the number of its line. -/
abbrev OpenBrackets : Type := List (Bracket × Nat)

/-- The open brackets after the lexemes of a line. -/
def balance (number : Nat) (text : List Char) (stack : OpenBrackets) :
    List Lexeme → Except ScanError OpenBrackets
  | [] => .ok stack
  | .opener b :: rest => balance number text ((b, number) :: stack) rest
  | .closer b :: rest =>
    match stack with
    | (b', _) :: outer =>
      if b' = b then balance number text outer rest
      else .error (.unexpectedCloser b number text)
    | [] => .error (.unexpectedCloser b number text)
  | _ :: rest => balance number text stack rest

def Lexeme.isLeading : Lexeme → Bool
  | .closer _ | .blank | .commentEnd => true
  | .opener _ | .solid => false

def Lexeme.isCloser : Lexeme → Bool
  | .closer _ => true
  | _ => false

/-- The closing brackets at the head of a line, before anything else that can be seen. -/
def Line.leadingClosers (l : Line) : Nat :=
  (l.lexemes.takeWhile Lexeme.isLeading).countP Lexeme.isCloser

/-- The open brackets after a line. -/
def Line.balance (l : Line) (stack : OpenBrackets) : Except ScanError OpenBrackets :=
  match Layout.balance l.number l.text stack l.lexemes with
  | .error e => .error e
  | .ok stack =>
    match l.finish with
    | .string _ => .error (.unterminatedString l.number l.text)
    | _ => .ok stack

structure PlacedLine where
  text : List Char
  depth : Nat
  inComment : Bool
deriving DecidableEq

def Line.place (l : Line) (stack : OpenBrackets) : PlacedLine :=
  { text := l.text, depth := stack.length - l.leadingClosers, inComment := l.inComment }

/-- Places lines, and checks at their end that nothing is left open. -/
def placeLines (mode : Mode) (stack : OpenBrackets) :
    List Line → Except ScanError (List PlacedLine)
  | [] =>
    match mode, stack with
    | .comment opened, _ => .error (.unterminatedComment opened)
    | _, (b, line) :: _ => .error (.unclosed b line)
    | _, [] => .ok []
  | l :: rest =>
    match l.balance stack with
    | .error e => .error e
    | .ok after =>
      match placeLines l.finish after rest with
      | .error e => .error e
      | .ok placed => .ok (l.place stack :: placed)

def scan (source : List Char) : Except ScanError (List PlacedLine) :=
  placeLines .code [] (sourceLines source)

end Typings.Layout
