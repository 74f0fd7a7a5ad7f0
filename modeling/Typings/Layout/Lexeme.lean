import Typings.Text.Lines

/-!
# Brackets outside strings and comments

A line is cut into lexemes of which only the brackets matter, and whether anything else stands
before them. Comments from `/*` to `*/` may run over lines, strings may not; a comment from `//` on
ends its line.
-/

namespace Typings.Layout

inductive Bracket where
  | brace
  | square
  | round
deriving DecidableEq

namespace Bracket

def opener : Bracket → Char
  | brace => '\x7b'
  | square => '['
  | round => '('

def closer : Bracket → Char
  | brace => '\x7d'
  | square => ']'
  | round => ')'

def ofOpener? : Char → Option Bracket
  | '\x7b' => some brace
  | '[' => some square
  | '(' => some round
  | _ => none

def ofCloser? : Char → Option Bracket
  | '\x7d' => some brace
  | ']' => some square
  | ')' => some round
  | _ => none

end Bracket

def isQuote (c : Char) : Bool := c = '"' || c = '\'' || c = '\x60'

/-- Where a text stands: in code, in a comment that was opened on a line, or in a string. -/
inductive Mode where
  | code
  | comment (opened : Nat)
  | string (quote : Char)
deriving DecidableEq

inductive Lexeme where
  | opener (b : Bracket)
  | closer (b : Bracket)
  | blank
  | commentEnd
  /-- Anything else that can be seen. -/
  | solid
deriving DecidableEq

namespace Lexeme

/-- A character of code that begins neither a comment nor a string. -/
def ofChar (c : Char) : Lexeme :=
  match Bracket.ofOpener? c, Bracket.ofCloser? c with
  | some b, _ => opener b
  | none, some b => closer b
  | none, none => if Text.isBlank c then blank else solid

end Lexeme

/-- The lexemes of line number `line`, and the mode at its end. -/
def lex (line : Nat) : Mode → List Char → List Lexeme × Mode
  | mode, [] => ([], mode)
  | .comment _, '*' :: '/' :: rest => prepend .commentEnd (lex line .code rest)
  | .comment opened, _ :: rest => prepend .solid (lex line (.comment opened) rest)
  | .string quote, '\\' :: _ :: rest => lex line (.string quote) rest
  | .string quote, '\\' :: [] => ([], .string quote)
  | .string quote, c :: rest => lex line (if c = quote then .code else .string quote) rest
  | .code, '/' :: '/' :: _ => ([], .code)
  | .code, '/' :: '*' :: rest => prepend .solid (lex line (.comment line) rest)
  | .code, c :: rest =>
    if isQuote c then prepend .solid (lex line (.string c) rest)
    else prepend (.ofChar c) (lex line .code rest)
where
  prepend (x : Lexeme) (p : List Lexeme × Mode) : List Lexeme × Mode := (x :: p.1, p.2)

end Typings.Layout
