import Typings.Json.Basic
import Typings.Text.Margin
import Typings.Text.Quoted

/-!
# Writing JSON text

The text is ASCII: every other character is written by the escapes of its UTF-16 code units. With
an indent each member and item stands on a line of its own, and empty containers stay on one line;
an indent below one still breaks the lines.
-/

namespace Typings.Json

/-- Floating point numbers in JSON text. -/
def writtenSpelling : Binary64.Spelling := { nan := "NaN", infinity := "Infinity" }

def unitEscape (n : Nat) : List Char := '\\' :: 'u' :: Text.hexDigits 4 n

def escape (c : Char) : List Char :=
  match c with
  | '"' => ['\\', '"']
  | '\\' => ['\\', '\\']
  | '\n' => ['\\', 'n']
  | '\r' => ['\\', 'r']
  | '\t' => ['\\', 't']
  | '\x0c' => ['\\', 'f']
  | '\x08' => ['\\', 'b']
  | c =>
    let n := c.toNat
    if 0x20 ≤ n ∧ n < 0x7F then [c]
    else if n < 0x10000 then unitEscape n
    else unitEscape (0xD800 + (n - 0x10000) / 0x400) ++ unitEscape (0xDC00 + (n - 0x10000) % 0x400)

def writeString (s : String) : List Char := '"' :: (s.toList.flatMap escape ++ ['"'])

/-- How items are laid out: on one line, or one to a line and behind a margin for each level. -/
inductive Style where
  | inline
  | indented (margin : List Char)

namespace Style

/-- The style of an indent in blanks; none stands for one line. -/
def ofIndent : Option Int → Except Text.MarginError Style
  | none => .ok inline
  | some width => (Text.margin width).map indented

def lineStart (style : Style) (depth : Nat) : List Char :=
  match style with
  | inline => []
  | indented margin => '\n' :: (List.replicate depth margin).flatten

/-- What stands between two items. -/
def between (style : Style) (depth : Nat) : List Char :=
  match style with
  | inline => [',', ' ']
  | indented _ => ',' :: style.lineStart depth

end Style

mutual

def write (style : Style) (depth : Nat) : Json → List Char
  | null => ['n', 'u', 'l', 'l']
  | bool true => ['t', 'r', 'u', 'e']
  | bool false => ['f', 'a', 'l', 's', 'e']
  | int n => Numeral.ofInt n
  | float x => x.text writtenSpelling
  | str s => writeString s
  | arr [] => ['[', ']']
  | arr (v :: rest) =>
    '[' :: (style.lineStart (depth + 1) ++ write style (depth + 1) v ++
      writeItems style (depth + 1) rest ++ style.lineStart depth ++ [']'])
  | obj [] => ['\x7b', '\x7d']
  | obj ((k, v) :: rest) =>
    '\x7b' :: (style.lineStart (depth + 1) ++ writeString k ++ [':', ' '] ++
      write style (depth + 1) v ++ writeMembers style (depth + 1) rest ++ style.lineStart depth ++
      ['\x7d'])

def writeItems (style : Style) (depth : Nat) : List Json → List Char
  | [] => []
  | v :: rest => style.between depth ++ write style depth v ++ writeItems style depth rest

def writeMembers (style : Style) (depth : Nat) : List (String × Json) → List Char
  | [] => []
  | (k, v) :: rest =>
    style.between depth ++ writeString k ++ [':', ' '] ++ write style depth v ++
      writeMembers style depth rest

end

def render (style : Style) (v : Json) : String := String.ofList (write style 0 v)

end Typings.Json
