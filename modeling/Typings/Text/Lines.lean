/-!
# Lines and blanks

Texts are cut at every line break that Unicode or ASCII knows, a carriage return with the line feed
after it being one break. A break at the very end opens no further line.
-/

namespace Typings.Text

def isLineBreak (c : Char) : Bool :=
  c ∈ ['\n', '\r', '\x0b', '\x0c', '\x1c', '\x1d', '\x1e', '\u0085', '\u2028', '\u2029']

/-- White space, and the four information separators of ASCII. -/
def isBlank (c : Char) : Bool :=
  let n := c.toNat
  (0x09 ≤ n && n ≤ 0x0D) || (0x1C ≤ n && n ≤ 0x20) || n == 0x85 || n == 0xA0 || n == 0x1680 ||
    (0x2000 ≤ n && n ≤ 0x200A) || n == 0x2028 || n == 0x2029 || n == 0x202F || n == 0x205F ||
    n == 0x3000

def splitLines : List Char → List (List Char)
  | [] => []
  | '\r' :: '\n' :: rest => [] :: splitLines rest
  | c :: rest =>
    if isLineBreak c then [] :: splitLines rest
    else match splitLines rest with
      | [] => [[c]]
      | line :: lines => (c :: line) :: lines

/-- Drops the elements at the end that satisfy `p`. -/
def dropEnd {α : Type} (p : α → Bool) : List α → List α
  | [] => []
  | x :: xs => match dropEnd p xs with
    | [] => if p x then [] else [x]
    | ys => x :: ys

def trim (cs : List Char) : List Char := dropEnd isBlank (cs.dropWhile isBlank)

/-- Every carriage return becomes a line feed, and so does one with a line feed after it. -/
def unifyNewlines : List Char → List Char
  | [] => []
  | '\r' :: '\n' :: rest => '\n' :: unifyNewlines rest
  | '\r' :: rest => '\n' :: unifyNewlines rest
  | c :: rest => c :: unifyNewlines rest

end Typings.Text
