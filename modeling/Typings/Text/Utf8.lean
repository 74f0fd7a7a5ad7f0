/-!
# UTF-8

Bytes are decoded to characters or refused with the range of the first bytes that begin no
character: the bytes of a character up to the first that does not continue it.
-/

namespace Typings.Text

inductive Utf8Problem where
  | invalidStart
  | invalidContinuation
  | unexpectedEnd
deriving DecidableEq

/-- Why bytes are no text: the bytes at `start`, the first of them `byte`, begin no character. -/
structure Utf8Error where
  problem : Utf8Problem
  byte : UInt8
  start : Nat
  count : Nat
deriving DecidableEq

def Utf8Problem.message : Utf8Problem → String
  | invalidStart => "invalid start byte"
  | invalidContinuation => "invalid continuation byte"
  | unexpectedEnd => "unexpected end of data"

def Utf8Error.message (e : Utf8Error) : String :=
  let site :=
    if e.count = 1 then
      "byte 0x" ++ hex e.byte.toNat ++ " in position " ++ toString e.start
    else "bytes in position " ++ toString e.start ++ "-" ++ toString (e.start + e.count - 1)
  "'utf-8' codec can't decode " ++ site ++ ": " ++ e.problem.message
where
  hex (n : Nat) : String :=
    String.ofList [(n / 16).digitChar, (n % 16).digitChar]

/-- A character of which the first byte has been read: the bits so far, how many bytes are to
follow, and the range of the next one. -/
structure Partial where
  first : UInt8
  bits : Nat
  missing : Nat
  low : Nat
  high : Nat

/-- The first byte of a character of more than one. The range of the second byte leaves out what
could be written shorter, the surrogates, and what lies beyond the last character. -/
def Partial.ofFirst? (b : UInt8) : Option Partial :=
  let n := b.toNat
  if 0xC2 ≤ n ∧ n ≤ 0xDF then some ⟨b, n - 0xC0, 1, 0x80, 0xBF⟩
  else if n = 0xE0 then some ⟨b, 0, 2, 0xA0, 0xBF⟩
  else if n = 0xED then some ⟨b, 0xD, 2, 0x80, 0x9F⟩
  else if 0xE1 ≤ n ∧ n ≤ 0xEF then some ⟨b, n - 0xE0, 2, 0x80, 0xBF⟩
  else if n = 0xF0 then some ⟨b, 0, 3, 0x90, 0xBF⟩
  else if n = 0xF4 then some ⟨b, 4, 3, 0x80, 0x8F⟩
  else if 0xF1 ≤ n ∧ n ≤ 0xF3 then some ⟨b, n - 0xF0, 3, 0x80, 0xBF⟩
  else none

/-- Decodes the bytes from a position on. A character that is not complete began `read` bytes
before that position. -/
def decodeFrom (position : Nat) : Option (Partial × Nat) → List UInt8 → Except Utf8Error (List Char)
  | none, [] => .ok []
  | some (p, read), [] => .error ⟨.unexpectedEnd, p.first, position - read, read⟩
  | none, b :: rest =>
    if b.toNat < 0x80 then
      (decodeFrom (position + 1) none rest).map (Char.ofNat b.toNat :: ·)
    else match Partial.ofFirst? b with
      | some p => decodeFrom (position + 1) (some (p, 1)) rest
      | none => .error ⟨.invalidStart, b, position, 1⟩
  | some (p, read), b :: rest =>
    let n := b.toNat
    if p.low ≤ n ∧ n ≤ p.high then
      let bits := p.bits * 0x40 + (n - 0x80)
      if p.missing ≤ 1 then (decodeFrom (position + 1) none rest).map (Char.ofNat bits :: ·)
      else
        decodeFrom (position + 1) (some (⟨p.first, bits, p.missing - 1, 0x80, 0xBF⟩, read + 1)) rest
    else .error ⟨.invalidContinuation, p.first, position - read, read⟩

def decodeUtf8 (bytes : List UInt8) : Except Utf8Error (List Char) := decodeFrom 0 none bytes

def encodeUtf8 (text : String) : List UInt8 := text.toUTF8.toList

end Typings.Text
