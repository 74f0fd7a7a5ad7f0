import Typings.Table
import Typings.Text.Utf8

/-!
# Lone surrogates

A text that is given by its code units may hold one half of a surrogate pair without the other one,
but no character is a surrogate. Characters that the text has no other use for stand for such
halves. UTF-8 has no bytes for a surrogate, so a text with a stand-in cannot be encoded.
-/

namespace Typings.Text

def isSurrogate (n : Nat) : Bool := 0xD800 ≤ n && n < 0xE000

/-- Characters that stand for surrogates, each behind its surrogate. -/
structure StandIns where
  pairs : List (Nat × Char) := []
deriving DecidableEq

namespace StandIns

/-- The character that stands for a surrogate. One without a stand-in is replaced. -/
def char (σ : StandIns) (n : Nat) : Char := (Assoc.find? n σ.pairs).getD '\ufffd'

/-- The surrogate that a character stands for. -/
def surrogate? (σ : StandIns) (c : Char) : Option Nat :=
  (σ.pairs.find? (·.2 = c)).map Prod.fst

def isStandIn (σ : StandIns) (c : Char) : Bool := (σ.surrogate? c).isSome

/-- Characters from the end of the last plane that are not in use, `count` of them unless nearly all
characters are. -/
def spare (used : List Char) (count : Nat) : List Char :=
  ((List.range (used.length + count)).map fun k ↦ Char.ofNat (0x10FFFF - k)).filter
    (!used.contains ·)

/-- Stand-ins for some surrogates, other than the characters that are in use. -/
def avoiding (used : List Char) : List Nat → StandIns
  | [] => {}
  | surrogates => { pairs := surrogates.zip (spare used surrogates.length) }

end StandIns

/-- Why a text cannot be encoded: the characters from `start` on, the first of them `surrogate`, are
lone surrogates. -/
structure SurrogateError where
  surrogate : Nat
  start : Nat
  count : Nat
deriving DecidableEq

def SurrogateError.message (e : SurrogateError) : String :=
  let site :=
    if e.count = 1 then
      "character '\\u" ++ String.ofList (Nat.toDigits 16 e.surrogate) ++ "' in position " ++
        toString e.start
    else "characters in position " ++ toString e.start ++ "-" ++ toString (e.start + e.count - 1)
  "'utf-8' codec can't encode " ++ site ++ ": surrogates not allowed"

/-- The lone surrogates that a text comes to first. -/
def StandIns.flaw? (σ : StandIns) (text : String) : Option SurrogateError :=
  let (before, rest) := text.toList.span (!σ.isStandIn ·)
  (rest.head?.bind σ.surrogate?).map fun surrogate ↦
    { surrogate, start := before.length, count := (rest.takeWhile σ.isStandIn).length }

/-- The bytes of a text in which characters stand for lone surrogates. -/
def StandIns.encode (σ : StandIns) (text : String) : Except SurrogateError (List UInt8) :=
  match σ.flaw? text with
  | some e => .error e
  | none => .ok (encodeUtf8 text)

end Typings.Text
