import Typings.Json.Basic
import Typings.Text.Surrogate

/-!
# Tokens of JSON text

`lex` reads the token at the head of a text. A token that is no good carries its flaw, which names
the text from the offending character on; it is the reader that decides whether a flaw matters,
because where no value may stand any text is refused for another reason.

Beyond the standard, `NaN`, `Infinity` and `-Infinity` are numbers. A numeral without fraction and
exponent is an integer, any other one a floating point number. An escape may name a surrogate that
is no half of a pair; `σ` says which characters stand for these.
-/

namespace Typings.Json

/-- What is wrong with a text. -/
inductive Reason where
  | byteOrderMark
  | valueExpected
  | nameExpected
  | colonExpected
  | commaExpected
  | extraData
  | unterminatedString
  | controlCharacter
  | unknownEscape
  | unicodeEscape
deriving DecidableEq

/-- A flaw of a text: malformed at the remaining text `rest`, or an integer of too many digits. -/
inductive Flaw where
  | malformed (reason : Reason) (rest : List Char)
  | numeralTooLong (digits : Nat)

inductive Token where
  | openArray
  | closeArray
  | openObject
  | closeObject
  | comma
  | colon
  | text (s : String)
  | scalar (v : Json)
  | flawed (flaw : Flaw)

def isSpace (c : Char) : Bool := c = ' ' || c = '\t' || c = '\n' || c = '\r'

/-! ## Strings -/

def hexDigit? (c : Char) : Option Nat :=
  if '0' ≤ c ∧ c ≤ '9' then some (c.toNat - '0'.toNat)
  else if 'a' ≤ c ∧ c ≤ 'f' then some (c.toNat - 'a'.toNat + 10)
  else if 'A' ≤ c ∧ c ≤ 'F' then some (c.toNat - 'A'.toNat + 10)
  else none

def hexQuad? (a b c d : Char) : Option Nat :=
  match hexDigit? a, hexDigit? b, hexDigit? c, hexDigit? d with
  | some a, some b, some c, some d => some (((a * 16 + b) * 16 + c) * 16 + d)
  | _, _, _, _ => none

/-- The character that an escape of one letter stands for. -/
def escaped? : Char → Option Char
  | '"' => some '"'
  | '\\' => some '\\'
  | '/' => some '/'
  | 'b' => some '\x08'
  | 'f' => some '\x0c'
  | 'n' => some '\n'
  | 'r' => some '\r'
  | 't' => some '\t'
  | _ => none

/-- Puts a code unit before those of the rest of a string. -/
def prepend (n : Nat) : Except Flaw (List Nat × List Char) → Except Flaw (List Nat × List Char)
  | .ok (units, rest) => .ok (n :: units, rest)
  | .error flaw => .error flaw

/-- The code units of a string up to its closing quote, and the text after that. An escape of four
hexadecimal digits is cut off unless a further character follows it. -/
def scanString (start : List Char) : List Char → Except Flaw (List Nat × List Char)
  | [] => .error (.malformed .unterminatedString start)
  | '"' :: rest => .ok ([], rest)
  | '\\' :: 'u' :: a :: b :: c :: d :: e :: rest =>
    match hexQuad? a b c d with
    | none => .error (.malformed .unicodeEscape ('u' :: a :: b :: c :: d :: e :: rest))
    | some n => prepend n (scanString start (e :: rest))
  | '\\' :: 'u' :: rest => .error (.malformed .unicodeEscape ('u' :: rest))
  | '\\' :: c :: rest =>
    match escaped? c with
    | none => .error (.malformed .unknownEscape ('\\' :: c :: rest))
    | some x => prepend x.toNat (scanString start rest)
  | '\\' :: [] => .error (.malformed .unterminatedString start)
  | c :: rest =>
    if c.toNat ≤ 0x1F then .error (.malformed .controlCharacter (c :: rest))
    else prepend c.toNat (scanString start rest)

/-- Two code units are a high surrogate and a low one. -/
def IsPair (m n : Nat) : Prop := 0xD800 ≤ m ∧ m < 0xDC00 ∧ 0xDC00 ≤ n ∧ n < 0xE000

instance (m n : Nat) : Decidable (IsPair m n) := inferInstanceAs (Decidable (_ ∧ _))

/-- The character of a pair. -/
def pairChar (m n : Nat) : Char := Char.ofNat (0x10000 + (m - 0xD800) * 0x400 + (n - 0xDC00))

/-- Code units to characters: a high surrogate and the low one after it are one character. -/
def joinSurrogates (σ : Text.StandIns) : List Nat → List Char
  | [] => []
  | [n] => [single σ n]
  | m :: n :: rest =>
    if IsPair m n then pairChar m n :: joinSurrogates σ rest
    else single σ m :: joinSurrogates σ (n :: rest)
where
  single (σ : Text.StandIns) (n : Nat) : Char :=
    if Text.isSurrogate n then σ.char n else Char.ofNat n

/-- The code unit that an escape names. -/
def escapedUnit? : List Char → Option Nat
  | '\\' :: 'u' :: a :: b :: c :: d :: _ => hexQuad? a b c d
  | _ => none

/-- The character that two escapes in a row name as a pair. -/
def escapedPair? (cs : List Char) : Option Char := do
  let m ← escapedUnit? cs
  let n ← escapedUnit? (cs.drop 6)
  if IsPair m n then some (pairChar m n) else none

/-- What is named anywhere in a text. -/
def named {α : Type} (name? : List Char → Option α) : List Char → List α
  | [] => []
  | c :: rest => (name? (c :: rest)).toList ++ named name? rest

/-- Stand-ins for the surrogates that a text names, other than the characters that it holds or
names. -/
def standIns (text : List Char) : Text.StandIns :=
  .avoiding (text ++ named escapedPair? text) ((named escapedUnit? text).filter Text.isSurrogate)

/-! ## Numbers -/

structure Number where
  negative : Bool
  whole : List Char
  fraction : List Char
  exponent : Option (Bool × List Char)

namespace Number

def toJson (x : Number) : Except Flaw Json :=
  match x.fraction, x.exponent with
  | [], none =>
    if Numeral.digitLimit < x.whole.length then .error (.numeralTooLong x.whole.length)
    else
      let n : Int := Numeral.value x.whole
      .ok (.int (if x.negative then -n else n))
  | _, _ =>
    let e : Int := match x.exponent with
      | none => 0
      | some (negative, ds) => if negative then -(Numeral.value ds : Int) else Numeral.value ds
    .ok (.float (.ofDecimal x.negative (Numeral.value (x.whole ++ x.fraction))
      (e - x.fraction.length)))

end Number

/-- The integral part: no digit follows a leading zero. -/
def scanWhole : List Char → Option (List Char × List Char)
  | [] => none
  | c :: rest =>
    if c = '0' then some (['0'], rest)
    else if Numeral.isDigit c then
      some (c :: rest.takeWhile Numeral.isDigit, rest.dropWhile Numeral.isDigit)
    else none

/-- A point belongs to the numeral only if a digit follows it. -/
def scanFraction : List Char → List Char × List Char
  | '.' :: d :: rest =>
    if Numeral.isDigit d then
      (d :: rest.takeWhile Numeral.isDigit, rest.dropWhile Numeral.isDigit)
    else ([], '.' :: d :: rest)
  | cs => ([], cs)

/-- An exponent belongs to the numeral only if it has a digit. -/
def scanExponent (cs : List Char) : Option (Bool × List Char) × List Char :=
  match cs with
  | 'e' :: rest | 'E' :: rest =>
    match rest with
    | '-' :: digits => scan true digits
    | '+' :: digits => scan false digits
    | digits => scan false digits
  | _ => (none, cs)
where
  scan (negative : Bool) (digits : List Char) : Option (Bool × List Char) × List Char :=
    match digits.takeWhile Numeral.isDigit with
    | [] => (none, cs)
    | ds => (some (negative, ds), digits.dropWhile Numeral.isDigit)

def scanUnsigned (negative : Bool) (cs : List Char) : Option (Number × List Char) :=
  match scanWhole cs with
  | none => none
  | some (whole, afterWhole) =>
    let (fraction, afterFraction) := scanFraction afterWhole
    let (exponent, rest) := scanExponent afterFraction
    some (⟨negative, whole, fraction, exponent⟩, rest)

def scanNumber : List Char → Option (Number × List Char)
  | '-' :: rest => scanUnsigned true rest
  | cs => scanUnsigned false cs

/-! ## Tokens -/

def numberToken (cs : List Char) : Token × List Char :=
  match scanNumber cs with
  | none => (.flawed (.malformed .valueExpected cs), [])
  | some (x, rest) => match x.toJson with
    | .ok v => (.scalar v, rest)
    | .error flaw => (.flawed flaw, [])

/-- What remains of `cs` after `start`, if it begins so. -/
def afterPrefix? : List Char → List Char → Option (List Char)
  | [], cs => some cs
  | _ :: _, [] => none
  | p :: ps, c :: cs => if p = c then afterPrefix? ps cs else none

def keywords : List (List Char × Json) :=
  [(['n', 'u', 'l', 'l'], .null), (['t', 'r', 'u', 'e'], .bool true),
    (['f', 'a', 'l', 's', 'e'], .bool false), (['N', 'a', 'N'], .float .nan),
    (['I', 'n', 'f', 'i', 'n', 'i', 't', 'y'], .float (.infinity false)),
    (['-', 'I', 'n', 'f', 'i', 'n', 'i', 't', 'y'], .float (.infinity true))]

def keyword? (cs : List Char) : Option (Json × List Char) :=
  keywords.findSome? fun (word, v) ↦ (afterPrefix? word cs).map fun rest ↦ (v, rest)

def punctuation? : Char → Option Token
  | '\x7b' => some .openObject
  | '\x7d' => some .closeObject
  | '[' => some .openArray
  | ']' => some .closeArray
  | ',' => some .comma
  | ':' => some .colon
  | _ => none

def stringToken (σ : Text.StandIns) (quote : Char) (rest : List Char) : Token × List Char :=
  match scanString (quote :: rest) rest with
  | .ok (units, rest) => (.text (String.ofList (joinSurrogates σ units)), rest)
  | .error flaw => (.flawed flaw, [])

/-- The token at the head of a text that does not begin with white space, and the text after it.
Nothing is read on after a flaw. -/
def lex (σ : Text.StandIns) : List Char → Token × List Char
  | [] => (.flawed (.malformed .valueExpected []), [])
  | c :: rest =>
    match punctuation? c with
    | some token => (token, rest)
    | none =>
      if c = '"' then stringToken σ c rest
      else match keyword? (c :: rest) with
        | some (v, rest) => (.scalar v, rest)
        | none => numberToken (c :: rest)

end Typings.Json
