/-!
# Decimal numerals

Numbers as lists of decimal digits, most significant first.
-/

namespace Typings.Numeral

def digits (n : Nat) : List Char := Nat.toDigits 10 n

/-- The number that a list of decimal digits denotes; the empty list denotes zero. -/
def value (ds : List Char) : Nat := ds.foldl (fun n c ↦ 10 * n + (c.toNat - '0'.toNat)) 0

def ofInt : Int → List Char
  | .ofNat n => digits n
  | .negSucc n => '-' :: digits (n + 1)

def isDigit (c : Char) : Bool := '0' ≤ c && c ≤ '9'

/-- Digits with zeros in front up to a least width. -/
def padded (width n : Nat) : List Char :=
  let ds := digits n
  List.replicate (width - ds.length) '0' ++ ds

/-- Texts of integers stop at this many digits: a longer numeral is refused when it is read, and is
not written. -/
def digitLimit : Nat := 4300

/-- Whether an integer keeps to the limit of digits. -/
def isShort (n : Int) : Bool := (digits n.natAbs).length ≤ digitLimit

/-- That an integer has too many digits to be written. -/
def overlongMessage : String :=
  "Exceeds the limit (" ++ toString digitLimit ++
    " digits) for integer string conversion; use sys.set_int_max_str_digits() to increase the limit"

end Typings.Numeral
