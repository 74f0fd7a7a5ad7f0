import Typings.Binary64.Basic
import Typings.Numeral

/-!
# The shortest decimal that reads back

A number is written with the fewest significant digits that are read back to it; among several
such decimals the nearest is taken, and of two equally near ones the even. The search cuts the
exact decimal expansion after one, two, … seventeen digits.
-/

namespace Typings.Binary64

/-- A magnitude cut to a number of digits, in order of preference: the nearer of the two
neighbours first. -/
def cuts (exact : Nat) (e : Int) (length count : Nat) : List (Nat × Int) :=
  let unit := Nat.pow 10 (length - count)
  let e' := e + (length - count : Nat)
  let low := exact / unit
  let rest := exact % unit
  if 2 * rest < unit ∨ (2 * rest = unit ∧ low % 2 = 0) then [(low, e'), (low + 1, e')]
  else [(low + 1, e'), (low, e')]

/-- Digits and exponent of the shortest decimal for a magnitude. The exact expansion stands behind
the cuts, so that the result always reads back. -/
def shortest (rank : Nat) : Nat × Int :=
  let (exact, e) := exactDecimal rank
  let length := (Numeral.digits exact).length
  let candidates := (List.range 17).flatMap fun i ↦ cuts exact e length (i + 1)
  let readsBack := fun (d, e) ↦
    nearestRank (d * Nat.pow 10 e.toNat) (Nat.pow 10 (-e).toNat) == rank
  (candidates.find? readsBack).getD (exact, e)

/-- How numbers are spelled: the names of the special values, and the scientific exponents between
which the decimal point is placed rather than an exponent written. -/
structure Spelling where
  nan : String
  infinity : String
  leastPlaced : Int := -4
  greatestPlaced : Int := 15
  exponentWidth : Nat := 2

/-- Significant digits `ds`, the first of them standing for `10 ^ scientific`. -/
def place (ds : List Char) (scientific : Int) : List Char :=
  match scientific with
  | .negSucc k => '0' :: '.' :: (List.replicate k '0' ++ ds)
  | .ofNat k =>
    let whole := ds.take (k + 1) ++ List.replicate (k + 1 - ds.length) '0'
    match ds.drop (k + 1) with
    | [] => whole ++ ['.', '0']
    | fraction => whole ++ '.' :: fraction

def withExponent (width : Nat) (ds : List Char) (scientific : Int) : List Char :=
  let mantissa := match ds with
    | d :: fraction@(_ :: _) => d :: '.' :: fraction
    | ds => ds
  let sign := if scientific < 0 then '-' else '+'
  mantissa ++ 'e' :: sign :: Numeral.padded width scientific.natAbs

/-- Zeros at the end of the significant digits carry no value. -/
def trimZeros (ds : List Char) : List Char :=
  (ds.reverse.dropWhile (· == '0')).reverse

def magnitudeText (spelling : Spelling) (rank : Nat) : List Char :=
  if rank = 0 then ['0', '.', '0']
  else
    let (d, e) := shortest rank
    let ds := Numeral.digits d
    let scientific := e + ds.length - 1
    if spelling.leastPlaced ≤ scientific ∧ scientific ≤ spelling.greatestPlaced then
      place (trimZeros ds) scientific
    else withExponent spelling.exponentWidth (trimZeros ds) scientific

def text (spelling : Spelling) : Binary64 → List Char
  | nan => spelling.nan.toList
  | infinity negative => signed negative spelling.infinity.toList
  | finite negative rank => signed negative (magnitudeText spelling rank)
where
  signed (negative : Bool) (cs : List Char) : List Char := if negative then '-' :: cs else cs

end Typings.Binary64
