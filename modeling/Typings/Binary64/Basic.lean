/-!
# Binary floating point numbers of 64 bits

The finite magnitudes are numbered in increasing order, `0` for zero, and a number is a sign with
such a rank. The ranks below `2 ^ 52` are the subnormal multiples of `2 ^ (-1074)`; each further
run of `2 ^ 52` ranks is a binade, so that rounding up to the next binade needs no case of its own.
Reading a rational number rounds it to the nearest magnitude, a tie to the even rank.
-/

namespace Typings

/-- The number of magnitudes in a binade. -/
def Binary64.binadeSize : Nat := Nat.pow 2 52

/-- The number of finite magnitudes. -/
def Binary64.finiteCount : Nat := 2047 * binadeSize

inductive Binary64 where
  | nan
  | infinity (negative : Bool)
  | finite (negative : Bool) (rank : Fin Binary64.finiteCount)
deriving DecidableEq

namespace Binary64

/-- The magnitude of a rank is `significand rank * 2 ^ (exponent rank)`. -/
def significand (rank : Nat) : Nat :=
  if rank < binadeSize then rank else binadeSize + rank % binadeSize

def exponent (rank : Nat) : Int :=
  if rank < binadeSize then -1074 else (rank / binadeSize : Nat) - 1075

/-- The magnitude of a rank as `digits * 10 ^ e`, without rounding. -/
def exactDecimal (rank : Nat) : Nat × Int :=
  let m := significand rank
  match exponent rank with
  | .ofNat e => (m * Nat.pow 2 e, 0)
  | .negSucc e => (m * Nat.pow 5 (e + 1), .negSucc e)

/-- The quotient rounded to the nearest natural number, a tie to the even one. -/
def divHalfEven (n d : Nat) : Nat :=
  let q := n / d
  let r := n % d
  if 2 * r < d then q else if d < 2 * r then q + 1 else q + q % 2

/-- The rank nearest to `num / den`. Ranks from `finiteCount` on lie beyond the largest
magnitude. -/
def nearestRank (num den : Nat) : Nat :=
  let n := num * Nat.pow 2 1074
  let binade := (n / den).log2 - 52
  binade * binadeSize + divHalfEven n (den * Nat.pow 2 binade)

def ofRatio (negative : Bool) (num den : Nat) : Binary64 :=
  let rank := nearestRank num den
  if h : rank < finiteCount then finite negative ⟨rank, h⟩ else infinity negative

def zero (negative : Bool) : Binary64 := finite negative ⟨0, by decide⟩

/-- The number nearest to `digits * 10 ^ e`. Exponents so large or small that the outcome does not
depend on the digits are decided without forming the power. -/
def ofDecimal (negative : Bool) (digits : Nat) (e : Int) : Binary64 :=
  if digits = 0 then zero negative
  else if 400 < e then infinity negative
  else if e < -(400 + digits.log2 : Nat) then zero negative
  else match e with
    | .ofNat e => ofRatio negative (digits * Nat.pow 10 e) 1
    | .negSucc e => ofRatio negative digits (Nat.pow 10 (e + 1))

def isFinite : Binary64 → Bool
  | finite _ _ => true
  | _ => false

/-- The value of a finite number over the common denominator `2 ^ 1074`. -/
def scaled (negative : Bool) (rank : Nat) : Int :=
  let magnitude : Int := (significand rank * Nat.pow 2 (exponent rank + 1074).toNat : Nat)
  if negative then -magnitude else magnitude

/-- Equality of values: zeros are equal whatever their sign, and `nan` equals nothing. -/
def sameValue : Binary64 → Binary64 → Bool
  | finite s m, finite t n => scaled s m == scaled t n
  | infinity s, infinity t => s == t
  | _, _ => false

/-- Whether a number is exactly the given integer. -/
def isInt (x : Binary64) (n : Int) : Bool :=
  match x with
  | finite s m => scaled s m == n * (Nat.pow 2 1074 : Nat)
  | _ => false

end Binary64

end Typings
