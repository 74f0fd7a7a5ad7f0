import Typings.Value

/-!
# Limits of time

A run of a program may be limited to a number of seconds. A limit must be one that can be waited
for: it is held as a floating point number, waited for in milliseconds of 32 bits, and measured by a
clock that counts nanoseconds in 64 bits.
-/

namespace Typings

inductive Seconds where
  | whole (n : Int)
  | decimal (x : Binary64)

/-- Why a limit cannot be waited for. -/
inductive LimitError where
  | notANumber
  | infinite
  | beyondFloats
  | beyondClock
  | beyondWait
deriving DecidableEq

def LimitError.message : LimitError → String
  | notANumber => "cannot convert float NaN to integer"
  | infinite => "cannot convert float infinity to integer"
  | beyondFloats => "int too large to convert to float"
  | beyondClock => "timestamp too large to convert to C _PyTime_t"
  | beyondWait => "timeout is too large"

namespace Seconds

def text : Seconds → String
  | whole n => (Value.int n).text
  | decimal x => (Value.float x).text

/-- The least integer that is rounded to infinity. -/
def infinityBound : Nat := Nat.pow 2 1024 - Nat.pow 2 970

/-- The milliseconds that a clock can hold. -/
def clockBound : Nat := 9223372036854

/-- The milliseconds that can be waited for. -/
def waitBound : Nat := 2147483647

/-- What is wrong with a number of milliseconds over a denominator. -/
def excess? (milliseconds : Int) (den : Nat) : Option LimitError :=
  if (infinityBound * den : Nat) ≤ milliseconds then some .infinite
  else if (clockBound * den : Nat) < milliseconds then some .beyondClock
  else if (waitBound * den : Nat) < milliseconds then some .beyondWait
  else none

/-- What is wrong with a limit. One in the past is not waited for, and so never wrong. -/
def error? : Seconds → Option LimitError
  | whole n => if infinityBound ≤ n.natAbs then some .beyondFloats else excess? (n * 1000) 1
  | decimal .nan => some .notANumber
  | decimal (.infinity negative) => if negative then none else some .infinite
  | decimal (.finite negative rank) =>
    excess? (Binary64.scaled negative rank * 1000) (Nat.pow 2 1074)

/-- Whether a time in nanoseconds reaches a limit. -/
def isReached (elapsed : Nat) : Seconds → Bool
  | whole n => n * 1000000000 ≤ (elapsed : Int)
  | decimal (.finite negative rank) =>
    Binary64.scaled negative rank * 1000000000 ≤ (elapsed : Int) * (Nat.pow 2 1074 : Nat)
  | decimal (.infinity negative) => negative
  | decimal .nan => false

end Seconds

end Typings
