/-!
# Margins

A margin is a run of blanks of a given width, nothing if the width is negative. Widths are numbers
of 64 bits. The memory that a margin takes is not counted.
-/

namespace Typings.Text

inductive MarginError where
  | outOfRange
  /-- No width is given. -/
  | noWidth
deriving DecidableEq

def MarginError.message : MarginError → String
  | outOfRange => "cannot fit 'int' into an index-sized integer"
  | noWidth => "can't multiply sequence by non-int of type 'list'"

/-- The number from which on widths are out of range, and below whose negative they are too. -/
def widthBound : Nat := 9223372036854775808

def margin (width : Int) : Except MarginError (List Char) :=
  if width < -(widthBound : Int) ∨ (widthBound : Int) ≤ width then .error .outOfRange
  else .ok (List.replicate width.toNat ' ')

end Typings.Text
