import Typings.Layout.Scan
import Typings.Text.Margin

/-!
# Canonical layout

Every line is indented by its depth, the lines of a comment that begin with a star one more so that
the stars align, and runs of blank lines shrink to one line between others. A text that is not empty
ends in one line feed.
-/

namespace Typings.Layout

/-- The margin of a line for an indent, which may be missing. -/
def PlacedLine.margin (indent : Option Int) (l : PlacedLine) :
    Except Text.MarginError (List Char) :=
  match indent with
  | some width => Text.margin (width * l.depth)
  | none => .error .noWidth

/-- A line that holds nothing has no margin. -/
def PlacedLine.render (indent : Option Int) (l : PlacedLine) :
    Except Text.MarginError (List Char) :=
  match l.text with
  | [] => .ok []
  | '*' :: rest =>
    (l.margin indent).map (· ++ if l.inComment then ' ' :: '*' :: rest else '*' :: rest)
  | text => (l.margin indent).map (· ++ text)

/-- Drops blank lines at the end, and of several in a row all but one. -/
def squeezeBlank : List (List Char) → List (List Char)
  | [] => []
  | line :: rest =>
    match line, squeezeBlank rest with
    | [], [] => []
    | [], [] :: more => [] :: more
    | line, more => line :: more

def unlines (lines : List (List Char)) : List Char := lines.flatMap (· ++ ['\n'])

/-- Why a source has no canonical layout. -/
inductive LayoutError where
  | scan (e : ScanError)
  | margin (e : Text.MarginError)
deriving DecidableEq

/-- A source is scanned to its end before any line of it is indented. -/
def formatChars (indent : Option Int) (source : List Char) : Except LayoutError (List Char) :=
  match scan source with
  | .error e => .error (.scan e)
  | .ok lines =>
    match lines.mapM (PlacedLine.render indent) with
    | .error e => .error (.margin e)
    | .ok texts => .ok (unlines (squeezeBlank (texts.dropWhile (·.isEmpty))))

def format (indent : Option Int) (source : String) : Except LayoutError String :=
  (formatChars indent source.toList).map String.ofList

end Typings.Layout
