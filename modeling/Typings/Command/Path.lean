/-!
# Paths

A path is relative or begins at a root, and names its components outermost first. Empty components
and single dots are dropped when it is read; double dots stay. Exactly two slashes at the beginning
are a root of their own.
-/

namespace Typings.Command

structure Path where
  root : String
  components : List String
deriving DecidableEq

namespace Path

def ofText (text : String) : Path :=
  let pieces := (text.toList.splitOn '/').map String.ofList
  let root :=
    match text.toList.takeWhile (· == '/') with
    | [] => ""
    | [_, _] => "//"
    | _ => "/"
  { root, components := pieces.filter fun c ↦ c ≠ "" ∧ c ≠ "." }

def text (p : Path) : String :=
  match p.root ++ "/".intercalate p.components with
  | "" => "."
  | text => text

def parent (p : Path) : Path := { p with components := p.components.dropLast }

/-- No path can be opened that holds the null character. -/
def hasNull (p : Path) : Bool := p.components.any fun c ↦ '\x00' ∈ c.toList

end Path

end Typings.Command
