import Typings.Declaration

/-!
# The type of an endpoint tree

A namespace becomes an object type with one member for each entry, and an endpoint a function type.
-/

namespace Typings

/-- A function from an input to the promise of an output. -/
structure Signature where
  input : TypeExpr
  output : TypeExpr

namespace Signature

def render (naming : Naming) (s : Signature) : String :=
  "(input: " ++ s.input.render naming ++ ") => Promise<" ++ s.output.render naming ++ ">"

end Signature

/-- An entry whose types are expanded. -/
inductive Surface where
  | endpoint (signature : Signature) (note : Note)
  | branch (members : List (String × Surface))

namespace Surface

mutual

def renderMember (naming : Naming) (key : String) : Surface → String
  | endpoint signature note => note.attach (key ++ ": " ++ signature.render naming)
  | branch members => key ++ ": " ++ bracedLines (renderMembers naming members)

def renderMembers (naming : Naming) : List (String × Surface) → List String
  | [] => []
  | (key, s) :: rest => renderMember naming key s :: renderMembers naming rest

end

/-- The text of a whole tree. -/
def renderTree (naming : Naming) (members : List (String × Surface)) : String :=
  bracedLines (renderMembers naming members)

end Surface

namespace Registry

/-- The input is expanded before the output. -/
def signature (r : Registry) (e : Endpoint) : Except Fault Signature := do
  return { input := ← r.expand e.input, output := ← r.expand e.output }

mutual

def surface (r : Registry) : Entry → Except Fault Surface
  | .endpoint e => do return .endpoint (← r.signature e) e.note
  | .branch children => do return .branch (← surfaces r children)
  | .foreign x => .error (.unsupportedEntry x)

/-- Entries are expanded in order, each with all that is below it. -/
def surfaces (r : Registry) : List (String × Entry) → Except Fault (List (String × Surface))
  | [] => .ok []
  | (key, e) :: rest => do
    let s ← surface r e
    return (key, s) :: (← surfaces r rest)

end

end Registry

end Typings
