import Typings.Descriptor

/-!
# The type registry

Types by the text of their id, in the order of first appearance. So `1` and `"1"` address the same
type.
-/

namespace Typings

abbrev Registry : Type := Table Descriptor

/-- Why a type cannot be entered under an id. -/
inductive IdError where
  /-- The id is, or refers to, a list or an object. -/
  | unhashable (part : Value)
  /-- The id has no text. -/
  | overlong

def IdError.message : IdError → String
  | unhashable part => "unhashable type: " ++ Text.quoted part.typeName
  | overlong => Numeral.overlongMessage

/-- An id that can be a key of a dictionary. -/
def enterable : TypeId → Except IdError TypeId
  | v@(.list _) | v@(.object _) => .error (.unhashable v)
  | .reference id => (enterable id).map .reference
  | v => .ok v

/-- A type is entered under the text of its id. -/
def entryOf (item : TypeId × Descriptor) : Except IdError (String × Descriptor) :=
  match item.1.text? with
  | some key => .ok (key, item.2)
  | none => .error .overlong

namespace Registry

/-- Pairs that were given under equal ids are one entry, which keeps the first of these ids and the
last descriptor; then ids of the same text fall together in the same way. -/
def ofPairs (pairs : List (TypeId × Descriptor)) : Except IdError Registry := do
  return Table.ofList (← (Assoc.ofListBy Value.agrees pairs).mapM entryOf)

def find? (r : Registry) (id : TypeId) : Option Descriptor := r.get? id.text

def hasJson (r : Registry) : Bool := r.values.any Descriptor.isJson

def inspect (r : Registry) : String :=
  "TypeRegistry(\x7b" ++ ", ".intercalate (r.entries.map fun (id, d) ↦
    Text.quoted id ++ ": " ++ d.inspect) ++ "\x7d)"

end Registry

end Typings
