import Typings.Description

/-!
# Why nothing can be generated
-/

namespace Typings

inductive Fault where
  | unresolved (id : TypeId)
  | unsupportedField (d : Descriptor)
  | unsupportedDeclaration (d : Descriptor)
  | unsupportedEntry (x : Value)
  /-- Two declarations would be exported under one name. -/
  | duplicateName (name : String)
  /-- A type written in place contains itself; the path leads from it back to it. -/
  | cyclic (path : List String)
  /-- The member at a position of a composite is known under a name that is no text. -/
  | nameNotText (position : Nat) (name : Value)
  /-- An id has no text. -/
  | overlongId

def Fault.message : Fault → String
  | unresolved id => "Type id " ++ id.inspect ++ " is not present in the registry"
  | unsupportedField d => "Unsupported field type: " ++ d.inspect
  | unsupportedDeclaration d => "Unsupported declaration type: " ++ d.inspect
  | unsupportedEntry x => "Unsupported entry type: " ++ x.inspect
  | duplicateName name => "Duplicate Object Type name: " ++ name
  | cyclic path => "Cyclic inline type reference: " ++ " -> ".intercalate path
  | nameNotText position name =>
    "sequence item " ++ toString position ++ ": expected str instance, " ++ name.typeName ++
      " found"
  | overlongId => Numeral.overlongMessage

/-- An id is looked up by its text. -/
def Registry.lookup (r : Registry) (id : TypeId) : Except Fault Descriptor :=
  match id.text? with
  | none => .error .overlongId
  | some key =>
    match r.get? key with
    | some d => .ok d
    | none => .error (.unresolved id)

end Typings
