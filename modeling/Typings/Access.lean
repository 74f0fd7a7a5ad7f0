import Typings.Fault

/-!
# Access to a registry

A registry can be asked for one id in several ways, and be gone through in order. Where a key is
missing a default may take its place; all other faults are passed on. What is gone through is looked
up id by id.
-/

namespace Typings

/-- Whether a fault says that a mapping lacks a key. -/
def Fault.isMissingKey : Fault → Bool
  | .unresolved _ => true
  | _ => false

namespace Registry

def item (r : Registry) (id : TypeId) : Except Fault Descriptor := r.lookup id

/-- The type under an id, or a default if there is none. -/
def itemD (r : Registry) (id : TypeId) (default : Option Descriptor) :
    Except Fault (Option Descriptor) :=
  match r.item id with
  | .ok d => .ok (some d)
  | .error fault => if fault.isMissingKey then .ok default else .error fault

def hasItem (r : Registry) (id : TypeId) : Except Fault Bool :=
  match id.text? with
  | none => .error .overlongId
  | some key => .ok (r.contains key)

/-- All types in order, each looked up under its id. -/
def descriptors (r : Registry) : Except Fault (List Descriptor) :=
  r.keys.mapM fun id ↦ r.item (.str id)

/-- The same with their ids. -/
def items (r : Registry) : Except Fault (List (String × Descriptor)) :=
  r.keys.mapM fun id ↦ do return (id, ← r.item (.str id))

end Registry

/-- What a description can be given its types in. -/
inductive TypeSource where
  /-- A dictionary as the row of its items. -/
  | mapping (items : List (TypeId × Descriptor))
  | registry (r : Registry)

def TypeSource.pairs : TypeSource → List (TypeId × Descriptor)
  | mapping items => items
  | registry r => r.entries.map fun (id, d) ↦ (.str id, d)

namespace Description

/-- A registry is taken as it is, and one is made of a dictionary. -/
def ofTypes (types : TypeSource) (entries : Namespace) : Except IdError Description := do
  match types with
  | .mapping items => return { types := ← Registry.ofPairs items, entries }
  | .registry r => return { types := r, entries }

/-- A registry is made of either. -/
def build (types : TypeSource) (entries : Namespace) : Except IdError Description := do
  return { types := ← Registry.ofPairs types.pairs, entries }

end Description

end Typings
