import Typings.Comment
import Typings.TypeExpr

/-!
# Declarations

Each field set of the registry is declared: exported under its display name if it has one, privately
under a name made from its id otherwise. No display name is exported twice.
-/

namespace Typings

/-- A field of a declaration. -/
structure Member where
  key : String
  type : TypeExpr
  note : Note

/-- A declared field set. The tag and the id are those of the type that it declares. -/
structure Declaration where
  id : String
  tag : String
  exportName : Option String
  members : List Member
  note : Note

/-- Lines within braces. -/
def bracedLines (lines : List String) : String :=
  match lines with
  | [] => "\x7b\x7d"
  | _ => "\x7b\n" ++ "\n".intercalate lines ++ "\n\x7d"

namespace Member

def render (naming : Naming) (m : Member) : String :=
  m.note.attach (m.key ++ ": " ++ m.type.render naming)

end Member

namespace Declaration

def name (naming : Naming) (d : Declaration) : String :=
  d.exportName.getD (naming.synthetic d.id)

def render (naming : Naming) (d : Declaration) : String :=
  let keyword := if d.exportName.isSome then "export type " else "type "
  d.note.attach
    (keyword ++ d.name naming ++ " = " ++ bracedLines (d.members.map (Member.render naming)))

end Declaration

/-- The display names that have been exported, in the order in which they were claimed. -/
structure Exports where
  names : List String

namespace Exports

def empty : Exports := ⟨[]⟩

def contains (names : Exports) (name : String) : Bool := name ∈ names.names

def size (names : Exports) : Nat := names.names.length

def claim (names : Exports) (name : String) : Except Fault Exports :=
  if names.contains name then .error (.duplicateName name) else .ok ⟨names.names ++ [name]⟩

end Exports

namespace Registry

/-- The declaration of a type under an id, whoever else has its name; none if the type is written in
place. -/
def declare (r : Registry) (id : String) (d : Descriptor) : Except Fault (Option Declaration) :=
  match d.body with
  | .fieldSet _ fields => do
    let members ← fields.entries.mapM fun (key, field) ↦ do
      return { key, type := ← r.expand field.typeId, note := field.note : Member }
    return some { id, tag := d.tag, exportName := d.displayName, members, note := d.note }
  | .bare => .error (.unsupportedDeclaration d)
  | _ => .ok none

/-- Declares a type and claims its display name. Nothing is claimed unless all of it succeeds. -/
def emit (r : Registry) (names : Exports) (id : String) (d : Descriptor) :
    Except Fault (Option Declaration × Exports) := do
  match ← r.declare id d with
  | none => return (none, names)
  | some declaration =>
    match declaration.exportName with
    | none => return (some declaration, names)
    | some name => return (some declaration, ← names.claim name)

end Registry

/-- What came of declaring a run of types: the declarations and claimed names up to the first fault,
and that fault. -/
structure Emission where
  declarations : List Declaration
  names : Exports
  fault : Option Fault

namespace Registry

def emitList (r : Registry) (names : Exports) : List (String × Descriptor) → Emission
  | [] => ⟨[], names, none⟩
  | (id, d) :: rest =>
    match r.emit names id d with
    | .error fault => ⟨[], names, some fault⟩
    | .ok (declaration, names) =>
      let later := emitList r names rest
      { later with declarations := declaration.toList ++ later.declarations }

/-- Declares every type, in order. -/
def emitAll (r : Registry) (names : Exports) : Emission := r.emitList names r.entries

end Registry

def Emission.toExcept (e : Emission) : Except Fault (List Declaration) :=
  match e.fault with
  | some fault => .error fault
  | none => .ok e.declarations

end Typings
