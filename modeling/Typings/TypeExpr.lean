import Typings.Fault

/-!
# Type expressions

A type expression is what stands wherever a type is mentioned: as a field, a member of a composite,
an input or an output. Types with a display name and field sets are mentioned by name; every other
type is expanded in place, and so must not contain itself. Members are looked up by their text, and
a number counts as having one here, however long it is.
-/

namespace Typings

/-- The names that are chosen for a generated module. -/
structure Naming where
  /-- The type of the whole endpoint tree. -/
  apiTypeName : String := "__API__"
  /-- Field sets without a name of their own are called by this and their id. -/
  syntheticPrefix : String := "Type"
  jsonTypeName : String := "JsonType"

def Naming.synthetic (naming : Naming) (id : String) : String := naming.syntheticPrefix ++ id

inductive TypeExpr where
  | primitive (p : Primitive)
  | literal (v : Value)
  | named (name : String)
  | synthetic (id : String)
  | wrapper (w : Wrapper) (item : TypeExpr)
  | junction (j : Junction) (items : List TypeExpr)

namespace TypeExpr

/-! ## Rendering -/

/-- Texts are put between double quotes as they are. -/
def literalText : Value → String
  | .str s => "\"" ++ s ++ "\""
  | .bool b => if b then "true" else "false"
  | v => v.inspect

def primitiveText (naming : Naming) : Primitive → String
  | .any => "any"
  | .json => naming.jsonTypeName
  | .string | .id => "string"
  | .boolean => "boolean"
  | .float | .int | .number => "number"
  | .unknown => "unknown"

/-- A nullable type may be given as null or not at all, and the two stay distinct. -/
def wrapperText (w : Wrapper) (item : String) : String :=
  match w with
  | .record => "Record<string, " ++ item ++ ">"
  | .nullable => item ++ " | null | undefined"
  | .list => item ++ "[]"

def junctionText (j : Junction) (items : List String) : String :=
  match j with
  | .union => " | ".intercalate items
  | .intersect => " & ".intercalate items

mutual

def render (naming : Naming) : TypeExpr → String
  | primitive p => primitiveText naming p
  | literal v => literalText v
  | named name => name
  | synthetic id => naming.synthetic id
  | wrapper w item => wrapperText w (render naming item)
  | junction j items => junctionText j (renderItems naming items)

def renderItems (naming : Naming) : List TypeExpr → List String
  | [] => []
  | t :: rest => render naming t :: renderItems naming rest

end

/-! ## Expansion -/

/-- The registered ids that are not on a path. -/
def unvisited (r : Registry) (path : List String) : List String :=
  r.keys.filter fun id ↦ id ∉ path

theorem length_unvisited_append_lt {r : Registry} {path : List String} {id : String}
    (hid : id ∈ r.keys) (hpath : id ∉ path) :
    (unvisited r (path ++ [id])).length < (unvisited r path).length := by
  have hsplit : unvisited r (path ++ [id]) = (unvisited r path).filter (· ≠ id) := by
    simp [unvisited, List.filter_filter, not_or, and_comm]
  rw [hsplit]
  refine List.length_filter_lt_length_iff_exists.2 ⟨id, ?_, by simp⟩
  simp [unvisited, hid, hpath]

end TypeExpr

namespace Registry

open TypeExpr

/-- What is wrong with the first of some members that is known under a name that is no text. -/
def misnamed? (r : Registry) (items : List TypeId) : Option Fault :=
  items.zipIdx.findSome? fun (item, position) ↦
    match (r.find? item).bind Descriptor.nameValue with
    | none | some (.str _) => none
    | some name => some (.nameNotText position name)

/-- Expands the type registered under `id`, where `path` holds the ids whose expansion has led
here, outermost first. -/
def expandFrom (r : Registry) (path : List String) (id : String) : Except Fault TypeExpr :=
  match hd : r.get? id with
  | none => .error (.unresolved (.str id))
  | some d =>
    match d.displayName, d.body with
    | some name, _ => .ok (.named name)
    | none, .fieldSet _ _ => .ok (.synthetic id)
    | none, body =>
      if hpath : id ∈ path then .error (.cyclic (path ++ [id]))
      else
        have := length_unvisited_append_lt (Assoc.mem_keys_of_find? hd) hpath
        match body with
        | .primitive p => .ok (.primitive p)
        | .literal v => .ok (.literal v)
        | .wrapper w item => (expandFrom r (path ++ [id]) item.text).map (.wrapper w)
        | .junction j items =>
          match items.mapM (fun item ↦ expandFrom r (path ++ [id]) item.text), r.misnamed? items with
          | .error fault, _ | .ok _, some fault => .error fault
          | .ok members, none => .ok (.junction j members)
        | .fieldSet _ _ | .bare => .error (.unsupportedField d)
termination_by (unvisited r path).length

def expand (r : Registry) (id : TypeId) : Except Fault TypeExpr := r.expandFrom [] id.text

/-- What a reference to the type registered under `id` comes to: the name that the type is known
under as it is, be it a text or not, and failing that a text. -/
def resolve (r : Registry) (naming : Naming) (id : TypeId) : Except Fault Value := do
  let t ← r.expand id
  match (r.find? id).bind Descriptor.nameValue with
  | some name => return name
  | none => return .str (t.render naming)

/-- The text by which the type registered under `id` is mentioned. -/
def mention (r : Registry) (naming : Naming) (id : TypeId) : Except Fault String :=
  (r.resolve naming id).map Value.text

end Registry

end Typings
