import Typings.Description
import Typings.Text.TitleCase

/-!
# Descriptions as JSON

What is absent is left out. The keys stand in a fixed order, those of a kind's own fields last, and
everything else in the order of the description. A description that was put together by hand may
hold what has no JSON form: entries of another type, and references among its data.
-/

namespace Typings.Wire

/-- Why a description has no JSON form. -/
inductive EncodeError where
  /-- Something in the endpoint tree is neither an endpoint nor a namespace. -/
  | foreign (x : Value)
  /-- A reference stands where data is expected. -/
  | reference

def EncodeError.message : EncodeError → String
  | foreign x => "'" ++ x.typeName ++ "' object has no attribute 'input'"
  | reference => "Object of type TypeRef is not JSON serializable"

def encodeValue (v : Value) : Except EncodeError Json :=
  match v.toJson? with
  | some w => .ok w
  | none => .error .reference

def textMember (key : String) : Option String → List (String × Json)
  | none => []
  | some s => [(key, .str s)]

def encodeNote (note : Note) : List (String × Json) :=
  textMember "description" note.description ++ textMember "deprecated" note.deprecated

def encodeField (f : Field) : Except EncodeError Json := do
  return .obj (("typeId", ← encodeValue f.typeId) :: encodeNote f.note)

def encodeExtra : Extra → Except EncodeError Json
  | .value v => encodeValue v
  | .typeId id => encodeValue id
  | .typeIds ids => do return .arr (← ids.mapM encodeValue)
  | .fields fields => do
    return .obj (← fields.entries.mapM fun (name, f) ↦ do return (name, ← encodeField f))

/-- A member of an object; null is left out like what is absent. -/
def presentMember (key : String) : Json → List (String × Json)
  | .null => []
  | v => [(key, v)]

def encodeType (d : Descriptor) : Except EncodeError Json := do
  let common ← CommonField.all.mapM fun f ↦ do
    return presentMember f.key (← encodeValue (d.common f))
  let own ← (d.body.slot?.toList ++ d.extras).mapM fun (name, x) ↦ do
    return presentMember (Text.camelCase name) (← encodeExtra x)
  return .obj (Assoc.ofList (("type", .str d.tag) :: (common ++ own).flatten))

def encodeEndpoint (e : Endpoint) : Except EncodeError Json := do
  return .obj ([("type", .str "Api"), ("input", .obj [("typeId", ← encodeValue e.input)]),
    ("output", .obj [("typeId", ← encodeValue e.output)])] ++ encodeNote e.note)

mutual

def encodeEntry : Entry → Except EncodeError Json
  | .endpoint e => encodeEndpoint e
  | .branch children => do
    return .obj [("type", .str "Entries"), ("entries", .obj (← encodeChildren children))]
  | .foreign x => .error (.foreign x)

def encodeChildren : List (String × Entry) → Except EncodeError (List (String × Json))
  | [] => .ok []
  | (key, e) :: rest => do
    let v ← encodeEntry e
    return (key, v) :: (← encodeChildren rest)

end

def encodeNamespace (entries : Namespace) : Except EncodeError Json :=
  encodeEntry (.branch entries)

mutual

/-- The first thing of a tree, in order, that is neither an endpoint nor a namespace. -/
def firstForeign? : Entry → Option Value
  | .endpoint _ => none
  | .branch children => firstForeignChild? children
  | .foreign x => some x

def firstForeignChild? : List (String × Entry) → Option Value
  | [] => none
  | (_, e) :: rest => (firstForeign? e).or (firstForeignChild? rest)

end

/-- The tree as a whole is looked through before any data in it or in the types. -/
def encode (d : Description) : Except EncodeError Json :=
  match firstForeignChild? d.entries with
  | some x => .error (.foreign x)
  | none => do
    let types ← d.types.entries.mapM fun (id, t) ↦ do return (id, ← encodeType t)
    return .obj [("types", .obj types), ("entries", ← encodeNamespace d.entries)]

end Typings.Wire
