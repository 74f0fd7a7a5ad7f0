import Typings.Description
import Typings.Text.TitleCase
import Typings.Wire.Error

/-!
# Descriptions from JSON

Types are found by tag in the catalog of kinds. Keys that are not asked for are ignored, ids may be
any value that has a text and are kept as that text, and optional texts may be absent or null.
-/

namespace Typings.Wire

def asObject (site : Site) : Json → Except Error (List (String × Json))
  | .obj members => .ok members
  | v => .error ⟨site, .notObject v⟩

def require (site : Site) (members : List (String × Json)) (key : String) : Except Error Json :=
  match Assoc.find? key members with
  | some v => .ok v
  | none => .error ⟨site, .missing key⟩

def optionalText (site : Site) (members : List (String × Json)) (key : String) :
    Except Error (Option String) :=
  match Assoc.find? key members with
  | none | some .null => .ok none
  | some (.str s) => .ok (some s)
  | some v => .error ⟨site, .notString key v⟩

def decodeNote (site : Site) (members : List (String × Json)) : Except Error Note := do
  return { description := ← optionalText site members "description"
           deprecated := ← optionalText site members "deprecated" }

/-! ## Types -/

/-- An id is kept as its text. -/
def normalId (site : Site) (v : Json) : Except Error TypeId :=
  match v.text? with
  | some s => .ok (.str s)
  | none => .error ⟨site, .overlongId⟩

def decodeField (id name : String) (v : Json) : Except Error Field := do
  let site := Site.field id name
  let members ← asObject site v
  let typeId ← normalId site (← require site members "typeId")
  return { typeId, note := ← decodeNote site members }

def decodeFieldList (id : String) : List (String × Json) → Except Error (List (String × Field))
  | [] => .ok []
  | (name, v) :: rest => do
    let field ← decodeField id name v
    return (name, field) :: (← decodeFieldList id rest)

def decodeFields (id : String) (members : List (String × Json)) : Except Error (Table Field) := do
  match ← require (.type id) members "fields" with
  | .obj fields => return Table.ofList (← decodeFieldList id fields)
  | _ => .error ⟨.type id, .memberNotObject "fields"⟩

def decodeTypeIds (id : String) (members : List (String × Json)) : Except Error (List TypeId) := do
  match ← require (.type id) members "itemTypeIds" with
  | .arr items => items.mapM (normalId (.type id))
  | _ => .error ⟨.type id, .memberNotList "itemTypeIds"⟩

def decodeTypeId (id : String) (members : List (String × Json)) : Except Error TypeId := do
  normalId (.type id) (← require (.type id) members "itemTypeId")

/-- Literals are texts, truth values and finite numbers. -/
def decodeLiteral (id : String) (members : List (String × Json)) : Except Error Value := do
  match ← require (.type id) members "value" with
  | .float x => if x.isFinite then return .float x else .error ⟨.type id, .notFinite (.float x)⟩
  | .str s => return .str s
  | .int n => return .int n
  | .bool b => return .bool b
  | v => .error ⟨.type id, .notLiteral v⟩

def decodeBody (id : String) (members : List (String × Json)) :
    Option Builtin → Except Error Body
  | none => .ok .bare
  | some (.primitive p) => .ok (.primitive p)
  | some .literal => do return .literal (← decodeLiteral id members)
  | some (.wrapper w) => do return .wrapper w (← decodeTypeId id members)
  | some (.junction j) => do return .junction j (← decodeTypeIds id members)
  | some (.fieldSet f) => do return .fieldSet f (← decodeFields id members)

/-- A common field as it is read: a text that may be missing, or any value if the kind opens the
field. -/
inductive Common where
  | text (s : Option String)
  | value (v : Value)

namespace Common

def text? : Common → Option String
  | text s => s
  | value _ => none

def value? : Common → Option Value
  | text _ => none
  | value v => some v

end Common

/-- A common field that a kind opens must be there. -/
def decodeCommon (kind : Kind) (site : Site) (members : List (String × Json)) (f : CommonField) :
    Except Error Common :=
  if kind.opens f then do return .value (.ofJson (← require site members f.key))
  else do return .text (← optionalText site members f.key)

/-- A field that a kind adds is read by its name: the names of the built-in kinds' own fields mean
the same as there, and under any other name any value is kept as it is. -/
def decodeExtra (id : String) (members : List (String × Json)) (name : String) :
    Except Error Extra :=
  if name = "fields" then do return .fields (← decodeFields id members)
  else if name = "item_type_ids" then do return .typeIds (← decodeTypeIds id members)
  else if name = "item_type_id" then do return .typeId (← decodeTypeId id members)
  else if name = "value" then do return .value (← decodeLiteral id members)
  else do return .value (.ofJson (← require (.type id) members (Text.camelCase name)))

def decodeExtras (id : String) (members : List (String × Json)) :
    List String → Except Error (List (String × Extra))
  | [] => .ok []
  | name :: rest => do
    let extra ← decodeExtra id members name
    return (name, extra) :: (← decodeExtras id members rest)

def decodeType (catalog : Catalog) (id : String) (v : Json) : Except Error Descriptor := do
  let site := Site.type id
  let members ← asObject site v
  match ← require site members "type" with
  | .str tag =>
    match catalog.get? tag with
    | none => .error ⟨site, .unknownType tag⟩
    | some kind => do
      let name ← decodeCommon kind site members .name
      let description ← decodeCommon kind site members .description
      let deprecated ← decodeCommon kind site members .deprecated
      let body ← decodeBody id members kind.base
      let extras ← decodeExtras id members kind.extras
      let opened := [(.name, name), (.description, description), (.deprecated, deprecated)]
      if !kind.isInhabited then .error ⟨site, .uninhabited ⟨kind⟩⟩ else return {
        tag := kind.tag
        label := kind.label
        name := name.text?
        note := ⟨description.text?, deprecated.text?⟩
        opened := opened.filterMap fun (f, common) ↦ common.value?.map fun v ↦ (f, v)
        body
        extras }
  | v => .error ⟨site, .notString "type" v⟩

def decodeTypes (catalog : Catalog) :
    List (String × Json) → Except Error (List (String × Descriptor))
  | [] => .ok []
  | (id, v) :: rest => do
    let d ← decodeType catalog id v
    return (id, d) :: (← decodeTypes catalog rest)

/-! ## Entries -/

/-- The id within a reference, which is an object. -/
def decodeReference (site : Site) (members : List (String × Json)) (key : String) :
    Except Error TypeId := do
  let reference ← asObject site (← require site members key)
  normalId site (← require site reference "typeId")

def decodeEndpoint (site : Site) (members : List (String × Json)) : Except Error Endpoint := do
  return { input := ← decodeReference site members "input"
           output := ← decodeReference site members "output"
           note := ← decodeNote site members }

mutual

/-- The value at `path` below `root`: an endpoint or, again, a namespace. -/
def decodeEntry (root : String) (path : List String) : Json → Except Error Entry
  | .obj members => do
    let site := Site.entry root path
    match ← require site members "type" with
    | .str "Api" => return .endpoint (← decodeEndpoint site members)
    | .str "Entries" => return .branch (← decodeMembers root path members)
    | tag => .error ⟨site, .unknownEntry tag⟩
  | v => .error ⟨.entry root path, .notObject v⟩

/-- The namespace under `entries`, the first member of that name. -/
def decodeMembers (root : String) (path : List String) :
    List (String × Json) → Except Error (List (String × Entry))
  | [] => .error ⟨.entry root path, .missing "entries"⟩
  | (key, v) :: rest =>
    if key = "entries" then
      match v with
      | .obj children => decodeChildren root path children
      | _ => .error ⟨.entry root path, .memberNotObject "entries"⟩
    else decodeMembers root path rest

def decodeChildren (root : String) (path : List String) :
    List (String × Json) → Except Error (List (String × Entry))
  | [] => .ok []
  | (key, v) :: rest => do
    let e ← decodeEntry root (path ++ [key]) v
    return (key, e) :: (← decodeChildren root path rest)

end

def decodeNamespace (root : String) (v : Json) : Except Error Namespace := do
  let members ← asObject (.entry root []) v
  return Assoc.ofList (← decodeMembers root [] members)

/-! ## Descriptions -/

def decode (catalog : Catalog) (v : Json) : Except Error Description := do
  let members ← asObject .description v
  match ← require .description members "types" with
  | .obj types =>
    let types := Table.ofList (← decodeTypes catalog types)
    let entries ← decodeNamespace "entries" (← require .description members "entries")
    return { types, entries }
  | _ => .error ⟨.description, .memberNotObject "types"⟩

end Typings.Wire
