import Typings.Kind
import Typings.Value

/-!
# Type descriptors

A descriptor never holds another descriptor: it names other types by id. An id may be any value, and
addresses the type registered under its text.
-/

namespace Typings

abbrev TypeId : Type := Value

/-- Documentation: a description and a deprecation notice. -/
structure Note where
  description : Option String
  deprecated : Option String
deriving DecidableEq

def Note.none : Note := ⟨.none, .none⟩

/-- A field of a field set. -/
structure Field where
  typeId : TypeId
  note : Note

/-- What a descriptor carries by the built-in kind it descends from; `bare` if from none. -/
inductive Body where
  | primitive (p : Primitive)
  | literal (value : Value)
  | wrapper (w : Wrapper) (item : TypeId)
  | junction (j : Junction) (items : List TypeId)
  | fieldSet (f : FieldSet) (fields : Table Field)
  | bare

/-- The value of a field that a kind adds. -/
inductive Extra where
  | value (v : Value)
  | typeId (id : TypeId)
  | typeIds (ids : List TypeId)
  | fields (fields : Table Field)

/-- A description of a type. The common fields that its kind opens are in `opened`; the others are
the name and the note. -/
structure Descriptor where
  tag : String
  label : String
  name : Option String
  note : Note
  opened : List (CommonField × Value)
  body : Body
  extras : List (String × Extra)

namespace Body

def builtin? : Body → Option Builtin
  | primitive p => some (.primitive p)
  | literal _ => some .literal
  | wrapper w _ => some (.wrapper w)
  | junction j _ => some (.junction j)
  | fieldSet f _ => some (.fieldSet f)
  | bare => none

/-- The field that a body is held in, and its value. -/
def slot? : Body → Option (String × Extra)
  | primitive _ => none
  | literal v => some ("value", .value v)
  | wrapper _ item => some ("item_type_id", .typeId item)
  | junction _ items => some ("item_type_ids", .typeIds items)
  | fieldSet _ fields => some ("fields", .fields fields)
  | bare => none

end Body

namespace Descriptor

/-- A descriptor of a built-in kind. -/
def ofBody (b : Builtin) (name : Option String) (note : Note) (body : Body) : Descriptor :=
  { tag := b.tag, label := b.label, name, note, opened := [], body, extras := [] }

/-- The value of a common field; null if it is missing. -/
def common (d : Descriptor) (f : CommonField) : Value :=
  match Assoc.find? f d.opened with
  | some v => v
  | none =>
    match f with
    | .name => .ofText d.name
    | .description => .ofText d.note.description
    | .deprecated => .ofText d.note.deprecated

/-- The name of a type as its kind has it, which need not be a text; a void one is none. -/
def nameValue (d : Descriptor) : Option Value :=
  let v := d.common .name
  if v.isVoid then none else some v

/-- The name under which a type is known. -/
def displayName (d : Descriptor) : Option String := d.nameValue.map Value.text

/-- Whether a type is written in place rather than declared. -/
def isInline (d : Descriptor) : Bool :=
  match d.body with
  | .fieldSet _ _ | .bare => false
  | _ => true

def isJson (d : Descriptor) : Bool :=
  match d.body with
  | .primitive .json => true
  | _ => false

end Descriptor

/-! ## Descriptors in messages -/

namespace Descriptor

def call (label : String) (arguments : List String) : String :=
  label ++ "(" ++ ", ".intercalate arguments ++ ")"

def inspectText (key : String) (text : Option String) : String :=
  key ++ "=" ++ (Value.ofText text).inspect

def inspectNote (note : Note) : List String :=
  [inspectText "description" note.description, inspectText "deprecated" note.deprecated]

def inspectField (f : Field) : String :=
  call "FieldDef" (("type_id=" ++ f.typeId.inspect) :: inspectNote f.note)

def inspectFields (fields : Table Field) : String :=
  "\x7b" ++ ", ".intercalate (fields.entries.map fun (k, f) ↦
    Text.quoted k ++ ": " ++ inspectField f) ++ "\x7d"

/-- Lists of ids stand in round brackets, a single one with a comma after it. -/
def inspectIds : List TypeId → String
  | [id] => "(" ++ id.inspect ++ ",)"
  | ids => "(" ++ ", ".intercalate (ids.map Value.inspect) ++ ")"

def inspectExtra : Extra → String
  | .value v => v.inspect
  | .typeId id => id.inspect
  | .typeIds ids => inspectIds ids
  | .fields fields => inspectFields fields

def inspect (d : Descriptor) : String :=
  call d.label ((CommonField.all.map fun f ↦ f.key ++ "=" ++ (d.common f).inspect) ++
    (d.body.slot?.toList ++ d.extras).map fun (k, x) ↦ k ++ "=" ++ inspectExtra x)

end Descriptor

/-! ## Equality of meaning -/

namespace Descriptor

def agreesField (f g : Field) : Bool := f.typeId.agrees g.typeId && f.note == g.note

/-- Tables agree as maps, whatever their order. -/
def agreesTable {ν : Type} (agrees : ν → ν → Bool) (t u : Table ν) : Bool :=
  t.size == u.size && t.entries.all fun (k, v) ↦
    match u.get? k with
    | some w => agrees v w
    | none => false

def agreesExtra : Extra → Extra → Bool
  | .value v, .value w => v.agrees w
  | .typeId v, .typeId w => v.agrees w
  | .typeIds vs, .typeIds ws => Value.agreesItems vs ws
  | .fields t, .fields u => agreesTable agreesField t u
  | _, _ => false

def agreesExtras : List (String × Extra) → List (String × Extra) → Bool
  | [], [] => true
  | (k, x) :: xs, (l, y) :: ys => k == l && agreesExtra x y && agreesExtras xs ys
  | _, _ => false

def agrees (d e : Descriptor) : Bool :=
  d.tag == e.tag && d.label == e.label &&
    CommonField.all.all (fun f ↦ (d.common f).agrees (e.common f)) &&
    agreesExtras (d.body.slot?.toList ++ d.extras) (e.body.slot?.toList ++ e.extras)

end Descriptor

end Typings
