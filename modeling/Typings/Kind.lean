import Typings.Table
import Typings.Text.Quoted

/-!
# Kinds of types

Every descriptor belongs to a kind, which is found by its tag on the wire. The built-in kinds are
grouped by what they carry besides a name and documentation: nothing, a value, the id of one other
type, a list of ids, or a set of fields. Further kinds can be defined on top of any kind or of none;
they carry more fields, or open the common ones to any value, and otherwise count as the built-in
kind that they descend from.
-/

namespace Typings

inductive Primitive where
  | any
  | json
  | string
  | boolean
  | float
  | id
  | int
  | number
  | unknown
deriving DecidableEq

/-- Kinds over one item type. -/
inductive Wrapper where
  | record
  | nullable
  | list
deriving DecidableEq

/-- Kinds over any number of member types. -/
inductive Junction where
  | union
  | intersect
deriving DecidableEq

inductive FieldSet where
  | object
  | struct
deriving DecidableEq

inductive Builtin where
  | primitive (p : Primitive)
  | literal
  | wrapper (w : Wrapper)
  | junction (j : Junction)
  | fieldSet (f : FieldSet)
deriving DecidableEq

namespace Builtin

def all : List Builtin :=
  [.primitive .any, .primitive .json, .primitive .string, .primitive .boolean, .primitive .float,
    .primitive .id, .primitive .int, .primitive .number, .primitive .unknown, .literal,
    .wrapper .record, .wrapper .nullable, .wrapper .list, .junction .union, .junction .intersect,
    .fieldSet .object, .fieldSet .struct]

def tag : Builtin → String
  | primitive .any => "Any"
  | primitive .json => "JSON"
  | primitive .string => "String"
  | primitive .boolean => "Boolean"
  | primitive .float => "Float"
  | primitive .id => "ID"
  | primitive .int => "Int"
  | primitive .number => "Number"
  | primitive .unknown => "Unknown"
  | literal => "Literal"
  | wrapper .record => "Record"
  | wrapper .nullable => "Nullable"
  | wrapper .list => "List"
  | junction .union => "Union"
  | junction .intersect => "Intersect"
  | fieldSet .object => "Object"
  | fieldSet .struct => "Struct"

def label (b : Builtin) : String := b.tag ++ "Type"

/-- The name of the field that a kind has of its own. -/
def slot? : Builtin → Option String
  | primitive _ => none
  | literal => some "value"
  | wrapper _ => some "item_type_id"
  | junction _ => some "item_type_ids"
  | fieldSet _ => some "fields"

end Builtin

/-- The fields that every kind has. They are optional texts unless a kind opens them: then they hold
any value. -/
inductive CommonField where
  | name
  | description
  | deprecated
deriving DecidableEq

namespace CommonField

def all : List CommonField := [name, description, deprecated]

def key : CommonField → String
  | name => "name"
  | description => "description"
  | deprecated => "deprecated"

def ofKey? (key : String) : Option CommonField := all.find? fun f ↦ f.key = key

end CommonField

/-- A kind: its tag on the wire, the label under which messages show it, the module that it is
defined in, the built-in kind it descends from, the common fields that it opens, and the names of
the fields it has beyond all that. -/
structure Kind where
  tag : String
  label : String
  home : String
  base : Option Builtin
  opened : List CommonField
  extras : List String
deriving DecidableEq

namespace Kind

def ofBuiltin (b : Builtin) : Kind :=
  { tag := b.tag, label := b.label, home := "apicodegen.types", base := some b, opened := []
    extras := [] }

def opens (k : Kind) (f : CommonField) : Bool := f ∈ k.opened

/-- The names of the fields that are not common, in order. -/
def ownFields (k : Kind) : List String := (k.base.bind Builtin.slot?).toList ++ k.extras

/-- A field of this name can be declared but not filled: it is taken by the tag of the kind. -/
def tagField : String := "tag"

/-- Whether there are descriptors of a kind. -/
def isInhabited (k : Kind) : Bool := tagField ∉ k.extras

/-- The first field that is required although one before it may be left out, which goes for open
common fields and for a field `tag`. -/
def requiredAfterOptional? (k : Kind) : Option String :=
  let isRequired (field : String) : Bool := field != tagField
  match k.opened with
  | [] => (k.ownFields.dropWhile isRequired).find? isRequired
  | _ :: _ => k.ownFields.find? isRequired

/-- A common field becomes open, and any other field is added unless it is there. -/
def addField (k : Kind) (field : String) : Kind :=
  match CommonField.ofKey? field with
  | some f => if f ∈ k.opened then k else { k with opened := k.opened ++ [f] }
  | none => if field ∈ k.ownFields then k else { k with extras := k.extras ++ [field] }

end Kind

/-- Why there is no descriptor of a kind that has a field `tag`. -/
structure UninhabitedError where
  kind : Kind
deriving DecidableEq

def UninhabitedError.message (e : UninhabitedError) : String :=
  "property 'tag' of " ++ Text.quoted e.kind.label ++ " object has no setter"

/-- What is said when a kind is defined. -/
structure KindDefinition where
  label : String
  home : String
  tag : Option String
  parent : Option Kind
  fields : List String

namespace KindDefinition

/-- The label without one `Type` at its end. -/
def defaultTag (label : String) : String :=
  if "Type".toList.isSuffixOf label.toList then
    String.ofList (label.toList.take (label.toList.length - 4))
  else label

def effectiveTag (d : KindDefinition) : String :=
  match d.tag with
  | some tag => if tag = "" then defaultTag d.label else tag
  | none => defaultTag d.label

/-- The kind that is defined: the parent under a new tag and label, with the fields added. -/
def kind (d : KindDefinition) : Kind :=
  d.fields.foldl Kind.addField
    { tag := d.effectiveTag
      label := d.label
      home := d.home
      base := d.parent.bind Kind.base
      opened := (d.parent.map Kind.opened).getD []
      extras := (d.parent.map Kind.extras).getD [] }

end KindDefinition

/-- The kinds that are defined, by tag. -/
abbrev Catalog : Type := Table Kind

/-- Why a definition is refused. -/
inductive DefinitionError where
  /-- The tag belongs to a kind already. -/
  | tagTaken (holder : Kind)
  /-- No field that is required can come after one that may be left out. -/
  | requiredAfterOptional (field : String)
deriving DecidableEq

def DefinitionError.message : DefinitionError → String
  | tagTaken holder =>
    "Tag '" ++ holder.tag ++ "' already registered to <class '" ++ holder.home ++ "." ++
      holder.label ++ "'>. Choose a different tag."
  | requiredAfterOptional field =>
    "non-default argument " ++ Text.quoted field ++ " follows default argument"

namespace Catalog

def builtin : Catalog := Table.ofList (Builtin.all.map fun b ↦ (b.tag, Kind.ofBuiltin b))

def define (c : Catalog) (d : KindDefinition) : Except DefinitionError Catalog :=
  match d.kind.requiredAfterOptional?, c.get? d.effectiveTag with
  | some field, _ => .error (.requiredAfterOptional field)
  | none, some holder => .error (.tagTaken holder)
  | none, none => .ok (c.insert d.effectiveTag d.kind)

end Catalog

end Typings
