import Typings.Registry

/-!
# API descriptions

An API is a tree of namespaces whose leaves are endpoints, together with the types that the
endpoints refer to. A tree that was put together by hand may hold things that are neither; these
are refused when the tree is written.
-/

namespace Typings

/-- A callable operation: one input, one output. -/
structure Endpoint where
  input : TypeId
  output : TypeId
  note : Note

inductive Entry where
  | endpoint (e : Endpoint)
  | branch (children : List (String × Entry))
  | foreign (x : Value)

/-- The entries of one level by key, each key occurring once. -/
abbrev Namespace : Type := List (String × Entry)

structure Description where
  types : Registry
  entries : Namespace

/-! ## Descriptions in messages -/

def Endpoint.inspect (e : Endpoint) : String :=
  Descriptor.call "Endpoint" (("input=" ++ (Value.reference e.input).inspect) ::
    ("output=" ++ (Value.reference e.output).inspect) :: Descriptor.inspectNote e.note)

mutual

def Entry.inspect : Entry → String
  | .endpoint e => e.inspect
  | .branch children =>
    "Namespace(entries=\x7b" ++ ", ".intercalate (Entry.inspectChildren children) ++ "\x7d)"
  | .foreign x => x.inspect

def Entry.inspectChildren : List (String × Entry) → List String
  | [] => []
  | (k, e) :: rest => (Text.quoted k ++ ": " ++ e.inspect) :: Entry.inspectChildren rest

end

def Description.inspect (d : Description) : String :=
  Descriptor.call "ApiDescription"
    ["types=" ++ d.types.inspect, "entries=" ++ (Entry.branch d.entries).inspect]

/-! ## Equality of meaning -/

def Endpoint.agrees (d e : Endpoint) : Bool :=
  d.input.agrees e.input && d.output.agrees e.output && d.note == e.note

mutual

def Entry.agrees : Entry → Entry → Bool
  | .endpoint d, .endpoint e => d.agrees e
  | .branch cs, .branch ds => cs.length == ds.length && Entry.agreesChildren cs ds
  | .foreign x, .foreign y => x.agrees y
  | _, _ => false

def Entry.agreesChildren : List (String × Entry) → List (String × Entry) → Bool
  | [], _ => true
  | (k, c) :: rest, ds =>
    (match Assoc.find? k ds with
      | some d => c.agrees d
      | none => false) && Entry.agreesChildren rest ds

end

def Description.agrees (d e : Description) : Bool :=
  Descriptor.agreesTable Descriptor.agrees d.types e.types &&
    (Entry.branch d.entries).agrees (.branch e.entries)

end Typings
