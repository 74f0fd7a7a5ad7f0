import Typings.Json.Basic
import Typings.Text.Quoted

/-!
# Values

Ids and literals are values: JSON data in which references to types may stand.

`Value.inspect` is the form in which a value is shown in messages; `Value.text` is the same except
that a text stands for itself, and is what a value means where an identifier is wanted. Both go on
however many digits an integer has; `Value.hasText` says whether the text can be had. Values agree
if they mean the same, whatever their types.
-/

namespace Typings

inductive Value where
  | null
  | bool (b : Bool)
  | int (n : Int)
  | float (x : Binary64)
  /-- What `NaN` in a JSON text denotes: unlike other values that are no number, it agrees with
  itself. -/
  | nan
  | str (s : String)
  | list (items : List Value)
  | object (members : List (String × Value))
  | reference (id : Value)

namespace Value

instance : Inhabited Value := ⟨null⟩

/-- A text that may be missing. -/
def ofText : Option String → Value
  | none => null
  | some s => str s

/-! ## Data -/

mutual

def ofJson : Json → Value
  | .null => null
  | .bool b => bool b
  | .int n => int n
  | .float .nan => nan
  | .float x => float x
  | .str s => str s
  | .arr items => list (ofItems items)
  | .obj members => object (ofMembers members)

def ofItems : List Json → List Value
  | [] => []
  | v :: rest => ofJson v :: ofItems rest

def ofMembers : List (String × Json) → List (String × Value)
  | [] => []
  | (k, v) :: rest => (k, ofJson v) :: ofMembers rest

end

mutual

/-- The data that a value is; none if a reference stands in it. -/
def toJson? : Value → Option Json
  | null => some .null
  | bool b => some (.bool b)
  | int n => some (.int n)
  | float x => some (.float x)
  | nan => some (.float .nan)
  | str s => some (.str s)
  | list items => (toItems? items).map .arr
  | object members => (toMembers? members).map .obj
  | reference _ => none

def toItems? : List Value → Option (List Json)
  | [] => some []
  | v :: rest =>
    match toJson? v, toItems? rest with
    | some w, some items => some (w :: items)
    | _, _ => none

def toMembers? : List (String × Value) → Option (List (String × Json))
  | [] => some []
  | (k, v) :: rest =>
    match toJson? v, toMembers? rest with
    | some w, some members => some ((k, w) :: members)
    | _, _ => none

end

mutual

theorem toJson?_ofJson (v : Json) : toJson? (ofJson v) = some v := by
  match v with
  | .null | .bool _ | .int _ | .str _ => simp [ofJson, toJson?]
  | .float x => cases x <;> simp [ofJson, toJson?]
  | .arr items => simp [ofJson, toJson?, toItems?_ofItems items]
  | .obj members => simp [ofJson, toJson?, toMembers?_ofMembers members]

theorem toItems?_ofItems (items : List Json) : toItems? (ofItems items) = some items := by
  match items with
  | [] => simp [ofItems, toItems?]
  | v :: rest => simp [ofItems, toItems?, toJson?_ofJson v, toItems?_ofItems rest]

theorem toMembers?_ofMembers (members : List (String × Json)) :
    toMembers? (ofMembers members) = some members := by
  match members with
  | [] => simp [ofMembers, toMembers?]
  | (k, v) :: rest => simp [ofMembers, toMembers?, toJson?_ofJson v, toMembers?_ofMembers rest]

end

/-! ## Messages -/

/-- The name of a value's type in messages. -/
def typeName : Value → String
  | null => "NoneType"
  | bool _ => "bool"
  | int _ => "int"
  | float _ | nan => "float"
  | str _ => "str"
  | list _ => "list"
  | object _ => "dict"
  | reference _ => "TypeRef"

/-- Floating point numbers in messages. -/
def spelling : Binary64.Spelling := { nan := "nan", infinity := "inf" }

mutual

def inspect : Value → String
  | null => "None"
  | bool true => "True"
  | bool false => "False"
  | int n => String.ofList (Numeral.ofInt n)
  | float x => String.ofList (x.text spelling)
  | nan => String.ofList (Binary64.nan.text spelling)
  | str s => Text.quoted s
  | list items => "[" ++ ", ".intercalate (inspectItems items) ++ "]"
  | object members => "\x7b" ++ ", ".intercalate (inspectMembers members) ++ "\x7d"
  | reference id => "TypeRef(type_id=" ++ inspect id ++ ")"

def inspectItems : List Value → List String
  | [] => []
  | v :: rest => inspect v :: inspectItems rest

def inspectMembers : List (String × Value) → List String
  | [] => []
  | (k, v) :: rest => (Text.quoted k ++ ": " ++ inspect v) :: inspectMembers rest

end

def text : Value → String
  | str s => s
  | v => v.inspect

mutual

/-- Whether a value can be written as text: no integer in it has too many digits. -/
def hasText : Value → Bool
  | int n => Numeral.isShort n
  | list items => hasTextItems items
  | object members => hasTextMembers members
  | reference id => hasText id
  | null | bool _ | float _ | nan | str _ => true

def hasTextItems : List Value → Bool
  | [] => true
  | v :: rest => hasText v && hasTextItems rest

def hasTextMembers : List (String × Value) → Bool
  | [] => true
  | (_, v) :: rest => hasText v && hasTextMembers rest

end

/-- The text of a value that can be written as one. -/
def text? (v : Value) : Option String := if v.hasText then some v.text else none

/-! ## Meaning -/

/-- Truth values count as the integers zero and one. -/
def asInt? : Value → Option Int
  | bool b => some (if b then 1 else 0)
  | int n => some n
  | _ => none

def sameNumber (v w : Value) : Bool :=
  match v, w with
  | float x, float y => x.sameValue y
  | float x, w => match w.asInt? with
    | some n => x.isInt n
    | none => false
  | v, float y => match v.asInt? with
    | some n => y.isInt n
    | none => false
  | v, w => match v.asInt?, w.asInt? with
    | some m, some n => m == n
    | _, _ => false

mutual

/-- Equality of meaning: numbers are compared by value across their types, and objects as maps,
without regard to the order of their members. -/
def agrees : Value → Value → Bool
  | null, null | nan, nan => true
  | str s, str t => s == t
  | list vs, list ws => agreesItems vs ws
  | object ms, object ns => ms.length == ns.length && agreesMembers ms ns
  | reference v, reference w => agrees v w
  | v, w => sameNumber v w

def agreesItems : List Value → List Value → Bool
  | [], [] => true
  | v :: vs, w :: ws => agrees v w && agreesItems vs ws
  | _, _ => false

def agreesMembers : List (String × Value) → List (String × Value) → Bool
  | [], _ => true
  | (k, v) :: rest, ns =>
    (match Assoc.find? k ns with
      | some w => agrees v w
      | none => false) && agreesMembers rest ns

end

/-- Whether a value says nothing: it is missing, false, zero or empty. -/
def isVoid : Value → Bool
  | null => true
  | bool b => !b
  | int n => n == 0
  | float x => x.isInt 0
  | str s => s == ""
  | list items => items.isEmpty
  | object members => members.isEmpty
  | nan | reference _ => false

end Value

namespace Json

def typeName (v : Json) : String := (Value.ofJson v).typeName

def inspect (v : Json) : String := (Value.ofJson v).inspect

def text (v : Json) : String := (Value.ofJson v).text

def hasText (v : Json) : Bool := (Value.ofJson v).hasText

def text? (v : Json) : Option String := (Value.ofJson v).text?

end Json

end Typings
