import Typings.Description

/-!
# Plain descriptions

A description is plain if it is put together from the built-in kinds, endpoints and namespaces, with
ids and literals that have a JSON form of their own, and ids that have a text. It is in normal form
if its ids are texts.
-/

namespace Typings

/-! ## Plainness -/

/-- Texts, integers and truth values. -/
def Value.IsScalar : Value → Prop
  | .str _ | .int _ | .bool _ => True
  | _ => False

/-- What an id may be: a scalar that has a text. -/
structure Value.IsId (v : Value) : Prop where
  scalar : v.IsScalar
  hasText : v.hasText = true

def Value.IsLiteral : Value → Prop
  | .float x => x.isFinite = true
  | v => v.IsScalar

@[simp] theorem Value.isId_str (s : String) : (Value.str s).IsId := ⟨trivial, rfl⟩

@[simp] theorem Value.isId_bool (b : Bool) : (Value.bool b).IsId := ⟨trivial, rfl⟩

theorem Value.isId_int {n : Int} (h : Numeral.isShort n = true) : (Value.int n).IsId := ⟨trivial, h⟩

theorem Value.IsScalar.isLiteral {v : Value} (h : v.IsScalar) : v.IsLiteral := by
  cases v with
  | float x => exact h.elim
  | _ => exact h

theorem Value.IsId.isLiteral {v : Value} (h : v.IsId) : v.IsLiteral := h.scalar.isLiteral

def Body.Plain : Body → Prop
  | .literal v => v.IsLiteral
  | .wrapper _ item => item.IsId
  | .junction _ items => ∀ item ∈ items, item.IsId
  | .fieldSet _ fields => ∀ p ∈ fields.entries, p.2.typeId.IsId
  | .primitive _ | .bare => True

/-- A descriptor of a built-in kind, with plain contents. -/
def Descriptor.Plain (d : Descriptor) : Prop :=
  d.body.Plain ∧ ∃ b, d.body.builtin? = some b ∧ d = .ofBody b d.name d.note d.body

mutual

def Entry.Plain : Entry → Prop
  | .endpoint e => e.input.IsId ∧ e.output.IsId
  | .branch children => PlainLevel children
  | .foreign _ => False

def PlainLevel : List (String × Entry) → Prop
  | [] => True
  | (_, e) :: rest => e.Plain ∧ PlainLevel rest

end

/-- That keys are distinct matters at the top level, which is read as a table. -/
structure Description.Plain (d : Description) : Prop where
  types : ∀ p ∈ d.types.entries, p.2.Plain
  entries : PlainLevel d.entries
  nodup_keys : (d.entries.map Prod.fst).Nodup

/-! ## Data that has a text -/

namespace Json

/-- Whatever stands in an object has a text. -/
def HaveTexts (members : List (String × Json)) : Prop := ∀ p ∈ members, p.2.hasText = true

theorem hasText_arr_iff {items : List Json} :
    (arr items).hasText = true ↔ ∀ v ∈ items, v.hasText = true := by
  rw [hasText, Value.ofJson, Value.hasText]
  induction items with
  | nil => simp [Value.ofItems, Value.hasTextItems]
  | cons v items ih =>
      rw [Value.ofItems, Value.hasTextItems, Bool.and_eq_true, ih, List.forall_mem_cons]
      rfl

theorem hasText_obj_iff {members : List (String × Json)} :
    (obj members).hasText = true ↔ HaveTexts members := by
  rw [hasText, Value.ofJson, Value.hasText, HaveTexts]
  induction members with
  | nil => simp [Value.ofMembers, Value.hasTextMembers]
  | cons p members ih =>
      rw [Value.ofMembers, Value.hasTextMembers, Bool.and_eq_true, ih, List.forall_mem_cons]
      rfl

end Json

/-! ## The normal form -/

def TypeId.normal (id : TypeId) : TypeId := .str id.text

namespace Table

variable {ν μ : Type}

def map (f : ν → μ) (t : Table ν) : Table μ where
  entries := t.entries.map fun p ↦ (p.1, f p.2)
  nodup_keys := by
    rw [List.map_map]
    exact t.nodup_keys

theorem map_eq_self {f : ν → ν} {t : Table ν} (h : ∀ p ∈ t.entries, f p.2 = p.2) :
    t.map f = t := by
  have hentries : t.entries.map (fun p ↦ (p.1, f p.2)) = t.entries.map id :=
    List.map_congr_left fun p hp ↦ congrArg (p.1, ·) (h p hp)
  exact ext (hentries.trans (List.map_id _))

end Table

def Field.normal (f : Field) : Field := { f with typeId := f.typeId.normal }

def Body.normal : Body → Body
  | .wrapper w item => .wrapper w item.normal
  | .junction j items => .junction j (items.map TypeId.normal)
  | .fieldSet f fields => .fieldSet f (fields.map Field.normal)
  | b => b

def Descriptor.normal (d : Descriptor) : Descriptor := { d with body := d.body.normal }

def Endpoint.normal (e : Endpoint) : Endpoint :=
  { e with input := e.input.normal, output := e.output.normal }

mutual

def Entry.normal : Entry → Entry
  | .endpoint e => .endpoint e.normal
  | .branch children => .branch (normalLevel children)
  | .foreign x => .foreign x

def normalLevel : List (String × Entry) → List (String × Entry)
  | [] => []
  | (key, e) :: rest => (key, e.normal) :: normalLevel rest

end

/-- The same description with every id that something refers to replaced by its text. -/
def Description.normal (d : Description) : Description :=
  { types := d.types.map Descriptor.normal, entries := normalLevel d.entries }

theorem plainLevel_iff {es : List (String × Entry)} : PlainLevel es ↔ ∀ p ∈ es, p.2.Plain := by
  induction es with
  | nil => simp [PlainLevel]
  | cons p rest ih => simp [PlainLevel, ih]

theorem keys_normalLevel (es : List (String × Entry)) :
    (normalLevel es).map Prod.fst = es.map Prod.fst := by
  induction es with
  | nil => rfl
  | cons p rest ih => rw [normalLevel, List.map_cons, List.map_cons, ih]

theorem normalLevel_eq_self_iff {es : List (String × Entry)} :
    normalLevel es = es ↔ ∀ p ∈ es, p.2.normal = p.2 := by
  induction es with
  | nil => simp [normalLevel]
  | cons p rest ih =>
      rw [normalLevel, List.cons_eq_cons, Prod.mk.injEq, eq_self, true_and, ih,
        List.forall_mem_cons]

end Typings
