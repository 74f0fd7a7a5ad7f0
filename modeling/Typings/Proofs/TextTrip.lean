import Typings.Proofs.EncodedData
import Typings.Proofs.SpelledIds
import Typings.Wire.Document

/-!
# Through the text and back

What is encoded can be written and read back as JSON. So a description whose margin can be formed
goes through its text and comes back with the ids that refer to types spelled out, from which the
same module is generated.
-/

namespace Typings

/-! ## Descriptions that can be read back -/

/-- Integers that keep to the limit of digits. -/
def Value.IsShort : Value → Prop
  | .int n => (Numeral.digits n.natAbs).length ≤ Numeral.digitLimit
  | _ => True

/-- The literal or the ids that a body holds. -/
def Body.values : Body → List Value
  | .literal v => [v]
  | .wrapper _ item => [item]
  | .junction _ items => items
  | .fieldSet _ fields => fields.values.map Field.typeId
  | .primitive _ | .bare => []

mutual

/-- Keys are distinct below an entry, and ids are short. -/
def Entry.Writable : Entry → Prop
  | .endpoint e => e.input.IsShort ∧ e.output.IsShort
  | .branch children => (children.map Prod.fst).Nodup ∧ WritableLevel children
  | .foreign _ => True

def WritableLevel : List (String × Entry) → Prop
  | [] => True
  | (_, e) :: rest => e.Writable ∧ WritableLevel rest

end

/-- A plain description each level of which has distinct keys, and whose integers keep to the limit
of digits. -/
structure Description.Writable (d : Description) : Prop where
  plain : d.Plain
  types : ∀ p ∈ d.types.entries, ∀ v ∈ p.2.body.values, v.IsShort
  entries : WritableLevel d.entries

/-! ## They have a text -/

theorem Value.IsLiteral.portable {v : Value} (h : v.IsLiteral) (hshort : v.IsShort) :
    v.Portable := by
  cases v with
  | str s | bool b | float x => exact ⟨_, rfl, trivial⟩
  | int n => exact ⟨_, rfl, hshort⟩
  | _ => exact h.elim

theorem Body.Plain.portable {body : Body} (h : body.Plain)
    (hshort : ∀ v ∈ body.values, v.IsShort) :
    ∀ p ∈ body.slot?.toList, ∀ v ∈ p.2.values, v.Portable := by
  intro p hp
  cases body with
  | primitive _ | bare => cases hp
  | literal value =>
      obtain rfl := List.mem_singleton.1 hp
      intro v hv
      obtain rfl := List.mem_singleton.1 hv
      exact Value.IsLiteral.portable h (hshort v hv)
  | wrapper w item =>
      obtain rfl := List.mem_singleton.1 hp
      intro v hv
      obtain rfl := List.mem_singleton.1 hv
      exact (Value.IsId.isLiteral h).portable (hshort v hv)
  | junction j items =>
      obtain rfl := List.mem_singleton.1 hp
      intro v hv
      exact (h v hv).isLiteral.portable (hshort v hv)
  | fieldSet f fields =>
      obtain rfl := List.mem_singleton.1 hp
      intro v hv
      obtain ⟨field, hfield, rfl⟩ := List.mem_map.1 hv
      obtain ⟨q, hq, rfl⟩ := List.mem_map.1 hfield
      exact (h q hq).isLiteral.portable (hshort _ hv)

theorem Value.portable_ofText (s : Option String) : (Value.ofText s).Portable := by
  cases s with
  | none | some s => exact ⟨_, rfl, trivial⟩

theorem Descriptor.Plain.portable {d : Descriptor} (h : d.Plain)
    (hshort : ∀ v ∈ d.body.values, v.IsShort) : ∀ v ∈ d.values, v.Portable := by
  obtain ⟨hbody, b, -, hd⟩ := h
  have hcommon : ∀ f ∈ CommonField.all, (d.common f).Portable := by
    intro f _
    rw [hd]
    cases f with
    | _ => exact Value.portable_ofText _
  have hextras : d.extras = [] := by
    rw [hd]
    rfl
  rw [Descriptor.values, hextras, List.append_nil]
  refine List.forall_mem_append.2 ⟨List.forall_mem_map.2 hcommon, fun v hv ↦ ?_⟩
  obtain ⟨p, hp, hv⟩ := List.mem_flatMap.1 hv
  exact hbody.portable hshort p hp v hv

mutual

theorem Entry.portable_of_plain {e : Entry} (hplain : e.Plain) (h : e.Writable) : e.Portable := by
  match e, hplain, h with
  | .endpoint e, hplain, h =>
      exact ⟨hplain.1.isLiteral.portable h.1, hplain.2.isLiteral.portable h.2⟩
  | .branch children, hplain, h => exact ⟨h.1, portableLevel_of_plain hplain h.2⟩

theorem portableLevel_of_plain {es : List (String × Entry)} (hplain : PlainLevel es)
    (h : WritableLevel es) : PortableLevel es := by
  match es, hplain, h with
  | [], _, _ => trivial
  | (_, _) :: _, hplain, h =>
      exact ⟨Entry.portable_of_plain hplain.1 h.1, portableLevel_of_plain hplain.2 h.2⟩

end

theorem Description.Writable.portable {d : Description} (h : d.Writable) : d.Portable where
  types p hp := (h.plain.types p hp).portable (h.types p hp)
  entries := ⟨h.plain.nodup_keys, portableLevel_of_plain h.plain.entries h.entries⟩

namespace Wire

theorem readable_of_encode {d : Description} (h : d.Writable) {v : Json} (hv : encode d = .ok v) :
    v.Readable := by
  obtain ⟨w, hw, hreadable⟩ := readable_encode h.portable
  exact Except.ok.inj (hw.symm.trans hv) ▸ hreadable

/-! ## The round trip -/

/-- A description goes through its text without any change to what is generated from it, or to how
the generation fails, unless there is no margin of the width that is asked for. -/
theorem generate_parse_print {d : Description} (h : d.Writable) (indent : Option Int) :
    (∀ style, Json.Style.ofIndent indent = .ok style →
      ∃ text d', print indent d = .ok text ∧ parse .builtin text = .ok d' ∧
        ∀ options, generate options d' = generate options d) ∧
      ∀ e, Json.Style.ofIndent indent = .error e → print indent d = .error (.margin e) := by
  obtain ⟨v, hencode, hdecode⟩ := exists_encode h.plain
  have hreadable := readable_of_encode h hencode
  constructor
  · intro style hstyle
    have hprint : print indent d = .ok (v.render style) := by
      rw [print, hencode, hstyle]
    have hparse : parse .builtin (v.render style) = .ok d.normal := by
      rw [parse, parseWith, Json.readWith_render _ (Json.Style.isBlank_ofIndent hstyle) hreadable]
      dsimp only
      rw [hdecode]
    exact ⟨v.render style, d.normal, hprint, hparse, fun options ↦ generate_normal options d⟩
  · intro e he
    rw [print, hencode, he]

/-- Types that are referred to by numbers. -/
def numberedTypes : Description where
  types := .ofList [
    ("1", .ofBody .literal none .none (.literal (.float (.zero true)))),
    ("2", .ofBody (.junction .union) (some "Either") ⟨some "\u2028", none⟩
      (.junction .union [.int 1, .str "1"]))]
  entries := [("get", .endpoint ⟨.int 1, .int 2, .none⟩), ("more", .branch [])]

theorem numberedTypes_parse_print :
    (∃ text d', print (some 2) numberedTypes = .ok text ∧ parse .builtin text = .ok d' ∧
      ∀ options, generate options d' = generate options numberedTypes) ∧
      print (some 9223372036854775808) numberedTypes = .error (.margin .outOfRange) := by
  have hid : (Value.int 1).IsId := Value.isId_int rfl
  have hid' : (Value.int 2).IsId := Value.isId_int rfl
  have hone : (Value.int 1).IsShort := Nat.le_of_ble_eq_true rfl
  have htwo : (Value.int 2).IsShort := Nat.le_of_ble_eq_true rfl
  have htypes : ∀ p ∈ numberedTypes.types.entries,
      p.2.Plain ∧ ∀ v ∈ p.2.body.values, v.IsShort := by
    intro p hp
    have hvalue := Assoc.mem_values_of_mem_ofList hp
    simp only [List.map_cons, List.map_nil, List.mem_cons, List.not_mem_nil, or_false] at hvalue
    rcases hvalue with h | h
    · rw [h]
      exact ⟨⟨rfl, .literal, rfl, rfl⟩, List.forall_mem_singleton.2 trivial⟩
    · have hitems : ∀ item ∈ [Value.int 1, .str "1"], item.IsId ∧ item.IsShort := by
        simp only [List.forall_mem_cons]
        exact ⟨⟨hid, hone⟩, ⟨Value.isId_str "1", trivial⟩, List.forall_mem_nil _⟩
      rw [h]
      exact ⟨⟨fun item hitem ↦ (hitems item hitem).1, .junction .union, rfl, rfl⟩,
        fun item hitem ↦ (hitems item hitem).2⟩
  have hentries : PlainLevel numberedTypes.entries ∧ WritableLevel numberedTypes.entries :=
    ⟨⟨⟨hid, hid'⟩, trivial, trivial⟩, ⟨hone, htwo⟩, ⟨List.nodup_nil, trivial⟩, trivial⟩
  have hwritable : numberedTypes.Writable :=
    ⟨⟨fun p hp ↦ (htypes p hp).1, hentries.1, by decide⟩, fun p hp ↦ (htypes p hp).2, hentries.2⟩
  exact ⟨(generate_parse_print hwritable _).1 _ rfl, (generate_parse_print hwritable _).2 _ rfl⟩

/-- Without a margin of the width that is asked for there is no text, though there is a module. -/
theorem wideMargin_not_printed :
    (⟨.empty, []⟩ : Description).Writable ∧
      print (some (-9223372036854775809)) ⟨.empty, []⟩ = .error (.margin .outOfRange) ∧
        ∃ text, generate { formatter := .identity } ⟨.empty, []⟩ = .ok text := by
  refine ⟨⟨⟨List.forall_mem_nil _, trivial, List.nodup_nil⟩, List.forall_mem_nil _, trivial⟩, rfl,
    _, rfl⟩

end Wire

end Typings
