import Typings.Proofs.Agreement
import Typings.Proofs.WrittenMembers

/-!
# Round trips of defined kinds

What is written for a descriptor of a defined kind can be read again, and gives the same, exactly
if no added value is lost on the way: null is left out like what is absent although it must be
there, and of fields whose keys are the same the last one is written alone.
-/

namespace Typings

/-- No added value is null, and what is written last under its key agrees with it. -/
def Descriptor.IsLossless (d : Descriptor) : Prop :=
  ∀ name v, (name, .value v) ∈ d.ownFields → v ≠ .null ∧
    ∃ x w, d.lastUnder (Text.camelCase name) = some x ∧ Wire.encodeExtra x = .ok w ∧
      (Value.ofJson w).agrees v = true

namespace Wire

/-! ## Fields read again -/

section

variable {id name : String} {members members' : List (String × Json)} {x : Extra}

/-- A field is read from what stands under its key and nothing else. -/
theorem decodeExtra_congr (h : Assoc.find? (Text.camelCase name) members =
    Assoc.find? (Text.camelCase name) members') :
    decodeExtra id members name = decodeExtra id members' name := by
  have hrequire (site : Site) : require site members (Text.camelCase name) =
      require site members' (Text.camelCase name) := by
    rw [require, require, h]
  by_cases hname : name ∈ specialNames
  · -- Whatever it is read as, its key is looked up first.
    rcases mem_specialNames_iff.1 hname with rfl | rfl | rfl | rfl <;>
      exact congrArg (· >>= _) (congrArg (· >>= _) (hrequire (.type id)))
  · rw [decodeExtra_raw hname, decodeExtra_raw hname, hrequire]

theorem camelCase_special (h : name ∈ specialNames) : Text.camelCase name ∉ commonKeys ∧
    ∀ name' ∈ specialNames, Text.camelCase name' = Text.camelCase name → name' = name := by
  rcases mem_specialNames_iff.1 h with rfl | rfl | rfl | rfl <;> decide

theorem notMem_specialNames (h : Text.camelCase name ∈ commonKeys) : name ∉ specialNames :=
  fun hname ↦ (camelCase_special hname).1 h

theorem decodeTypeId_eq_ok_iff {item : TypeId} : decodeTypeId id members = .ok item ↔
    ∃ v, Assoc.find? "itemTypeId" members = some v ∧ normalId (.type id) v = .ok item := by
  constructor
  · intro h
    obtain ⟨v, hv, h⟩ := exists_of_bind_eq_ok h
    exact ⟨v, require_eq_ok_iff.1 hv, h⟩
  · rintro ⟨v, hfind, hv⟩
    rw [decodeTypeId, require_eq_ok hfind]
    exact hv

theorem decodeTypeIds_eq_ok_iff {ids : List TypeId} : decodeTypeIds id members = .ok ids ↔
    ∃ items, Assoc.find? "itemTypeIds" members = some (.arr items) ∧
      items.mapM (normalId (.type id)) = .ok ids := by
  constructor
  · intro h
    obtain ⟨v, hv, h⟩ := exists_of_bind_eq_ok h
    split at h
    · exact ⟨_, require_eq_ok_iff.1 hv, h⟩
    · cases h
  · rintro ⟨items, hfind, hids⟩
    rw [decodeTypeIds, require_eq_ok hfind]
    exact hids

/-- The text of an id is an id again, and its own text. -/
theorem normalId_spellId {site : Site} {v : Json} {id : TypeId} (h : normalId site v = .ok id) :
    encodeValue id = .ok v.spellId ∧ normalId site v.spellId = .ok id := by
  obtain ⟨-, rfl⟩ := normalId_eq_ok_iff.1 h
  exact ⟨rfl, rfl⟩

theorem exists_written_of_special (hname : name ∈ specialNames)
    (h : decodeExtra id members name = .ok x) : ∃ w, encodeExtra x = .ok w ∧ w ≠ .null ∧
      Descriptor.agreesExtra x x = true ∧ ∀ members',
        Assoc.find? (Text.camelCase name) members' = some w →
          decodeExtra id members' name = .ok x := by
  rcases mem_specialNames_iff.1 hname with rfl | rfl | rfl | rfl
  · obtain ⟨fields, hfields, rfl⟩ := decodeExtra_fields_iff.1 h
    obtain ⟨hplain, hnormal⟩ := decodeFields_settled hfields
    obtain ⟨w, hw, hnull, hdecode⟩ := exists_encodeFields hplain id
    rw [hnormal] at hdecode
    exact ⟨w, hw, hnull, Descriptor.agreesTable_self hplain, fun members' hfind ↦
      decodeExtra_fields_iff.2 ⟨fields, hdecode members' hfind, rfl⟩⟩
  · obtain ⟨ids, hids, rfl⟩ := decodeExtra_typeIds_iff.1 h
    obtain ⟨items, hfind, hw⟩ := encodeExtra_of_decodeTypeIds hids
    obtain ⟨items', hfind', hitems⟩ := decodeTypeIds_eq_ok_iff.1 hids
    obtain rfl := Json.arr.inj (Option.some.inj (hfind.symm.trans hfind'))
    have hagrees : Value.agreesItems ids ids = true := by
      refine Value.agreesItems_self fun id hid ↦ ?_
      obtain ⟨v, -, hv⟩ := exists_of_mem_mapM hitems hid
      exact (normalId_settled hv).1
    refine ⟨_, hw, (fun hnull ↦ by cases hnull), hagrees, fun members' hfind' ↦
      decodeExtra_typeIds_iff.2 ⟨_, ?_, rfl⟩⟩
    refine decodeTypeIds_eq_ok_iff.2 ⟨_, hfind', mapM_eq_ok_iff.2 ?_⟩
    rw [List.forall₂_map_left_iff]
    exact (mapM_eq_ok_iff.1 hitems).imp fun v id hv ↦ (normalId_spellId hv).2
  · obtain ⟨item, hitem, rfl⟩ := decodeExtra_typeId_iff.1 h
    obtain ⟨v, -, hid⟩ := decodeTypeId_eq_ok_iff.1 hitem
    obtain ⟨hencode, hdecode⟩ := normalId_spellId hid
    have hagrees := (normalId_settled hid).1.scalar.agrees_self
    refine ⟨_, hencode, (fun hnull ↦ by cases hnull), hagrees, fun members' hfind ↦ ?_⟩
    exact decodeExtra_typeId_iff.2 ⟨_, decodeTypeId_eq_ok_iff.2 ⟨_, hfind, hdecode⟩, rfl⟩
  · obtain ⟨v, hv, rfl⟩ := decodeExtra_value_iff.1 h
    have hliteral := decodeLiteral_settled hv
    obtain ⟨w, hnull, rfl⟩ := exists_ofJson_of_isLiteral hliteral
    exact ⟨w, encodeValue_ofJson w, hnull, hliteral.agrees_self, fun members' hfind ↦
      decodeExtra_value_iff.2 ⟨_, decodeLiteral_eq_ok hliteral hfind id, rfl⟩⟩

/-- The value of an added field is what stands under its key. -/
theorem exists_ofJson_of_decodeExtra {v : Value}
    (h : decodeExtra id members name = .ok (.value v)) :
    ∃ w, Assoc.find? (Text.camelCase name) members = some w ∧ .ofJson w = v := by
  by_cases hname : name ∈ specialNames
  · rcases mem_specialNames_iff.1 hname with rfl | rfl | rfl | rfl
    · obtain ⟨_, -, ⟨⟩⟩ := decodeExtra_fields_iff.1 h
    · obtain ⟨_, -, ⟨⟩⟩ := decodeExtra_typeIds_iff.1 h
    · obtain ⟨_, -, ⟨⟩⟩ := decodeExtra_typeId_iff.1 h
    · obtain ⟨v, hv, ⟨⟩⟩ := decodeExtra_value_iff.1 h
      obtain ⟨w, hw, -, hencode⟩ := encodeExtra_of_decodeLiteral hv
      obtain ⟨w', -, rfl⟩ := exists_ofJson_of_isLiteral (decodeLiteral_settled hv)
      obtain rfl := Except.ok.inj ((encodeValue_ofJson w').symm.trans hencode)
      exact ⟨w', hw, rfl⟩
  · obtain ⟨w, hw, hx⟩ := (decodeExtra_raw_iff hname).1 h
    exact ⟨w, hw, Extra.value.inj hx⟩

theorem map_str_eq_of_optionalText {site : Site} {key : String} {s : Option String} {w : Json}
    (h : optionalText site members key = .ok s) (hw : Assoc.find? key members = some w)
    (hnull : w ≠ .null) : s.map .str = some w := by
  rw [optionalText, hw] at h
  cases w with
  | null => exact absurd rfl hnull
  | str t =>
      obtain rfl := Except.ok.inj h
      rfl
  | _ => cases h

end

/-! ## Descriptors read again -/

section

variable {kind : Kind} {id : String} {members written : List (String × Json)} {d : Descriptor}
  {p : String × Extra}

theorem Written.ne_null {key : String} {w : Json} (h : Written d key w) : w ≠ .null := by
  rintro rfl
  rcases h with ⟨-, hw⟩ | ⟨f, -, hw⟩ | ⟨p, -, -, -, hnull⟩
  · cases hw
  · obtain ⟨s, -, hs⟩ := Option.map_eq_some_iff.1 hw
    cases hs
  · exact hnull rfl

namespace ReadAs

variable (h : ReadAs kind id members d)

include h

theorem map_fst_ownFields : d.ownFields.map Prod.fst = kind.ownFields := by
  rw [Descriptor.ownFields, Kind.ownFields, List.map_append, h.names, ← h.builtin,
    ← Body.map_fst_slot?]
  cases d.body.slot? <;> rfl

theorem exists_encodeExtra (hp : p ∈ d.ownFields) : ∃ w, encodeExtra p.2 = .ok w := by
  have hread := h.own p hp
  by_cases hname : p.1 ∈ specialNames
  · obtain ⟨w, hw, -⟩ := exists_written_of_special hname hread
    exact ⟨w, hw⟩
  · obtain ⟨w, -, hx⟩ := (decodeExtra_raw_iff hname).1 hread
    exact ⟨w, hx ▸ encodeValue_ofJson w⟩

/-- A value that is kept as it is is written as what it was read from. -/
theorem find?_of_own (hp : p ∈ d.ownFields) (hname : p.1 ∉ specialNames) {w : Json}
    (hw : encodeExtra p.2 = .ok w) : Assoc.find? (Text.camelCase p.1) members = some w := by
  obtain ⟨u, hu, hx⟩ := (decodeExtra_raw_iff hname).1 (h.own p hp)
  rw [← hx] at hw
  obtain rfl := Except.ok.inj ((encodeValue_ofJson u).symm.trans hw)
  exact hu

/-- Where the value under a key is not null, no field of this key is left out. -/
theorem encodeExtra_ne_null {name : String} {v : Value} (hp : (name, .value v) ∈ d.ownFields)
    (hv : v ≠ .null) : ∀ q ∈ d.ownFields, Text.camelCase q.1 = Text.camelCase name →
      encodeExtra q.2 ≠ .ok .null := by
  intro q hq hkey hnull
  by_cases hname : q.1 ∈ specialNames
  · obtain ⟨w, hw, hne, -⟩ := exists_written_of_special hname (h.own q hq)
    exact hne (Except.ok.inj (hw.symm.trans hnull))
  · have hfind := h.find?_of_own hq hname hnull
    obtain ⟨u, hu, rfl⟩ := exists_ofJson_of_decodeExtra (h.own _ hp)
    rw [hkey, hu] at hfind
    obtain rfl := Option.some.inj hfind
    exact hv rfl

/-- What is written under the key of a common field is its text. -/
theorem map_str_of_written {f : CommonField} {w : Json} (hw : Written d f.key w) :
    (d.commonText f).map .str = some w := by
  rcases hw with ⟨hkey, -⟩ | ⟨f', hkey, hw⟩ | ⟨p, hp, hkey, hw, hnull⟩
  · exact absurd hkey (by cases f <;> decide)
  · obtain rfl : f' = f := by
      cases f' <;> cases f <;> first | rfl | exact absurd hkey (by decide)
    exact hw
  · have hname : p.1 ∉ specialNames := notMem_specialNames (hkey ▸ by cases f <;> decide)
    have hfind := h.find?_of_own hp hname hw
    rw [hkey] at hfind
    exact map_str_eq_of_optionalText (h.common f) hfind hnull

variable (hwritten : WrittenAs d written)

include hwritten

theorem find?_type_written (htype : Assoc.find? "type" members = some (.str kind.tag)) :
    Assoc.find? "type" written = some (.str kind.tag) := by
  obtain ⟨w, hw⟩ := hwritten.exists_find? (.tag rfl rfl)
  rw [hw]
  rcases hwritten.written hw with ⟨-, rfl⟩ | ⟨f, hkey, -⟩ | ⟨p, hp, hkey, hencode, -⟩
  · rw [h.tag]
  · exact absurd hkey (by cases f <;> decide)
  · have hname : p.1 ∉ specialNames := notMem_specialNames (hkey ▸ by decide)
    rw [← htype, ← hkey, h.find?_of_own hp hname hencode]

theorem optionalText_written (f : CommonField) :
    optionalText (.type id) written f.key = .ok (d.commonText f) := by
  apply optionalText_eq_ok
  cases hfind : Assoc.find? f.key written with
  | some w => exact (h.map_str_of_written (hwritten.written hfind)).symm
  | none =>
      cases hs : d.commonText f with
      | none => rfl
      | some s =>
          have htext : (d.commonText f).map Json.str = some (.str s) := by rw [hs, Option.map_some]
          obtain ⟨w, hw⟩ := hwritten.exists_find? (.common f rfl htext)
          cases hfind.symm.trans hw

theorem decodeExtra_written_special (hp : p ∈ d.ownFields) (hname : p.1 ∈ specialNames) :
    decodeExtra id written p.1 = .ok p.2 := by
  obtain ⟨w, hw, hnull, -, hagain⟩ := exists_written_of_special hname (h.own p hp)
  obtain ⟨w', hfind⟩ := hwritten.exists_find? (.own p hp rfl hw hnull)
  obtain ⟨hcommon, hinjective⟩ := camelCase_special hname
  rcases hwritten.written hfind with ⟨hkey, -⟩ | ⟨f, hkey, -⟩ | ⟨q, hq, hkey, hw', -⟩
  · exact absurd (hkey ▸ by decide) hcommon
  · exact absurd (hkey ▸ by cases f <;> decide) hcommon
  · by_cases hspecial : q.1 ∈ specialNames
    · -- No other name has this key and is read in a way of its own.
      have hread := h.own q hq
      rw [hinjective q.1 hspecial hkey, h.own p hp] at hread
      rw [← Except.ok.inj hread] at hw'
      obtain rfl := Except.ok.inj (hw.symm.trans hw')
      exact hagain written hfind
    · have hfind' := h.find?_of_own hq hspecial hw'
      rw [hkey] at hfind'
      rw [decodeExtra_congr (hfind.trans hfind'.symm), h.own p hp]

/-- The own fields can be read again, and mean the same, exactly if no added value is lost. -/
theorem own_again_iff_isLossless : (∀ p ∈ d.ownFields, ∃ x, decodeExtra id written p.1 = .ok x ∧
    Descriptor.agreesExtra x p.2 = true) ↔ d.IsLossless := by
  constructor
  · intro hall name v hp
    obtain ⟨x, hx, hagrees⟩ := hall _ hp
    cases x with
    | value v' =>
        obtain ⟨w, hw, rfl⟩ := exists_ofJson_of_decodeExtra hx
        have hne : v ≠ .null := by
          rintro rfl
          exact (hwritten.written hw).ne_null (Value.eq_null_of_agrees_null hagrees)
        obtain ⟨y, hy⟩ : ∃ y, d.lastUnder (Text.camelCase name) = some y :=
          Assoc.exists_find?_of_mem (List.mem_reverse.2 (List.mem_map_of_mem hp))
        obtain ⟨q, hq, hpair⟩ := List.mem_map.1 (List.mem_reverse.1 (Assoc.mem_of_find? hy))
        obtain ⟨hkey, rfl⟩ := Prod.mk.inj hpair
        obtain ⟨u, hu⟩ := h.exists_encodeExtra hq
        have hlast := hwritten.last hy hu (h.encodeExtra_ne_null hp hne)
        obtain rfl := Option.some.inj (hw.symm.trans hlast)
        exact ⟨hne, q.2, w, hy, hu, hagrees⟩
    | _ => cases hagrees
  · intro hlossless p hp
    by_cases hname : p.1 ∈ specialNames
    · obtain ⟨w, -, -, hagrees, -⟩ := exists_written_of_special hname (h.own p hp)
      exact ⟨p.2, h.decodeExtra_written_special hwritten hp hname, hagrees⟩
    · obtain ⟨u, -, hx⟩ := (decodeExtra_raw_iff hname).1 (h.own p hp)
      obtain ⟨name, x⟩ := p
      obtain rfl : .value (.ofJson u) = x := hx
      obtain ⟨hne, y, w, hy, hw, hagrees⟩ := hlossless name _ hp
      have hlast := hwritten.last hy hw (h.encodeExtra_ne_null hp hne)
      exact ⟨_, (decodeExtra_raw_iff hname).2 ⟨w, hlast, rfl⟩, hagrees⟩

end ReadAs

end

theorem ReadAs.agrees_of_own {kind : Kind} {id : String} {members members' : List (String × Json)}
    {d d' : Descriptor} (h : ReadAs kind id members d) (h' : ReadAs kind id members' d')
    (htexts : d'.commonText = d.commonText)
    (hown : ∀ p ∈ d.ownFields, ∃ x, decodeExtra id members' p.1 = .ok x ∧
      Descriptor.agreesExtra x p.2 = true) : d'.agrees d = true := by
  have hcommon (f : CommonField) : (d'.common f).agrees (d.common f) = true := by
    rw [Descriptor.common_of_closed h'.opened, Descriptor.common_of_closed h.opened, htexts]
    exact Value.ofText_agrees_self _
  have hfields : Descriptor.agreesExtras d'.ownFields d.ownFields = true := by
    have hnames := h'.map_fst_ownFields.trans h.map_fst_ownFields.symm
    rw [← List.forall₂_eq_eq_eq, List.forall₂_map_left_iff, List.forall₂_map_right_iff] at hnames
    rw [Descriptor.agreesExtras_iff, List.forall₂_iff_zip]
    refine ⟨hnames.length_eq, fun {q p} hpair ↦ ?_⟩
    obtain ⟨hq, hp⟩ := List.of_mem_zip hpair
    have hname := List.forall₂_zip hnames hpair
    obtain ⟨x, hx, hagrees⟩ := hown p hp
    rw [← hname, h'.own q hq] at hx
    rw [Except.ok.inj hx]
    exact ⟨hname, hagrees⟩
  rw [Descriptor.agrees, h'.tag, h.tag, h'.label, h.label, beq_self_eq_true, beq_self_eq_true,
    List.all_eq_true.2 fun f _ ↦ hcommon f]
  exact hfields

/-! ## The round trip -/

/-- Where kinds are defined with fields of names of their own, what is read can be written, and what
is written can be read again and gives the same, exactly if no added value is lost. -/
theorem decode_encode_extended {c : Catalog} (hc : c.Extended) {id : String} {v : Json}
    {d : Descriptor} (h : decodeType c id v = .ok d) :
    ∃ w, encodeType d = .ok w ∧
      ((∃ d', decodeType c id w = .ok d' ∧ d'.agrees d = true) ↔ d.IsLossless) := by
  obtain ⟨members, kind, rfl, htype, hkind, hread⟩ := readAs_of_decodeType hc h
  obtain ⟨written, hencode, hwritten⟩ :=
    exists_writtenAs hread.opened fun p hp ↦ hread.exists_encodeExtra hp
  refine ⟨_, hencode, ?_⟩
  rw [← hread.own_again_iff_isLossless hwritten]
  constructor
  · rintro ⟨d', hd', hagrees⟩ p hp
    obtain ⟨_, kind', hmembers, -, -, hread'⟩ := readAs_of_decodeType hc hd'
    obtain rfl := Json.obj.inj hmembers
    simp only [Descriptor.agrees, Bool.and_eq_true] at hagrees
    have hfields := Descriptor.agreesExtras_iff.1 hagrees.2
    obtain ⟨q, hpair⟩ := exists_mem_zip_right hfields.length_eq hp
    obtain ⟨hname, hx⟩ := List.forall₂_zip hfields hpair
    have hq := hread'.own q (List.of_mem_zip hpair).1
    exact ⟨q.2, hname ▸ hq, hx⟩
  · intro hown
    obtain ⟨d', hread', htexts⟩ := exists_readAs hread.inhabited d.commonText
      (hread.optionalText_written hwritten) fun name hname ↦ by
        rw [← hread.map_fst_ownFields] at hname
        obtain ⟨p, hp, rfl⟩ := List.mem_map.1 hname
        obtain ⟨x, hx, -⟩ := hown p hp
        exact ⟨x, hx⟩
    exact ⟨d', hread'.decodeType_eq hc (hread.find?_type_written hwritten htype) hkind,
      hread.agrees_of_own hread' htexts hown⟩

/-- Where no two fields have the same key, nothing but null is lost. -/
theorem isLossless_of_nodup_keys {c : Catalog} (hc : c.Extended) {id : String} {v : Json}
    {d : Descriptor} (h : decodeType c id v = .ok d) (hkeys : v.HasDistinctKeys)
    (hnodup : (d.ownFields.map fun p ↦ Text.camelCase p.1).Nodup)
    (hnull : ∀ name, (name, .value .null) ∉ d.ownFields) : d.IsLossless := by
  obtain ⟨members, kind, rfl, -, -, hread⟩ := readAs_of_decodeType hc h
  intro name v hp
  refine ⟨fun hv ↦ hnull name (hv ▸ hp), ?_⟩
  obtain ⟨w, hw, rfl⟩ := exists_ofJson_of_decodeExtra (hread.own _ hp)
  refine ⟨.value (.ofJson w), w, ?_, encodeValue_ofJson w, (hkeys.find? hw).agrees_self⟩
  apply Assoc.find?_of_mem
  · rw [List.map_reverse, List.map_map]
    exact (List.reverse_perm _).nodup_iff.2 hnodup
  · exact List.mem_reverse.2 (List.mem_map_of_mem hp)

/-- One more kind, on top of none. -/
def withFields (fields : List String) : KindDefinition :=
  { label := "ExtType", home := "ext", tag := none, parent := none, fields }

def noteCatalog : Catalog := Catalog.builtin.insert "Ext" (withFields ["note"]).kind

/-- A catalog with a kind whose fields have the same key. -/
def sharedKeyCatalog : Catalog :=
  Catalog.builtin.insert "Ext" (withFields ["itemTypeId", "item_type_id"]).kind

/-- An added value that is null is left out when it is written, and missed when that is read. -/
theorem nullNote_lost : noteCatalog.Extended ∧ ∃ d w,
    decodeType noteCatalog "x" (.obj [("type", .str "Ext"), ("note", .null)]) = .ok d ∧
      encodeType d = .ok w ∧
      ¬ ∃ d', decodeType noteCatalog "x" w = .ok d' ∧ d'.agrees d = true := by
  have hextended : noteCatalog.Extended :=
    .define (d := withFields ["note"]) .builtin (fun _ hparent ↦ nomatch hparent) (by decide) rfl
  refine ⟨hextended, _, .obj [("type", .str "Ext")], rfl, rfl, ?_⟩
  rintro ⟨d', hd', -⟩
  cases hd'

def sharedKeyDescriptor (v : Value) : Descriptor where
  tag := "Ext"
  label := "ExtType"
  name := none
  note := .none
  opened := []
  body := .bare
  extras := [("itemTypeId", .value v), ("item_type_id", .typeId (.str "1"))]

/-- The id is written last, as a text. -/
theorem sharedKey_isLossless_iff {v : Value} : (sharedKeyDescriptor v).IsLossless ↔
    v ≠ .null ∧ (Value.str "1").agrees v = true := by
  have hlast : (sharedKeyDescriptor v).lastUnder (Text.camelCase "itemTypeId") =
      some (.typeId (.str "1")) := rfl
  constructor
  · intro h
    obtain ⟨hne, x, w, hx, hw, hagrees⟩ := h "itemTypeId" v List.mem_cons_self
    obtain rfl := Option.some.inj (hlast.symm.trans hx)
    obtain rfl := Except.ok.inj hw
    exact ⟨hne, hagrees⟩
  · rintro ⟨hne, hagrees⟩ name v' hp
    rcases List.mem_cons.1 hp with hp | hp
    · obtain ⟨rfl, hvalue⟩ := Prod.mk.inj hp
      obtain rfl := Extra.value.inj hvalue
      exact ⟨hne, _, _, hlast, rfl, hagrees⟩
    · cases (Prod.mk.inj (List.mem_singleton.1 hp)).2

theorem sharedKey_trip : sharedKeyCatalog.Extended ∧
    (∃ w, encodeType (sharedKeyDescriptor (.str "1")) = .ok w ∧ ∃ d',
      decodeType sharedKeyCatalog "x" w = .ok d' ∧
        d'.agrees (sharedKeyDescriptor (.str "1")) = true) ∧
    ∃ w, encodeType (sharedKeyDescriptor (.int 1)) = .ok w ∧ ¬ ∃ d',
      decodeType sharedKeyCatalog "x" w = .ok d' ∧
        d'.agrees (sharedKeyDescriptor (.int 1)) = true := by
  have hextended : sharedKeyCatalog.Extended :=
    .define (d := withFields ["itemTypeId", "item_type_id"]) .builtin
      (fun _ hparent ↦ nomatch hparent) (by decide) rfl
  have htext : decodeType sharedKeyCatalog "x"
      (.obj [("type", .str "Ext"), ("itemTypeId", .str "1")]) =
        .ok (sharedKeyDescriptor (.str "1")) := rfl
  have hint : decodeType sharedKeyCatalog "x"
      (.obj [("type", .str "Ext"), ("itemTypeId", .int 1)]) =
        .ok (sharedKeyDescriptor (.int 1)) := rfl
  obtain ⟨w, hw, htrip⟩ := decode_encode_extended hextended htext
  obtain ⟨w', hw', htrip'⟩ := decode_encode_extended hextended hint
  refine ⟨hextended, ⟨w, hw, htrip.2 (sharedKey_isLossless_iff.2 ?_)⟩, w', hw', fun hagain ↦ ?_⟩
  · simp [Value.agrees]
  · have hagrees := (sharedKey_isLossless_iff.1 (htrip'.1 hagain)).2
    simp [Value.agrees, Value.sameNumber, Value.asInt?] at hagrees

end Wire

end Typings
