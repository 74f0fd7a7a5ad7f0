import Typings.Proofs.WireNormalForm

/-!
# Defined kinds

A catalog is extended by one definition after the other. As long as the added fields have names of
their own, every kind stands under its tag and leaves the common fields closed; then a descriptor is
read from the common texts and, field by field, from the keys of its own fields.
-/

namespace Typings

/-! ## Extended catalogs -/

/-- The names of what every kind holds besides its fields. -/
def Kind.attributes : List String := [tagField, "_tag", "_registry", "for_tag"]

/-- The names that are there anyway in a kind on top of a parent, or of none. -/
def Kind.inherited (parent : Option Kind) : List String :=
  CommonField.all.map CommonField.key ++ (parent.map Kind.ownFields).getD [] ++ attributes

/-- What definitions make of the built-in kinds, if each parent is there before and no field has a
name that is inherited. -/
inductive Catalog.Extended : Catalog → Prop
  | builtin : Extended .builtin
  | define {c c' : Catalog} {d : KindDefinition} (h : Extended c)
      (hparent : ∀ parent, d.parent = some parent → ∃ tag, c.get? tag = some parent)
      (hfields : ∀ field ∈ d.fields, field ∉ Kind.inherited d.parent)
      (hdefine : c.define d = .ok c') : Extended c'

theorem CommonField.ofKey?_eq_none {key : String} (h : key ∉ all.map CommonField.key) :
    ofKey? key = none := by
  rw [ofKey?, List.find?_eq_none]
  intro f hf
  rw [decide_eq_true_eq]
  rintro rfl
  exact h (List.mem_map_of_mem hf)

theorem Kind.addField_closed {k : Kind} {field : String} (h : CommonField.ofKey? field = none) :
    (k.addField field).tag = k.tag ∧ (k.addField field).opened = k.opened := by
  rw [addField, h]
  dsimp only
  split <;> exact ⟨rfl, rfl⟩

theorem Kind.foldl_addField_closed {fields : List String}
    (h : ∀ field ∈ fields, CommonField.ofKey? field = none) (k : Kind) :
    (fields.foldl addField k).tag = k.tag ∧ (fields.foldl addField k).opened = k.opened := by
  induction fields generalizing k with
  | nil => exact ⟨rfl, rfl⟩
  | cons field fields ih =>
      obtain ⟨hfield, hfields⟩ := List.forall_mem_cons.1 h
      obtain ⟨htag, hopened⟩ := ih hfields (k.addField field)
      obtain ⟨htag', hopened'⟩ := addField_closed (k := k) hfield
      exact ⟨htag.trans htag', hopened.trans hopened'⟩

theorem Catalog.define_eq_ok {c c' : Catalog} {d : KindDefinition} (h : c.define d = .ok c') :
    c' = c.insert d.effectiveTag d.kind := by
  rw [define] at h
  split at h
  · cases h
  · cases h
  · exact (Except.ok.inj h).symm

/-- Every kind stands under its own tag, and none opens a common field. -/
theorem Catalog.Extended.of_get? {c : Catalog} (h : c.Extended) {tag : String} {kind : Kind}
    (hkind : c.get? tag = some kind) : kind.tag = tag ∧ kind.opened = [] := by
  induction h generalizing tag kind with
  | builtin =>
      obtain ⟨b, rfl, rfl⟩ := Wire.builtin_get?_eq_some_iff.1 hkind
      exact ⟨rfl, rfl⟩
  | @define c c' d _ hparent hfields hdefine ih =>
      rw [define_eq_ok hdefine, Table.get?_insert] at hkind
      split at hkind
      · next htag =>
        obtain rfl := Option.some.inj hkind
        have hnone : ∀ field ∈ d.fields, CommonField.ofKey? field = none := by
          intro field hfield
          refine CommonField.ofKey?_eq_none fun hkey ↦ hfields field hfield ?_
          exact List.mem_append_left _ (List.mem_append_left _ hkey)
        obtain ⟨htag', hopened⟩ := Kind.foldl_addField_closed hnone _
        refine ⟨htag'.trans htag, hopened.trans ?_⟩
        cases hd : d.parent with
        | none => rfl
        | some parent =>
            obtain ⟨tag, hget⟩ := hparent parent hd
            exact (ih hget).2
      · exact ih hkind

/-! ## What a descriptor holds -/

namespace Descriptor

/-- The fields that are not common, under their names. -/
def ownFields (d : Descriptor) : List (String × Extra) := d.body.slot?.toList ++ d.extras

def commonText (d : Descriptor) : CommonField → Option String
  | .name => d.name
  | .description => d.note.description
  | .deprecated => d.note.deprecated

theorem common_of_closed {d : Descriptor} (h : d.opened = []) (f : CommonField) :
    d.common f = .ofText (d.commonText f) := by
  rw [common.eq_def, h]
  cases f <;> rfl

end Descriptor

theorem Body.map_fst_slot? (body : Body) :
    body.slot?.map Prod.fst = body.builtin?.bind Builtin.slot? := by
  cases body <;> rfl

namespace Wire

section

variable {id : String} {members : List (String × Json)}

/-! ## Fields by name -/

theorem bind_pure_eq_ok_iff {ε α β : Type} {x : Except ε α} {f : α → β} {b : β} :
    (do return f (← x)) = Except.ok b ↔ ∃ a, x = .ok a ∧ f a = b := by
  cases x with
  | error e => simp [bind, Except.bind]
  | ok a => simp [bind, Except.bind, pure, Except.pure]

variable {x : Extra}

theorem decodeExtra_fields_iff : decodeExtra id members "fields" = .ok x ↔
    ∃ fields, decodeFields id members = .ok fields ∧ .fields fields = x := by
  rw [decodeExtra, if_pos rfl, bind_pure_eq_ok_iff]

theorem decodeExtra_typeIds_iff : decodeExtra id members "item_type_ids" = .ok x ↔
    ∃ ids, decodeTypeIds id members = .ok ids ∧ .typeIds ids = x := by
  rw [decodeExtra, if_neg (by decide), if_pos rfl, bind_pure_eq_ok_iff]

theorem decodeExtra_typeId_iff : decodeExtra id members "item_type_id" = .ok x ↔
    ∃ item, decodeTypeId id members = .ok item ∧ .typeId item = x := by
  rw [decodeExtra, if_neg (by decide), if_neg (by decide), if_pos rfl, bind_pure_eq_ok_iff]

theorem decodeExtra_value_iff : decodeExtra id members "value" = .ok x ↔
    ∃ v, decodeLiteral id members = .ok v ∧ .value v = x := by
  rw [decodeExtra, if_neg (by decide), if_neg (by decide), if_neg (by decide), if_pos rfl,
    bind_pure_eq_ok_iff]

/-- The names under which an added field is not just any value. -/
def specialNames : List String := ["fields", "item_type_ids", "item_type_id", "value"]

theorem mem_specialNames_iff {name : String} : name ∈ specialNames ↔
    name = "fields" ∨ name = "item_type_ids" ∨ name = "item_type_id" ∨ name = "value" := by
  simp only [specialNames, List.mem_cons, List.not_mem_nil, or_false]

theorem decodeExtra_raw {name : String} (h : name ∉ specialNames) :
    decodeExtra id members name =
      do return .value (.ofJson (← require (.type id) members (Text.camelCase name))) := by
  simp only [mem_specialNames_iff, not_or] at h
  rw [decodeExtra, if_neg h.1, if_neg h.2.1, if_neg h.2.2.1, if_neg h.2.2.2]

theorem decodeExtra_raw_iff {name : String} (h : name ∉ specialNames) :
    decodeExtra id members name = .ok x ↔
      ∃ w, Assoc.find? (Text.camelCase name) members = some w ∧ .value (.ofJson w) = x := by
  rw [decodeExtra_raw h, bind_pure_eq_ok_iff]
  simp only [require_eq_ok_iff]

/-! ## Bodies and extras -/

/-- The body of a kind is read like a field of the name that it is held under. -/
theorem decodeBody_eq_ok_iff {base : Option Builtin} {body : Body} :
    decodeBody id members base = .ok body ↔
      body.builtin? = base ∧ ∀ p ∈ body.slot?, decodeExtra id members p.1 = .ok p.2 := by
  constructor
  · intro h
    cases base with
    | none =>
        obtain rfl := Except.ok.inj h
        exact ⟨rfl, fun _ hp ↦ nomatch hp⟩
    | some b =>
        cases b with
        | primitive p =>
            obtain rfl := Except.ok.inj h
            exact ⟨rfl, fun _ hp ↦ nomatch hp⟩
        | literal =>
            obtain ⟨v, hv, rfl⟩ := bind_pure_eq_ok_iff.1 h
            refine ⟨rfl, ?_⟩
            rintro _ ⟨⟩
            exact decodeExtra_value_iff.2 ⟨v, hv, rfl⟩
        | wrapper w =>
            obtain ⟨item, hitem, rfl⟩ := bind_pure_eq_ok_iff.1 h
            refine ⟨rfl, ?_⟩
            rintro _ ⟨⟩
            exact decodeExtra_typeId_iff.2 ⟨item, hitem, rfl⟩
        | junction j =>
            obtain ⟨ids, hids, rfl⟩ := bind_pure_eq_ok_iff.1 h
            refine ⟨rfl, ?_⟩
            rintro _ ⟨⟩
            exact decodeExtra_typeIds_iff.2 ⟨ids, hids, rfl⟩
        | fieldSet f =>
            obtain ⟨fields, hfields, rfl⟩ := bind_pure_eq_ok_iff.1 h
            refine ⟨rfl, ?_⟩
            rintro _ ⟨⟩
            exact decodeExtra_fields_iff.2 ⟨fields, hfields, rfl⟩
  · rintro ⟨rfl, h⟩
    cases body with
    | primitive p => rfl
    | bare => rfl
    | literal v =>
        obtain ⟨v, hv, ⟨⟩⟩ := decodeExtra_value_iff.1 (h _ rfl)
        exact bind_pure_eq_ok_iff.2 ⟨v, hv, rfl⟩
    | wrapper w item =>
        obtain ⟨item, hitem, ⟨⟩⟩ := decodeExtra_typeId_iff.1 (h _ rfl)
        exact bind_pure_eq_ok_iff.2 ⟨item, hitem, rfl⟩
    | junction j ids =>
        obtain ⟨ids, hids, ⟨⟩⟩ := decodeExtra_typeIds_iff.1 (h _ rfl)
        exact bind_pure_eq_ok_iff.2 ⟨ids, hids, rfl⟩
    | fieldSet f fields =>
        obtain ⟨fields, hfields, ⟨⟩⟩ := decodeExtra_fields_iff.1 (h _ rfl)
        exact bind_pure_eq_ok_iff.2 ⟨fields, hfields, rfl⟩

theorem decodeExtras_eq_ok_iff {names : List String} {xs : List (String × Extra)} :
    decodeExtras id members names = .ok xs ↔
      xs.map Prod.fst = names ∧ ∀ p ∈ xs, decodeExtra id members p.1 = .ok p.2 := by
  induction names generalizing xs with
  | nil =>
      rw [decodeExtras, List.map_eq_nil_iff, Except.ok.injEq, eq_comm]
      refine ⟨fun hxs ↦ ⟨hxs, ?_⟩, And.left⟩
      rw [hxs]
      exact List.forall_mem_nil _
  | cons name names ih =>
      constructor
      · intro h
        obtain ⟨x, hx, h⟩ := exists_of_bind_eq_ok h
        obtain ⟨rest, hrest, rfl⟩ := bind_pure_eq_ok_iff.1 h
        obtain ⟨hnames, hall⟩ := ih.1 hrest
        exact ⟨congrArg (name :: ·) hnames, List.forall_mem_cons.2 ⟨hx, hall⟩⟩
      · rintro ⟨hnames, hall⟩
        obtain ⟨⟨_, x⟩, rest, rfl, rfl, hrest⟩ := List.map_eq_cons_iff.1 hnames
        obtain ⟨hx, hall⟩ := List.forall_mem_cons.1 hall
        dsimp only at hx
        rw [decodeExtras, hx]
        exact bind_pure_eq_ok_iff.2 ⟨rest, ih.2 ⟨hrest, hall⟩, rfl⟩

theorem exists_decodeBody_of_slot {base : Option Builtin}
    (h : ∀ name ∈ base.bind Builtin.slot?, ∃ x, decodeExtra id members name = .ok x) :
    ∃ body, decodeBody id members base = .ok body := by
  cases base with
  | none => exact ⟨.bare, rfl⟩
  | some b =>
      cases b with
      | primitive p => exact ⟨.primitive p, rfl⟩
      | literal =>
          obtain ⟨_, hx⟩ := h _ rfl
          obtain ⟨v, hv, -⟩ := decodeExtra_value_iff.1 hx
          exact ⟨_, bind_pure_eq_ok_iff.2 ⟨v, hv, rfl⟩⟩
      | wrapper w =>
          obtain ⟨_, hx⟩ := h _ rfl
          obtain ⟨item, hitem, -⟩ := decodeExtra_typeId_iff.1 hx
          exact ⟨_, bind_pure_eq_ok_iff.2 ⟨item, hitem, rfl⟩⟩
      | junction j =>
          obtain ⟨_, hx⟩ := h _ rfl
          obtain ⟨ids, hids, -⟩ := decodeExtra_typeIds_iff.1 hx
          exact ⟨_, bind_pure_eq_ok_iff.2 ⟨ids, hids, rfl⟩⟩
      | fieldSet f =>
          obtain ⟨_, hx⟩ := h _ rfl
          obtain ⟨fields, hfields, -⟩ := decodeExtra_fields_iff.1 hx
          exact ⟨_, bind_pure_eq_ok_iff.2 ⟨fields, hfields, rfl⟩⟩

theorem exists_decodeExtras {names : List String}
    (h : ∀ name ∈ names, ∃ x, decodeExtra id members name = .ok x) :
    ∃ xs, decodeExtras id members names = .ok xs := by
  induction names with
  | nil => exact ⟨[], rfl⟩
  | cons name names ih =>
      obtain ⟨⟨x, hx⟩, hnames⟩ := List.forall_mem_cons.1 h
      obtain ⟨xs, hxs⟩ := ih hnames
      rw [decodeExtras, hx]
      exact ⟨_, bind_pure_eq_ok_iff.2 ⟨xs, hxs, rfl⟩⟩

/-! ## Descriptors -/

/-- What is read for a descriptor of a kind that leaves the common fields closed. -/
structure ReadAs (kind : Kind) (id : String) (members : List (String × Json)) (d : Descriptor) :
    Prop where
  inhabited : kind.isInhabited = true
  tag : d.tag = kind.tag
  label : d.label = kind.label
  opened : d.opened = []
  common : ∀ f : CommonField, optionalText (.type id) members f.key = .ok (d.commonText f)
  builtin : d.body.builtin? = kind.base
  names : d.extras.map Prod.fst = kind.extras
  own : ∀ p ∈ d.ownFields, decodeExtra id members p.1 = .ok p.2

theorem decodeCommon_closed_iff {kind : Kind} (h : kind.opened = []) {site : Site}
    {f : CommonField} {common : Common} : decodeCommon kind site members f = .ok common ↔
      ∃ s, optionalText site members f.key = .ok s ∧ .text s = common := by
  have hclosed : ¬ kind.opens f = true := by simp [Kind.opens, h]
  rw [decodeCommon, if_neg hclosed, bind_pure_eq_ok_iff]

theorem readAs_of_decodeType {c : Catalog} (hc : c.Extended) {v : Json} {d : Descriptor}
    (h : decodeType c id v = .ok d) : ∃ members kind, v = .obj members ∧
      Assoc.find? "type" members = some (.str kind.tag) ∧ c.get? kind.tag = some kind ∧
        ReadAs kind id members d := by
  obtain ⟨members, tag, kind, hobj, htag, hkind, hd⟩ := decodedBy_of_decodeType h
  obtain ⟨rfl, hopened⟩ := hc.of_get? hkind
  obtain ⟨hinhabited, hname, hdescription, hdeprecated, hbody, hextras⟩ := hd
  obtain ⟨name, hname', rfl⟩ := (decodeCommon_closed_iff hopened).1 hname
  obtain ⟨description, hdescription', rfl⟩ := (decodeCommon_closed_iff hopened).1 hdescription
  obtain ⟨deprecated, hdeprecated', rfl⟩ := (decodeCommon_closed_iff hopened).1 hdeprecated
  obtain ⟨hbuiltin, hslot⟩ := decodeBody_eq_ok_iff.1 hbody
  obtain ⟨hnames, hown⟩ := decodeExtras_eq_ok_iff.1 hextras
  refine ⟨members, kind, hobj, htag, hkind, hinhabited, rfl, rfl, rfl, ?_, hbuiltin, hnames, ?_⟩
  · rintro (_ | _ | _)
    · exact hname'
    · exact hdescription'
    · exact hdeprecated'
  · intro p hp
    rcases List.mem_append.1 hp with hp | hp
    · exact hslot p (Option.mem_toList.1 hp)
    · exact hown p hp

theorem ReadAs.decodeType_eq {c : Catalog} (hc : c.Extended) {kind : Kind} {d : Descriptor}
    (h : ReadAs kind id members d)
    (htag : Assoc.find? "type" members = some (.str kind.tag))
    (hkind : c.get? kind.tag = some kind) : decodeType c id (.obj members) = .ok d := by
  have hclosed := (hc.of_get? hkind).2
  have hcommon (f : CommonField) := (decodeCommon_closed_iff hclosed).2 ⟨_, h.common f, rfl⟩
  have hbody : decodeBody id members kind.base = .ok d.body := by
    refine decodeBody_eq_ok_iff.2 ⟨h.builtin, fun p hp ↦ h.own p ?_⟩
    exact List.mem_append_left _ (Option.mem_toList.2 hp)
  have hextras : decodeExtras id members kind.extras = .ok d.extras :=
    decodeExtras_eq_ok_iff.2 ⟨h.names, fun p hp ↦ h.own p (List.mem_append_right _ hp)⟩
  simp only [decodeType, asObject, require_eq_ok htag, hkind, hcommon, bind, Except.bind, hbody,
    hextras, h.inhabited]
  obtain ⟨tag, label, name, ⟨description, deprecated⟩, opened, body, extras⟩ := d
  obtain rfl : tag = kind.tag := h.tag
  obtain rfl : label = kind.label := h.label
  obtain rfl : opened = [] := h.opened
  rfl

/-- What holds the common texts and the own fields of a kind can be read as one of it. -/
theorem exists_readAs {kind : Kind} (hinhabited : kind.isInhabited = true)
    (texts : CommonField → Option String)
    (hcommon : ∀ f : CommonField, optionalText (.type id) members f.key = .ok (texts f))
    (hown : ∀ name ∈ kind.ownFields, ∃ x, decodeExtra id members name = .ok x) :
    ∃ d, ReadAs kind id members d ∧ d.commonText = texts := by
  obtain ⟨body, hbody⟩ := exists_decodeBody_of_slot fun name hname ↦
    hown name (List.mem_append_left _ (Option.mem_toList.2 hname))
  obtain ⟨extras, hextras⟩ := exists_decodeExtras fun name hname ↦
    hown name (List.mem_append_right _ hname)
  obtain ⟨hbuiltin, hslot⟩ := decodeBody_eq_ok_iff.1 hbody
  obtain ⟨hnames, hall⟩ := decodeExtras_eq_ok_iff.1 hextras
  have htexts : Descriptor.commonText
      { tag := kind.tag, label := kind.label, name := texts .name,
        note := ⟨texts .description, texts .deprecated⟩, opened := [], body, extras } = texts := by
    funext f
    cases f <;> rfl
  refine ⟨_, ⟨hinhabited, rfl, rfl, rfl, ?_, hbuiltin, hnames, ?_⟩, htexts⟩
  · rwa [htexts]
  · intro p hp
    rcases List.mem_append.1 hp with hp | hp
    · exact hslot p (Option.mem_toList.1 hp)
    · exact hall p hp

end

end Wire

end Typings
