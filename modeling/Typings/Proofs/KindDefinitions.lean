import Typings.Proofs.ExtendedKinds

/-!
# Runs of definitions

Kinds are defined one after another, and a definition that is refused changes nothing. Each asks for
one tag. If its fields can stand in their order, it is refused exactly if that tag is taken, and
otherwise adds its kind under that tag, at the end. So a tag keeps its kind, each kind has a tag of
its own, and what is read under a tag is a descriptor of the kind with this tag.
-/

namespace Typings

/-! ## The tag that is asked for -/

namespace KindDefinition

variable {d : KindDefinition} {tag : String}

/-- A definition asks for the tag that is given unless it is empty, else for its label without one
`Type` at its end. -/
inductive AsksFor (d : KindDefinition) : String → Prop
  | given {tag : String} (htag : d.tag = some tag) (hne : tag ≠ "") : AsksFor d tag
  | trimmed {stem : String} (hvoid : ∀ tag ∈ d.tag, tag = "") (hlabel : d.label = stem ++ "Type") :
      AsksFor d stem
  | whole (hvoid : ∀ tag ∈ d.tag, tag = "") (hlabel : ∀ stem, d.label ≠ stem ++ "Type") :
      AsksFor d d.label

theorem defaultTag_append (stem : String) : defaultTag (stem ++ "Type") = stem := by
  have hsuffix : "Type".toList.isSuffixOf (stem.toList ++ "Type".toList) = true :=
    List.isSuffixOf_iff_suffix.2 (List.suffix_append _ _)
  have hlength : (stem.toList ++ "Type".toList).length - 4 = stem.toList.length := by
    rw [List.length_append]
    exact Nat.add_sub_cancel _ 4
  rw [defaultTag, String.toList_append, if_pos hsuffix, hlength, List.take_left,
    String.ofList_toList]

theorem defaultTag_eq_self {label : String} (h : ∀ stem, label ≠ stem ++ "Type") :
    defaultTag label = label := by
  refine if_neg fun hsuffix ↦ ?_
  obtain ⟨stem, hstem⟩ := List.isSuffixOf_iff_suffix.1 hsuffix
  refine h (String.ofList stem) (String.toList_injective ?_)
  rw [String.toList_append, String.toList_ofList, hstem]

theorem effectiveTag_of_void (h : ∀ tag ∈ d.tag, tag = "") :
    d.effectiveTag = defaultTag d.label := by
  rw [effectiveTag]
  split
  · next tag htag => exact if_pos (h tag htag)
  · rfl

theorem asksFor_iff : d.AsksFor tag ↔ d.effectiveTag = tag := by
  constructor
  · rintro (⟨htag, hne⟩ | ⟨hvoid, hlabel⟩ | ⟨hvoid, hlabel⟩)
    · rw [effectiveTag, htag]
      exact if_neg hne
    · rw [effectiveTag_of_void hvoid, hlabel, defaultTag_append]
    · rw [effectiveTag_of_void hvoid, defaultTag_eq_self hlabel]
  · rintro rfl
    by_cases hvoid : ∀ tag ∈ d.tag, tag = ""
    · rw [effectiveTag_of_void hvoid]
      by_cases hlabel : ∃ stem, d.label = stem ++ "Type"
      · obtain ⟨stem, hstem⟩ := hlabel
        rw [hstem, defaultTag_append]
        exact .trimmed hvoid hstem
      · have hwhole : ∀ stem, d.label ≠ stem ++ "Type" := not_exists.1 hlabel
        rw [defaultTag_eq_self hwhole]
        exact .whole hvoid hwhole
    · push Not at hvoid
      obtain ⟨tag, htag, hne⟩ := hvoid
      have hgiven : d.effectiveTag = tag := by
        rw [effectiveTag, Option.mem_def.1 htag]
        exact if_neg hne
      exact hgiven ▸ .given htag hne

end KindDefinition

/-! ## The order of fields -/

theorem mem_dropWhile_append {α : Type} {p : α → Bool} {before after : List α} {x y : α}
    (hx : x ∈ before) (hp : p x = false) (hy : y ∈ after) :
    y ∈ (before ++ after).dropWhile p := by
  induction before with
  | nil => cases hx
  | cons b before ih =>
      rw [List.cons_append, List.dropWhile_cons]
      split
      · next hb =>
        rcases List.mem_cons.1 hx with rfl | hx
        · exact absurd hb (Bool.eq_false_iff.1 hp)
        · exact ih hx
      · exact List.mem_cons_of_mem _ (List.mem_append_right _ hy)

namespace Kind

variable {k : Kind}

/-- A field that must be filled stands after one that may be left out. -/
def Misplaces (k : Kind) (field : String) : Prop :=
  ∃ before after, k.ownFields = before ++ field :: after ∧ field ≠ tagField ∧
    (k.opened ≠ [] ∨ tagField ∈ before)

theorem misplaces_of_requiredAfterOptional? {field : String}
    (h : k.requiredAfterOptional? = some field) : k.Misplaces field := by
  rw [requiredAfterOptional?] at h
  split at h
  · obtain ⟨hfield, before, after, hdrop, hbefore⟩ := List.find?_eq_some_iff_append.1 h
    refine ⟨k.ownFields.takeWhile (· != tagField) ++ before, after, ?_, bne_iff_ne.1 hfield,
      .inr (List.mem_append_right _ ?_)⟩
    · rw [List.append_assoc, ← hdrop, List.takeWhile_append_dropWhile]
    · -- What is left begins with a field that may be left out, and that is not `field`.
      cases before with
      | nil =>
          have hhead := List.head?_dropWhile_not (· != tagField) k.ownFields
          rw [hdrop] at hhead
          exact absurd hfield (Bool.eq_false_iff.1 hhead)
      | cons b before =>
          have hb : b = tagField := by simpa using hbefore b List.mem_cons_self
          exact hb ▸ List.mem_cons_self
  · next hopened =>
    obtain ⟨hfield, before, after, hfields, -⟩ := List.find?_eq_some_iff_append.1 h
    exact ⟨before, after, hfields, bne_iff_ne.1 hfield, .inl (by rw [hopened]; exact nofun)⟩

theorem not_misplaces_of_requiredAfterOptional? (h : k.requiredAfterOptional? = none)
    (field : String) : ¬ k.Misplaces field := by
  rintro ⟨before, after, hfields, hfield, hoptional⟩
  rw [requiredAfterOptional?] at h
  split at h
  · next hopened =>
    have hbefore : tagField ∈ before := hoptional.resolve_left fun hne ↦ hne hopened
    refine List.find?_eq_none.1 h field ?_ (bne_iff_ne.2 hfield)
    rw [hfields]
    exact mem_dropWhile_append hbefore (bne_self_eq_false _) List.mem_cons_self
  · refine List.find?_eq_none.1 h field ?_ (bne_iff_ne.2 hfield)
    rw [hfields]
    exact List.mem_append_right _ List.mem_cons_self

theorem addField_tag (k : Kind) (field : String) : (k.addField field).tag = k.tag := by
  rw [addField]
  split <;> split <;> rfl

theorem foldl_addField_tag (fields : List String) (k : Kind) :
    (fields.foldl addField k).tag = k.tag := by
  induction fields generalizing k with
  | nil => rfl
  | cons field fields ih => exact (ih _).trans (addField_tag k field)

end Kind

theorem KindDefinition.kind_tag (d : KindDefinition) : d.kind.tag = d.effectiveTag :=
  Kind.foldl_addField_tag d.fields _

/-! ## Attempts -/

namespace Catalog

variable {c : Catalog} {d : KindDefinition} {ds : List KindDefinition} {tag : String} {kind : Kind}

/-- The catalog after a definition, which stays as it is if that is refused. -/
def attempt (c : Catalog) (d : KindDefinition) : Catalog :=
  match c.define d with
  | .ok c' => c'
  | .error _ => c

def after (c : Catalog) (ds : List KindDefinition) : Catalog := ds.foldl attempt c

/-- The parent of a definition is one of the kinds. -/
def HasParent (c : Catalog) (d : KindDefinition) : Prop :=
  ∀ parent, d.parent = some parent → ∃ tag, c.get? tag = some parent

theorem HasParent.of_get? {parent : Kind} (hd : d.parent = some parent) (tag : String)
    (hget : c.get? tag = some parent) : c.HasParent d := by
  rintro _ hd'
  obtain rfl := Option.some.inj (hd.symm.trans hd')
  exact ⟨tag, hget⟩

/-- Each definition is on top of a kind that is there when it is attempted, or of none. -/
def Grounded : Catalog → List KindDefinition → Prop
  | _, [] => True
  | c, d :: rest => c.HasParent d ∧ Grounded (c.attempt d) rest

/-- What comes of a definition, and the catalog after it. -/
inductive Outcome (c : Catalog) (d : KindDefinition) :
    Except DefinitionError Catalog → Catalog → Prop
  /-- Its fields cannot stand in their order, whatever its tag. -/
  | misplaced {field : String} (h : d.kind.Misplaces field) :
      Outcome c d (.error (.requiredAfterOptional field)) c
  | taken {tag : String} {holder : Kind} (hplaced : ∀ field, ¬ d.kind.Misplaces field)
      (htag : d.AsksFor tag) (hholder : c.get? tag = some holder) :
      Outcome c d (.error (.tagTaken holder)) c
  | added {tag : String} {c' : Catalog} (hplaced : ∀ field, ¬ d.kind.Misplaces field)
      (htag : d.AsksFor tag) (hfree : c.get? tag = none)
      (hentries : c'.entries = c.entries ++ [(tag, d.kind)]) : Outcome c d (.ok c') c'

theorem entries_insert (h : c.get? tag = none) :
    (c.insert tag kind).entries = c.entries ++ [(tag, kind)] := by
  refine Assoc.insert_of_notMem fun hmem ↦ ?_
  obtain ⟨p, hp, rfl⟩ := List.mem_map.1 hmem
  rw [Table.get?_eq_some_iff.2 hp] at h
  cases h

theorem outcome_define (c : Catalog) (d : KindDefinition) :
    Outcome c d (c.define d) (c.attempt d) := by
  rw [attempt, define]
  cases hfield : d.kind.requiredAfterOptional? with
  | some field => exact .misplaced (Kind.misplaces_of_requiredAfterOptional? hfield)
  | none =>
      have hplaced := Kind.not_misplaces_of_requiredAfterOptional? hfield
      have htag : d.AsksFor d.effectiveTag := KindDefinition.asksFor_iff.2 rfl
      cases hget : c.get? d.effectiveTag with
      | some holder => exact .taken hplaced htag hget
      | none => exact .added hplaced htag hget (entries_insert hget)

/-- Under each tag stands a kind with this tag, whose fields are in order. -/
structure Sound (c : Catalog) : Prop where
  tag {tag : String} {kind : Kind} (h : c.get? tag = some kind) : kind.tag = tag
  placed {tag : String} {kind : Kind} (h : c.get? tag = some kind) (field : String) :
    ¬ kind.Misplaces field

theorem sound_builtin : Sound .builtin where
  tag h := by
    obtain ⟨b, rfl, rfl⟩ := Wire.builtin_get?_eq_some_iff.1 h
    rfl
  placed h := by
    obtain ⟨b, rfl, rfl⟩ := Wire.builtin_get?_eq_some_iff.1 h
    apply Kind.not_misplaces_of_requiredAfterOptional?
    cases b <;> rfl

/-- Nothing is there after a definition that was not there before, but the kind it adds. -/
theorem Outcome.of_get? {result : Except DefinitionError Catalog} {c' : Catalog}
    (ho : Outcome c d result c') (h : c'.get? tag = some kind) : c.get? tag = some kind ∨
      kind = d.kind ∧ d.AsksFor tag ∧ ∀ field, ¬ d.kind.Misplaces field := by
  cases ho with
  | misplaced | taken => exact .inl h
  | added hplaced htag hfree hentries =>
      rw [Table.get?_eq_some_iff, hentries] at h
      rcases List.mem_append.1 h with h | h
      · exact .inl (Table.get?_eq_some_iff.2 h)
      · obtain ⟨rfl, rfl⟩ := Prod.mk.inj (List.mem_singleton.1 h)
        exact .inr ⟨rfl, htag, hplaced⟩

theorem Outcome.get?_of_get? {result : Except DefinitionError Catalog} {c' : Catalog}
    (ho : Outcome c d result c') (h : c.get? tag = some kind) : c'.get? tag = some kind := by
  cases ho with
  | misplaced | taken => exact h
  | added hplaced htag hfree hentries =>
      rw [Table.get?_eq_some_iff, hentries]
      exact List.mem_append_left _ (Table.get?_eq_some_iff.1 h)

theorem Sound.attempt (h : c.Sound) (d : KindDefinition) : (c.attempt d).Sound where
  tag hget := by
    rcases (outcome_define c d).of_get? hget with hget | ⟨rfl, htag, -⟩
    · exact h.tag hget
    · exact d.kind_tag.trans (KindDefinition.asksFor_iff.1 htag)
  placed hget := by
    rcases (outcome_define c d).of_get? hget with hget | ⟨rfl, -, hplaced⟩
    · exact h.placed hget
    · exact hplaced

theorem Sound.after (h : c.Sound) (ds : List KindDefinition) : (c.after ds).Sound := by
  induction ds generalizing c with
  | nil => exact h
  | cons d ds ih => exact ih (h.attempt d)

theorem get?_after (h : c.get? tag = some kind) (ds : List KindDefinition) :
    (c.after ds).get? tag = some kind := by
  induction ds generalizing c with
  | nil => exact h
  | cons d ds ih => exact ih ((outcome_define c d).get?_of_get? h)

theorem after_append (c : Catalog) (ds ds' : List KindDefinition) :
    c.after (ds ++ ds') = (c.after ds).after ds' := List.foldl_append

theorem grounded_append {ds' : List KindDefinition} :
    Grounded c (ds ++ ds') ↔ Grounded c ds ∧ Grounded (c.after ds) ds' := by
  induction ds generalizing c with
  | nil => exact ⟨fun h ↦ ⟨trivial, h⟩, And.right⟩
  | cons d ds ih =>
      rw [List.cons_append, Grounded, Grounded, ih, and_assoc]
      rfl

theorem Sound.get?_tag (h : c.Sound) (hkind : kind ∈ c.values) : c.get? kind.tag = some kind := by
  obtain ⟨⟨tag, _⟩, hp, rfl⟩ := List.mem_map.1 hkind
  have hget := Table.get?_eq_some_iff.2 hp
  rwa [h.tag hget]

theorem Sound.nodup_tags (h : c.Sound) : (c.values.map Kind.tag).Nodup := by
  have hkeys : c.values.map Kind.tag = c.entries.map Prod.fst := by
    rw [Table.values, List.map_map]
    exact List.map_congr_left fun p hp ↦ h.tag (Table.get?_eq_some_iff.2 hp)
  exact hkeys ▸ c.nodup_keys

/-- A definition that adds no field has the fields of its parent, in an order that was accepted. -/
theorem Sound.not_misplaces (h : c.Sound) (hparent : c.HasParent d) (hfields : d.fields = [])
    (field : String) : ¬ d.kind.Misplaces field := by
  rw [KindDefinition.kind, hfields]
  cases hd : d.parent with
  | none =>
      apply Kind.not_misplaces_of_requiredAfterOptional?
      rfl
  | some parent =>
      obtain ⟨tag, hget⟩ := hparent parent hd
      exact h.placed hget field

/-- What is added on top of a kind does not answer to the tag of that kind. -/
theorem Sound.tag_ne_parent (h : c.Sound) (hparent : c.HasParent d) {c' : Catalog}
    (hdefine : c.define d = .ok c') {parent : Kind} (hd : d.parent = some parent) :
    d.kind.tag ≠ parent.tag ∧ c'.get? d.kind.tag = some d.kind ∧
      c'.get? parent.tag = some parent := by
  obtain ⟨tag, hget⟩ := hparent parent hd
  obtain rfl := h.tag hget
  have ho := outcome_define c d
  rw [Catalog.attempt, hdefine] at ho
  cases ho with
  | @added tag _ hplaced htag hfree hentries =>
      -- The tag was free, while that of the parent was not.
      obtain rfl : d.kind.tag = tag := d.kind_tag.trans (KindDefinition.asksFor_iff.1 htag)
      refine ⟨fun heq ↦ ?_, Table.get?_eq_some_iff.2 ?_, Table.get?_eq_some_iff.2 ?_⟩
      · rw [heq, hget] at hfree
        cases hfree
      · rw [hentries]
        exact List.mem_append_right _ (List.mem_singleton_self _)
      · rw [hentries]
        exact List.mem_append_left _ (Table.get?_eq_some_iff.1 hget)

end Catalog

/-! ## Descriptors of a kind -/

/-- A descriptor is one of a kind if it has its tag and label and just the fields that it has. -/
structure Descriptor.IsOf (d : Descriptor) (kind : Kind) : Prop where
  inhabited : kind.isInhabited = true
  tag : d.tag = kind.tag
  label : d.label = kind.label
  builtin : d.body.builtin? = kind.base
  opened : d.opened.map Prod.fst = CommonField.all.filter kind.opens
  extras : d.extras.map Prod.fst = kind.extras

theorem Descriptor.IsOf.opened_eq_nil {d : Descriptor} {kind : Kind} (h : d.IsOf kind)
    (hclosed : kind.opened = []) : d.opened = [] := by
  have hnone : CommonField.all.filter kind.opens = [] := by
    rw [List.filter_eq_nil_iff]
    intro f _ hopens
    rw [Kind.opens, hclosed] at hopens
    cases hopens
  exact List.map_eq_nil_iff.1 (h.opened.trans hnone)

namespace Catalog

variable {c : Catalog} {tag : String} {kind : Kind}

/-- Only kinds without a body open common fields, as the body must be filled and cannot stand after
a field that may be left out. -/
theorem Sound.opened_eq_nil (h : c.Sound) (hget : c.get? tag = some kind) {b : Builtin}
    {slot : String} (hbase : kind.base = some b) (hslot : b.slot? = some slot) :
    kind.opened = [] := by
  by_contra hopened
  have hfields : kind.ownFields = slot :: kind.extras := by
    rw [Kind.ownFields, hbase, Option.bind_some, hslot]
    rfl
  have hfield : slot ≠ Kind.tagField := by
    rintro rfl
    cases b <;> simp [Builtin.slot?, Kind.tagField] at hslot
  exact h.placed hget slot ⟨[], kind.extras, hfields, hfield, .inl hopened⟩

/-- So the name and the documentation of a field set, which go into its declaration, are texts. -/
theorem Sound.common_fieldSet (h : c.Sound) (hget : c.get? tag = some kind) {d : Descriptor}
    (hd : d.IsOf kind) {f : FieldSet} {fields : Table Field} (hbody : d.body = .fieldSet f fields)
    (field : CommonField) : d.common field = .ofText (d.commonText field) := by
  have hbase : kind.base = some (.fieldSet f) := by
    rw [← hd.builtin, hbody]
    rfl
  exact Descriptor.common_of_closed (hd.opened_eq_nil (h.opened_eq_nil hget hbase rfl)) field

end Catalog

namespace Wire

variable {id : String} {members : List (String × Json)}

theorem isSome_value?_of_decodeCommon {kind : Kind} {site : Site} {f : CommonField}
    {common : Common} (h : decodeCommon kind site members f = .ok common) :
    common.value?.isSome = kind.opens f := by
  rw [decodeCommon] at h
  split at h
  · next hopens =>
    obtain ⟨v, -, rfl⟩ := bind_pure_eq_ok_iff.1 h
    exact hopens.symm
  · next hopens =>
    obtain ⟨s, -, rfl⟩ := bind_pure_eq_ok_iff.1 h
    exact (Bool.eq_false_iff.2 hopens).symm

theorem map_fst_filterMap_value? {kind : Kind} {read : List (CommonField × Common)}
    (h : ∀ p ∈ read, p.2.value?.isSome = kind.opens p.1) :
    (read.filterMap fun (f, common) ↦ common.value?.map fun v ↦ (f, v)).map Prod.fst =
      (read.map Prod.fst).filter kind.opens := by
  induction read with
  | nil => rfl
  | cons p read ih =>
      obtain ⟨f, common⟩ := p
      obtain ⟨hf, hread⟩ := List.forall_mem_cons.1 h
      cases common with
      | text t =>
          have hclosed : ¬ kind.opens f = true := Bool.eq_false_iff.1 hf.symm
          rw [List.map_cons, List.filter_cons_of_neg hclosed]
          exact ih hread
      | value v =>
          rw [List.map_cons, List.filter_cons_of_pos hf.symm]
          exact congrArg (f :: ·) (ih hread)

/-- What is read under a tag is a descriptor of the kind under this tag. -/
theorem isOf_of_decodeType {c : Catalog} {v : Json} {d : Descriptor}
    (h : decodeType c id v = .ok d) : ∃ members tag kind, v = .obj members ∧
      Assoc.find? "type" members = some (.str tag) ∧ c.get? tag = some kind ∧ d.IsOf kind := by
  obtain ⟨members, tag, kind, hobj, htag, hkind, hd⟩ := decodedBy_of_decodeType h
  refine ⟨members, tag, kind, hobj, htag, hkind, ?_⟩
  obtain ⟨hinhabited, hname, hdescription, hdeprecated, hbody, hextras⟩ := hd
  refine ⟨hinhabited, rfl, rfl, (decodeBody_eq_ok_iff.1 hbody).1, ?_,
    (decodeExtras_eq_ok_iff.1 hextras).1⟩
  apply map_fst_filterMap_value?
  intro p hp
  simp only [List.mem_cons, List.not_mem_nil, or_false] at hp
  rcases hp with rfl | rfl | rfl
  · exact isSome_value?_of_decodeCommon hname
  · exact isSome_value?_of_decodeCommon hdescription
  · exact isSome_value?_of_decodeCommon hdeprecated

end Wire

/-! ## Tags over a run of definitions -/

namespace Catalog

/-- What holds of tags over a run of definitions on top of the built-in kinds. -/
structure KeepsTags (ds : List KindDefinition) : Prop where
  outcome {before rest : List KindDefinition} {d : KindDefinition} (h : ds = before ++ d :: rest) :
    Outcome (after .builtin before) d ((after .builtin before).define d)
      (after .builtin (before ++ [d]))
  /-- Without fields of its own, a definition is refused only for its tag. -/
  plain {before rest : List KindDefinition} {d : KindDefinition} (h : ds = before ++ d :: rest)
    (hfields : d.fields = []) (field : String) : ¬ d.kind.Misplaces field
  kept {before rest : List KindDefinition} (h : ds = before ++ rest) {tag : String} {kind : Kind}
    (hget : (after .builtin before).get? tag = some kind) : (after .builtin ds).get? tag = some kind
  own {kind : Kind} (h : kind ∈ (after .builtin ds).values) :
    (after .builtin ds).get? kind.tag = some kind
  nodup : ((after .builtin ds).values.map Kind.tag).Nodup
  decoded {id : String} {members : List (String × Json)} {tag : String} {d : Descriptor}
    (htag : Assoc.find? "type" members = some (.str tag))
    (hdecode : Wire.decodeType (after .builtin ds) id (.obj members) = .ok d) :
    d.tag = tag ∧ ∃ kind, (after .builtin ds).get? tag = some kind ∧ d.IsOf kind
  /-- A kind on top of another one does not answer to its tag. -/
  apart {before rest : List KindDefinition} {d : KindDefinition} {c' : Catalog} {parent : Kind}
    (h : ds = before ++ d :: rest) (hparent : d.parent = some parent)
    (hdefine : (after .builtin before).define d = .ok c') :
    d.kind.tag ≠ parent.tag ∧ (after .builtin ds).get? d.kind.tag = some d.kind ∧
      (after .builtin ds).get? parent.tag = some parent

theorem keepsTags_of_grounded {ds : List KindDefinition} (h : Grounded .builtin ds) :
    KeepsTags ds := by
  have hsound (ds : List KindDefinition) : (after .builtin ds).Sound := sound_builtin.after ds
  have hparent {before rest : List KindDefinition} {d : KindDefinition}
      (hds : ds = before ++ d :: rest) : (after .builtin before).HasParent d := by
    have hrest : Grounded (after .builtin before) (d :: rest) := (grounded_append.1 (hds ▸ h)).2
    exact hrest.1
  refine ⟨?_, ?_, ?_, (hsound ds).get?_tag, (hsound ds).nodup_tags, ?_, ?_⟩
  · intro before rest d hds
    rw [after_append]
    exact outcome_define _ d
  · intro before rest d hds hfields
    exact (hsound before).not_misplaces (hparent hds) hfields
  · rintro before rest rfl tag kind hget
    rw [after_append]
    exact get?_after hget rest
  · intro id members tag d htag hdecode
    obtain ⟨_, _, kind, hobj, htag', hkind, hd⟩ := Wire.isOf_of_decodeType hdecode
    obtain rfl := Json.obj.inj hobj
    obtain rfl := Json.str.inj (Option.some.inj (htag.symm.trans htag'))
    exact ⟨hd.tag.trans ((hsound ds).tag hkind), kind, hkind, hd⟩
  · rintro before rest d c' parent hds hd hdefine
    obtain ⟨hne, hget, hgetParent⟩ :=
      (hsound before).tag_ne_parent (hparent hds) hdefine hd
    have hafter : after .builtin ds = c'.after rest := by
      rw [hds, after_append, after, List.foldl_cons, attempt, hdefine]
      rfl
    rw [hafter]
    exact ⟨hne, get?_after hget rest, get?_after hgetParent rest⟩

def onTop (label : String) (tag : Option String) (parent : Kind) (fields : List String) :
    KindDefinition :=
  { label, home := "ext", tag, parent := some parent, fields }

def money : KindDefinition := onTop "MoneyType" none (.ofBuiltin (.primitive .int)) ["currency"]

/-- A kind of literals that must have a name, which would come before their value. -/
def namedLiteral : KindDefinition := onTop "NamedLiteralType" none (.ofBuiltin .literal) ["name"]

def shop : List KindDefinition :=
  [money, onTop "Text" (some "String") (.ofBuiltin (.primitive .string)) [],
    onTop "PriceType" (some "") money.kind [], onTop "Type" none money.kind ["unit"],
    onTop "Money" none (.ofBuiltin .literal) [], namedLiteral]

/-- A label that is just `Type` leaves the empty tag. -/
theorem shop_keepsTags : Grounded .builtin shop ∧
    (after .builtin shop).keys = Catalog.builtin.keys ++ ["Money", "Price", ""] ∧
      KeepsTags shop := by
  have hgrounded : Grounded .builtin shop :=
    ⟨.of_get? rfl "Int" rfl, .of_get? rfl "String" rfl, .of_get? rfl "Money" rfl,
      .of_get? rfl "Money" rfl, .of_get? rfl "Literal" rfl, .of_get? rfl "Literal" rfl, trivial⟩
  exact ⟨hgrounded, rfl, keepsTags_of_grounded hgrounded⟩

/-- The tag is free, and yet the definition is refused and the tag stays free. -/
theorem namedLiteral_refused : Catalog.builtin.HasParent namedLiteral ∧
    namedLiteral.AsksFor "NamedLiteral" ∧ Catalog.builtin.get? "NamedLiteral" = none ∧
      Catalog.builtin.define namedLiteral = .error (.requiredAfterOptional "value") ∧
        (Catalog.builtin.attempt namedLiteral).get? "NamedLiteral" = none :=
  ⟨.of_get? rfl "Literal" rfl, KindDefinition.asksFor_iff.2 rfl, rfl, rfl, rfl⟩

end Catalog

end Typings
