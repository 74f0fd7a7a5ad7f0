import Typings.Proofs.Outcome
import Typings.Proofs.PlainData
import Typings.Wire.Decode

/-!
# What has been decoded

With the built-in kinds, a description that has been decoded is settled, and so is all that it is
made of: it is plain and in normal form.
-/

namespace Typings.Wire

/-! ## Members of objects -/

theorem asObject_eq_ok_iff {site : Site} {v : Json} {members : List (String × Json)} :
    asObject site v = .ok members ↔ v = .obj members := by
  cases v <;> simp [asObject]

theorem require_eq_ok_iff {site : Site} {members : List (String × Json)} {key : String}
    {v : Json} : require site members key = .ok v ↔ Assoc.find? key members = some v := by
  rw [require]
  cases Assoc.find? key members <;> simp

/-! ## Traversals under keys -/

theorem exists_of_mem_traverse {α β δ : Type} {decode : String → β → Except δ α}
    {vs : List (String × β)} {xs : List (String × α)}
    (h : (vs.mapM fun p ↦ do return (p.1, ← decode p.1 p.2)) = .ok xs) {x : α}
    (hx : x ∈ xs.map Prod.snd) : ∃ key v, decode key v = .ok x := by
  obtain ⟨q, hq, rfl⟩ := List.mem_map.1 hx
  obtain ⟨p, -, hpair⟩ := exists_of_mem_mapM h hq
  obtain ⟨y, hy, hpair⟩ := exists_of_bind_eq_ok hpair
  obtain rfl := Except.ok.inj hpair
  exact ⟨p.1, p.2, hy⟩

theorem decodeFieldList_eq_mapM (id : String) (members : List (String × Json)) :
    decodeFieldList id members =
      members.mapM fun p ↦ do return (p.1, ← decodeField id p.1 p.2) := by
  induction members with
  | nil => rfl
  | cons p rest ih =>
      rw [decodeFieldList, List.mapM_cons, ih]
      cases decodeField id p.1 p.2 <;> rfl

theorem decodeTypes_eq_mapM (catalog : Catalog) (members : List (String × Json)) :
    decodeTypes catalog members =
      members.mapM fun p ↦ do return (p.1, ← decodeType catalog p.1 p.2) := by
  induction members with
  | nil => rfl
  | cons p rest ih =>
      rw [decodeTypes, List.mapM_cons, ih]
      cases decodeType catalog p.1 p.2 <;> rfl

/-! ## Types -/

theorem normalId_eq_ok_iff {site : Site} {v : Json} {id : TypeId} :
    normalId site v = .ok id ↔ v.hasText = true ∧ .str v.text = id := by
  rw [normalId, Json.text?, Value.text?, Json.hasText, Json.text]
  split_ifs with hv
  · simp [hv]
  · simp [hv]

theorem normalId_settled {site : Site} {v : Json} {id : TypeId} (h : normalId site v = .ok id) :
    id.IsId ∧ id.normal = id := by
  obtain ⟨-, rfl⟩ := normalId_eq_ok_iff.1 h
  exact ⟨Value.isId_str _, rfl⟩

theorem decodeField_settled {id name : String} {v : Json} {f : Field}
    (h : decodeField id name v = .ok f) : f.typeId.IsId ∧ f.normal = f := by
  obtain ⟨members, -, h⟩ := exists_of_bind_eq_ok h
  obtain ⟨w, -, h⟩ := exists_of_bind_eq_ok h
  obtain ⟨typeId, hid, h⟩ := exists_of_bind_eq_ok h
  obtain ⟨note, -, h⟩ := exists_of_bind_eq_ok h
  obtain ⟨hid, hnormal⟩ := normalId_settled hid
  obtain rfl := Except.ok.inj h
  exact ⟨hid, by rw [Field.normal, hnormal]⟩

theorem decodeFields_settled {id : String} {members : List (String × Json)} {fields : Table Field}
    (h : decodeFields id members = .ok fields) :
    (∀ p ∈ fields.entries, p.2.typeId.IsId) ∧ fields.map Field.normal = fields := by
  obtain ⟨v, -, h⟩ := exists_of_bind_eq_ok h
  split at h
  · next vs =>
    obtain ⟨list, hlist, h⟩ := exists_of_bind_eq_ok h
    obtain rfl := Except.ok.inj h
    rw [decodeFieldList_eq_mapM] at hlist
    have hvalues : ∀ f ∈ list.map Prod.snd, f.typeId.IsId ∧ f.normal = f := by
      intro f hf
      obtain ⟨name, v, hv⟩ := exists_of_mem_traverse hlist hf
      exact decodeField_settled hv
    have hentries : ∀ p ∈ (Table.ofList list).entries, p.2.typeId.IsId ∧ p.2.normal = p.2 :=
      fun p hp ↦ hvalues p.2 (Assoc.mem_values_of_mem_ofList hp)
    exact ⟨fun p hp ↦ (hentries p hp).1, Table.map_eq_self fun p hp ↦ (hentries p hp).2⟩
  · cases h

theorem decodeLiteral_settled {id : String} {members : List (String × Json)} {v : Value}
    (h : decodeLiteral id members = .ok v) : v.IsLiteral := by
  obtain ⟨w, -, h⟩ := exists_of_bind_eq_ok h
  split at h
  · split at h
    · next hfinite =>
      obtain rfl := Except.ok.inj h
      exact hfinite
    · cases h
  · obtain rfl := Except.ok.inj h
    trivial
  · obtain rfl := Except.ok.inj h
    trivial
  · obtain rfl := Except.ok.inj h
    trivial
  · cases h

theorem decodeBody_settled {id : String} {members : List (String × Json)} {b : Builtin}
    {body : Body} (h : decodeBody id members (some b) = .ok body) :
    body.builtin? = some b ∧ body.Plain ∧ body.normal = body := by
  cases b with
  | primitive p =>
      obtain rfl := Except.ok.inj h
      exact ⟨rfl, trivial, rfl⟩
  | literal =>
      obtain ⟨v, hv, h⟩ := exists_of_bind_eq_ok h
      obtain rfl := Except.ok.inj h
      exact ⟨rfl, decodeLiteral_settled hv, rfl⟩
  | wrapper w =>
      obtain ⟨item, hitem, h⟩ := exists_of_bind_eq_ok h
      obtain ⟨v, -, hid⟩ := exists_of_bind_eq_ok hitem
      obtain ⟨hid, hnormal⟩ := normalId_settled hid
      obtain rfl := Except.ok.inj h
      exact ⟨rfl, hid, by rw [Body.normal, hnormal]⟩
  | junction j =>
      obtain ⟨items, hitems, h⟩ := exists_of_bind_eq_ok h
      obtain rfl := Except.ok.inj h
      obtain ⟨v, -, hitems⟩ := exists_of_bind_eq_ok hitems
      split at hitems
      · next vs =>
        have hsettled : ∀ id ∈ items, id.IsId ∧ id.normal = id := by
          intro id hid
          obtain ⟨v, -, hv⟩ := exists_of_mem_mapM hitems hid
          exact normalId_settled hv
        have hnormal : items.map TypeId.normal = items :=
          (List.map_congr_left fun item hitem ↦ (hsettled item hitem).2).trans (List.map_id items)
        exact ⟨rfl, fun id hid ↦ (hsettled id hid).1, by rw [Body.normal, hnormal]⟩
      · cases hitems
  | fieldSet f =>
      obtain ⟨fields, hfields, h⟩ := exists_of_bind_eq_ok h
      obtain rfl := Except.ok.inj h
      obtain ⟨hplain, hnormal⟩ := decodeFields_settled hfields
      exact ⟨rfl, hplain, by rw [Body.normal, hnormal]⟩

/-- All that is read for a descriptor of a kind. -/
inductive DecodedBy (kind : Kind) (id : String) (members : List (String × Json)) :
    Descriptor → Prop
  | intro {name description deprecated : Common} {body : Body} {extras : List (String × Extra)}
      (hinhabited : kind.isInhabited = true)
      (hname : decodeCommon kind (.type id) members .name = .ok name)
      (hdescription : decodeCommon kind (.type id) members .description = .ok description)
      (hdeprecated : decodeCommon kind (.type id) members .deprecated = .ok deprecated)
      (hbody : decodeBody id members kind.base = .ok body)
      (hextras : decodeExtras id members kind.extras = .ok extras) :
      DecodedBy kind id members
        { tag := kind.tag
          label := kind.label
          name := name.text?
          note := ⟨description.text?, deprecated.text?⟩
          opened := [(CommonField.name, name), (.description, description),
            (.deprecated, deprecated)].filterMap fun (f, common) ↦
              common.value?.map fun v ↦ (f, v)
          body
          extras }

/-- A type is read by the kind under its tag. -/
theorem decodedBy_of_decodeType {c : Catalog} {id : String} {v : Json} {d : Descriptor}
    (h : decodeType c id v = .ok d) : ∃ members tag kind, v = .obj members ∧
      Assoc.find? "type" members = some (.str tag) ∧ c.get? tag = some kind ∧
        DecodedBy kind id members d := by
  obtain ⟨members, hmembers, h⟩ := exists_of_bind_eq_ok h
  obtain ⟨w, htag, h⟩ := exists_of_bind_eq_ok h
  split at h
  · next tag =>
    split at h
    · cases h
    · next kind hkind =>
      obtain ⟨name, hname, h⟩ := exists_of_bind_eq_ok h
      obtain ⟨description, hdescription, h⟩ := exists_of_bind_eq_ok h
      obtain ⟨deprecated, hdeprecated, h⟩ := exists_of_bind_eq_ok h
      obtain ⟨body, hbody, h⟩ := exists_of_bind_eq_ok h
      obtain ⟨extras, hextras, h⟩ := exists_of_bind_eq_ok h
      split at h
      · cases h
      · next hinhabited =>
        obtain rfl := Except.ok.inj h
        exact ⟨members, tag, kind, asObject_eq_ok_iff.1 hmembers, require_eq_ok_iff.1 htag, hkind,
          .intro (by simpa using hinhabited) hname hdescription hdeprecated hbody hextras⟩
  · cases h

theorem exists_ofBuiltin_of_get? {tag : String} {kind : Kind}
    (h : Catalog.builtin.get? tag = some kind) : ∃ b, kind = .ofBuiltin b := by
  have hvalue := Assoc.mem_values_of_mem_ofList (Table.get?_eq_some_iff.1 h)
  rw [List.map_map] at hvalue
  obtain ⟨b, -, rfl⟩ := List.mem_map.1 hvalue
  exact ⟨b, rfl⟩

theorem exists_text_of_decodeCommon {b : Builtin} {site : Site} {members : List (String × Json)}
    {f : CommonField} {c : Common} (h : decodeCommon (.ofBuiltin b) site members f = .ok c) :
    ∃ s, c = .text s := by
  obtain ⟨s, -, h⟩ := exists_of_bind_eq_ok h
  exact ⟨s, (Except.ok.inj h).symm⟩

theorem decodeType_settled {id : String} {v : Json} {d : Descriptor}
    (h : decodeType .builtin id v = .ok d) : d.Plain ∧ d.normal = d := by
  obtain ⟨members, tag, kind, -, -, hkind, hd⟩ := decodedBy_of_decodeType h
  obtain ⟨b, rfl⟩ := exists_ofBuiltin_of_get? hkind
  obtain ⟨-, hname, hdescription, hdeprecated, hbody, hextras⟩ := hd
  obtain ⟨name, rfl⟩ := exists_text_of_decodeCommon hname
  obtain ⟨description, rfl⟩ := exists_text_of_decodeCommon hdescription
  obtain ⟨deprecated, rfl⟩ := exists_text_of_decodeCommon hdeprecated
  obtain rfl := Except.ok.inj hextras
  obtain ⟨hkind, hplain, hnormal⟩ := decodeBody_settled hbody
  refine ⟨⟨hplain, b, hkind, rfl⟩, ?_⟩
  rw [Descriptor.normal, hnormal]

/-! ## Entries -/

theorem decodeReference_settled {site : Site} {members : List (String × Json)} {key : String}
    {id : TypeId} (h : decodeReference site members key = .ok id) :
    id.IsId ∧ id.normal = id := by
  obtain ⟨v, -, h⟩ := exists_of_bind_eq_ok h
  obtain ⟨reference, -, h⟩ := exists_of_bind_eq_ok h
  obtain ⟨typeId, -, h⟩ := exists_of_bind_eq_ok h
  exact normalId_settled h

theorem decodeEndpoint_settled {site : Site} {members : List (String × Json)} {e : Endpoint}
    (h : decodeEndpoint site members = .ok e) :
    (Entry.endpoint e).Plain ∧ (Entry.endpoint e).normal = .endpoint e := by
  obtain ⟨input, hinput, h⟩ := exists_of_bind_eq_ok h
  obtain ⟨output, houtput, h⟩ := exists_of_bind_eq_ok h
  obtain ⟨note, -, h⟩ := exists_of_bind_eq_ok h
  obtain rfl := Except.ok.inj h
  obtain ⟨hscalar, hnormal⟩ := decodeReference_settled hinput
  obtain ⟨hscalar', hnormal'⟩ := decodeReference_settled houtput
  exact ⟨⟨hscalar, hscalar'⟩, by rw [Entry.normal, Endpoint.normal, hnormal, hnormal']⟩

mutual

theorem decodeEntry_settled {root : String} {path : List String} {v : Json} {e : Entry}
    (h : decodeEntry root path v = .ok e) : e.Plain ∧ e.normal = e := by
  match v with
  | .obj members =>
      rw [decodeEntry] at h
      obtain ⟨tag, -, h⟩ := exists_of_bind_eq_ok h
      split at h
      · obtain ⟨e', he', h⟩ := exists_of_bind_eq_ok h
        obtain rfl := Except.ok.inj h
        exact decodeEndpoint_settled he'
      · obtain ⟨level, hlevel, h⟩ := exists_of_bind_eq_ok h
        obtain rfl := Except.ok.inj h
        obtain ⟨hplain, hnormal⟩ := decodeMembers_settled hlevel
        exact ⟨hplain, by rw [Entry.normal, hnormal]⟩
      · cases h
  | .null | .bool _ | .int _ | .float _ | .str _ | .arr _ =>
      simp [decodeEntry] at h

theorem decodeMembers_settled {root : String} {path : List String} {members : List (String × Json)}
    {es : List (String × Entry)} (h : decodeMembers root path members = .ok es) :
    PlainLevel es ∧ normalLevel es = es := by
  match members with
  | [] => simp [decodeMembers] at h
  | (key, v) :: rest =>
      unfold decodeMembers at h
      split at h
      · split at h
        · exact decodeChildren_settled h
        · cases h
      · exact decodeMembers_settled h

theorem decodeChildren_settled {root : String} {path : List String}
    {children : List (String × Json)} {es : List (String × Entry)}
    (h : decodeChildren root path children = .ok es) : PlainLevel es ∧ normalLevel es = es := by
  match children with
  | [] =>
      obtain rfl := Except.ok.inj h
      exact ⟨trivial, rfl⟩
  | (key, v) :: rest =>
      rw [decodeChildren] at h
      obtain ⟨e, he, h⟩ := exists_of_bind_eq_ok h
      obtain ⟨es', hes', h⟩ := exists_of_bind_eq_ok h
      obtain rfl := Except.ok.inj h
      obtain ⟨hplain, hnormal⟩ := decodeEntry_settled he
      obtain ⟨hplain', hnormal'⟩ := decodeChildren_settled hes'
      exact ⟨⟨hplain, hplain'⟩, by rw [normalLevel, hnormal, hnormal']⟩

end

theorem decodeNamespace_settled {root : String} {v : Json} {es : Namespace}
    (h : decodeNamespace root v = .ok es) :
    PlainLevel es ∧ normalLevel es = es ∧ (es.map Prod.fst).Nodup := by
  obtain ⟨members, -, h⟩ := exists_of_bind_eq_ok h
  obtain ⟨level, hlevel, h⟩ := exists_of_bind_eq_ok h
  obtain rfl := Except.ok.inj h
  obtain ⟨hplain, hnormal⟩ := decodeMembers_settled hlevel
  rw [plainLevel_iff] at hplain
  rw [normalLevel_eq_self_iff] at hnormal
  have hvalues : ∀ e ∈ level.map Prod.snd, e.Plain ∧ e.normal = e := by
    intro e he
    obtain ⟨p, hp, rfl⟩ := List.mem_map.1 he
    exact ⟨hplain p hp, hnormal p hp⟩
  rw [plainLevel_iff, normalLevel_eq_self_iff]
  exact ⟨fun p hp ↦ (hvalues _ (Assoc.mem_values_of_mem_ofList hp)).1,
    fun p hp ↦ (hvalues _ (Assoc.mem_values_of_mem_ofList hp)).2, Assoc.nodup_keys_ofList level⟩

/-! ## Descriptions -/

theorem decode_settled {v : Json} {d : Description} (h : decode .builtin v = .ok d) :
    d.Plain ∧ d.normal = d := by
  obtain ⟨members, -, h⟩ := exists_of_bind_eq_ok h
  obtain ⟨types, -, h⟩ := exists_of_bind_eq_ok h
  split at h
  · obtain ⟨list, hlist, h⟩ := exists_of_bind_eq_ok h
    obtain ⟨entries, -, h⟩ := exists_of_bind_eq_ok h
    obtain ⟨es, hes, h⟩ := exists_of_bind_eq_ok h
    obtain rfl := Except.ok.inj h
    rw [decodeTypes_eq_mapM] at hlist
    have htypes : ∀ p ∈ (Table.ofList list).entries, p.2.Plain ∧ p.2.normal = p.2 := by
      intro p hp
      obtain ⟨id, v, hv⟩ := exists_of_mem_traverse hlist (Assoc.mem_values_of_mem_ofList hp)
      exact decodeType_settled hv
    obtain ⟨hplain, hnormal, hnodup⟩ := decodeNamespace_settled hes
    refine ⟨⟨fun p hp ↦ (htypes p hp).1, hplain, hnodup⟩, ?_⟩
    rw [Description.normal, Table.map_eq_self fun p hp ↦ (htypes p hp).2, hnormal]
  · cases h

end Typings.Wire
