import Mathlib.Data.List.ReduceOption
import Typings.Proofs.WireGrammar

/-!
# The normal form of a serialized description

What a description is written as after it has been read, said on the JSON value alone: of an object
the keys that are known there are kept, in a fixed order; optional texts that are null go; ids
become their texts. The types, fields, items and entries all stay, in their order. Neither the
decoder nor the encoder is mentioned in this, and it is what the two make of a value one after the
other.
-/

namespace Typings

namespace Json

mutual

/-- No object has two members of one name. -/
def HasDistinctKeys : Json → Prop
  | arr items => AllDistinct items
  | obj members => (members.map Prod.fst).Nodup ∧ MembersDistinct members
  | null | bool _ | int _ | float _ | str _ => True

def AllDistinct : List Json → Prop
  | [] => True
  | v :: rest => v.HasDistinctKeys ∧ AllDistinct rest

def MembersDistinct : List (String × Json) → Prop
  | [] => True
  | (_, v) :: rest => v.HasDistinctKeys ∧ MembersDistinct rest

end

theorem membersDistinct_iff {members : List (String × Json)} :
    MembersDistinct members ↔ ∀ p ∈ members, p.2.HasDistinctKeys := by
  induction members with
  | nil => simp [MembersDistinct]
  | cons p rest ih => rw [MembersDistinct, ih, List.forall_mem_cons]

theorem HasDistinctKeys.find? {members : List (String × Json)} {key : String} {v : Json}
    (h : (obj members).HasDistinctKeys) (hfind : Assoc.find? key members = some v) :
    v.HasDistinctKeys :=
  membersDistinct_iff.1 h.2 _ (Assoc.mem_of_find? hfind)

def spellId (v : Json) : Json := .str v.text

def mapItems (rewrite : Json → Json) : Json → Json
  | arr items => arr (items.map rewrite)
  | v => v

def mapMembers (rewrite : Json → Json) : Json → Json
  | obj members => obj (members.map fun p ↦ (p.1, rewrite p.2))
  | v => v

end Json

namespace Wire

/-! ## The normal form -/

section NormalForm

variable (members : List (String × Json))

/-- The member of a key, its value rewritten. -/
def memberWith (rewrite : Json → Json) (key : String) : Option (String × Json) :=
  (Assoc.find? key members).map fun v ↦ (key, rewrite v)

/-- The member of a key unless it is null. -/
def memberUnlessNull (key : String) : Option (String × Json) :=
  match Assoc.find? key members with
  | none | some .null => none
  | some v => some (key, v)

def normalizeField : Json → Json
  | .obj members => .obj [memberWith members Json.spellId "typeId",
      memberUnlessNull members "description", memberUnlessNull members "deprecated"].reduceOption
  | v => v

def normalizeOwn : Builtin → Option (String × Json)
  | .primitive _ => none
  | .literal => memberWith members id "value"
  | .wrapper _ => memberWith members Json.spellId "itemTypeId"
  | .junction _ => memberWith members (Json.mapItems Json.spellId) "itemTypeIds"
  | .fieldSet _ => memberWith members (Json.mapMembers normalizeField) "fields"

def builtinOf? : Json → Option Builtin
  | .str tag => Builtin.all.find? fun b ↦ b.tag = tag
  | _ => none

def normalizeType : Json → Json
  | .obj members => .obj [memberWith members id "type", memberUnlessNull members "name",
      memberUnlessNull members "description", memberUnlessNull members "deprecated",
      ((Assoc.find? "type" members).bind builtinOf?).bind (normalizeOwn members)].reduceOption
  | v => v

def normalizeReference : Json → Json
  | .obj members => .obj [memberWith members Json.spellId "typeId"].reduceOption
  | v => v

def normalizeEndpoint : Json := .obj [memberWith members id "type",
  memberWith members normalizeReference "input", memberWith members normalizeReference "output",
  memberUnlessNull members "description", memberUnlessNull members "deprecated"].reduceOption

end NormalForm

mutual

/-- A namespace within another has its type anyway; the outermost one is given it. -/
def normalizeEntry : Json → Json
  | .obj members =>
    match Assoc.find? "type" members with
    | some (.str "Api") => normalizeEndpoint members
    | _ => .obj (("type", .str "Entries") :: normalizeEntries members)
  | v => v

/-- The member `entries`, the first one of that name. -/
def normalizeEntries : List (String × Json) → List (String × Json)
  | [] => []
  | (key, v) :: rest =>
    if key = "entries" then [(key, normalizeLevel v)] else normalizeEntries rest

def normalizeLevel : Json → Json
  | .obj children => .obj (normalizeChildren children)
  | v => v

def normalizeChildren : List (String × Json) → List (String × Json)
  | [] => []
  | (key, v) :: rest => (key, normalizeEntry v) :: normalizeChildren rest

end

def normalizeNamespace : Json → Json
  | .obj members => .obj (("type", .str "Entries") :: normalizeEntries members)
  | v => v

def normalize : Json → Json
  | .obj members => .obj [memberWith members (Json.mapMembers normalizeType) "types",
      memberWith members normalizeNamespace "entries"].reduceOption
  | v => v

/-! ## Members -/

section Members

variable {site : Site} {members : List (String × Json)} {key : String}

theorem reduceOption_cons {α : Type} (o : Option α) (os : List (Option α)) :
    (o :: os).reduceOption = o.toList ++ os.reduceOption := by
  cases o with
  | none => exact List.reduceOption_cons_of_none os
  | some a => exact List.reduceOption_cons_of_some a os

theorem memberWith_eq_some {v : Json} (rewrite : Json → Json)
    (h : Assoc.find? key members = some v) :
    memberWith members rewrite key = some (key, rewrite v) := by
  rw [memberWith, h, Option.map_some]

theorem textMember_eq_of_optionalText {s : Option String}
    (h : optionalText site members key = .ok s) :
    textMember key s = (memberUnlessNull members key).toList := by
  rw [optionalText] at h
  rw [memberUnlessNull]
  split at h
  · next hfind =>
    obtain rfl := Except.ok.inj h
    rw [hfind]
    rfl
  · next hfind =>
    obtain rfl := Except.ok.inj h
    rw [hfind]
    rfl
  · next s hfind =>
    obtain rfl := Except.ok.inj h
    rw [hfind]
    rfl
  · cases h

theorem encodeNote_of_decodeNote {note : Note} (h : decodeNote site members = .ok note) :
    encodeNote note =
      [memberUnlessNull members "description", memberUnlessNull members "deprecated"].reduceOption
      := by
  obtain ⟨description, hdescription, h⟩ := exists_of_bind_eq_ok h
  obtain ⟨deprecated, hdeprecated, h⟩ := exists_of_bind_eq_ok h
  obtain rfl := Except.ok.inj h
  rw [encodeNote, textMember_eq_of_optionalText hdescription,
    textMember_eq_of_optionalText hdeprecated, reduceOption_cons, reduceOption_cons,
    List.reduceOption_nil, List.append_nil]

/-- What is written for each value of an object, if each is written as its normal form. -/
theorem encode_of_traverse {α δ : Type} {encode : α → Except EncodeError Json}
    {decode : String → Json → Except δ α} {rewrite : Json → Json} {vs : List (String × Json)}
    {xs : List (String × α)}
    (h : (vs.mapM fun p ↦ do return (p.1, ← decode p.1 p.2)) = .ok xs)
    (hencode : ∀ p ∈ vs, ∀ x, decode p.1 p.2 = .ok x → encode x = .ok (rewrite p.2)) :
    (xs.mapM fun p ↦ do return (p.1, ← encode p.2)) =
      .ok (vs.map fun p ↦ (p.1, rewrite p.2)) := by
  rw [mapM_eq_ok_iff] at h
  induction h with
  | nil => rfl
  | cons hp _ ih =>
      obtain ⟨hhead, htail⟩ := List.forall_mem_cons.1 hencode
      obtain ⟨x, hx, hpair⟩ := exists_of_bind_eq_ok hp
      obtain rfl := Except.ok.inj hpair
      rw [List.mapM_cons, ih htail, hhead x hx]
      rfl

theorem entries_ofList_of_traverse {α δ : Type} {decode : String → Json → Except δ α}
    {vs : List (String × Json)} {xs : List (String × α)} (hnodup : (vs.map Prod.fst).Nodup)
    (h : (vs.mapM fun p ↦ do return (p.1, ← decode p.1 p.2)) = .ok xs) :
    (Table.ofList xs).entries = xs := by
  apply Assoc.ofList_eq_self
  have hkeys : xs.map Prod.fst = vs.map Prod.fst := by
    apply map_eq_of_mapM h
    intro p q hq
    obtain ⟨x, -, hq⟩ := exists_of_bind_eq_ok hq
    exact congrArg Prod.fst (Except.ok.inj hq).symm
  rw [hkeys]
  exact hnodup

end Members

/-! ## Types -/

theorem encodeField_of_decodeField {id name : String} {v : Json} {f : Field}
    (h : decodeField id name v = .ok f) : encodeField f = .ok (normalizeField v) := by
  obtain ⟨members, hmembers, h⟩ := exists_of_bind_eq_ok h
  obtain ⟨v, htypeId, h⟩ := exists_of_bind_eq_ok h
  obtain ⟨typeId, hid, h⟩ := exists_of_bind_eq_ok h
  obtain ⟨note, hnote, h⟩ := exists_of_bind_eq_ok h
  obtain ⟨-, rfl⟩ := normalId_eq_ok_iff.1 hid
  obtain rfl := Except.ok.inj h
  obtain rfl := asObject_eq_ok_iff.1 hmembers
  rw [normalizeField, memberWith_eq_some _ (require_eq_ok_iff.1 htypeId), reduceOption_cons,
    ← encodeNote_of_decodeNote hnote]
  rfl

theorem encodeExtra_of_decodeFields {id : String} {members : List (String × Json)}
    {fields : Table Field} (hkeys : (Json.obj members).HasDistinctKeys)
    (h : decodeFields id members = .ok fields) :
    ∃ vs, Assoc.find? "fields" members = some (.obj vs) ∧
      encodeExtra (.fields fields) = .ok (Json.mapMembers normalizeField (.obj vs)) := by
  obtain ⟨v, hv, h⟩ := exists_of_bind_eq_ok h
  split at h
  · next vs =>
    obtain ⟨list, hlist, h⟩ := exists_of_bind_eq_ok h
    obtain rfl := Except.ok.inj h
    rw [require_eq_ok_iff] at hv
    rw [decodeFieldList_eq_mapM] at hlist
    refine ⟨_, hv, ?_⟩
    rw [encodeExtra, entries_ofList_of_traverse (hkeys.find? hv).1 hlist]
    have hencode := encode_of_traverse hlist fun p _ f hf ↦ encodeField_of_decodeField hf
    dsimp only at hencode ⊢
    rw [hencode]
    rfl
  · cases h

theorem encodeExtra_of_decodeTypeIds {id : String} {members : List (String × Json)}
    {ids : List TypeId} (h : decodeTypeIds id members = .ok ids) :
    ∃ items, Assoc.find? "itemTypeIds" members = some (.arr items) ∧
      encodeExtra (.typeIds ids) = .ok (Json.mapItems Json.spellId (.arr items)) := by
  obtain ⟨v, hv, h⟩ := exists_of_bind_eq_ok h
  split at h
  · next items =>
    refine ⟨_, require_eq_ok_iff.1 hv, ?_⟩
    have hitems : ids.mapM encodeValue = .ok (items.map Json.spellId) := by
      rw [mapM_eq_ok_iff, List.forall₂_map_right_iff]
      refine (mapM_eq_ok_iff.1 h).flip.imp fun id v hid ↦ ?_
      obtain ⟨-, rfl⟩ := normalId_eq_ok_iff.1 hid
      rfl
    rw [encodeExtra, hitems]
    rfl
  · cases h

theorem encodeExtra_of_decodeTypeId {id : String} {members : List (String × Json)} {item : TypeId}
    (h : decodeTypeId id members = .ok item) :
    ∃ v, Assoc.find? "itemTypeId" members = some v ∧
      encodeExtra (.typeId item) = .ok (Json.spellId v) := by
  obtain ⟨v, hv, h⟩ := exists_of_bind_eq_ok h
  obtain ⟨-, rfl⟩ := normalId_eq_ok_iff.1 h
  exact ⟨v, require_eq_ok_iff.1 hv, rfl⟩

theorem encodeExtra_of_decodeLiteral {id : String} {members : List (String × Json)} {v : Value}
    (h : decodeLiteral id members = .ok v) :
    ∃ w, Assoc.find? "value" members = some w ∧ w ≠ .null ∧ encodeExtra (.value v) = .ok w := by
  obtain ⟨w, hw, h⟩ := exists_of_bind_eq_ok h
  refine ⟨w, require_eq_ok_iff.1 hw, ?_⟩
  cases w with
  | str _ | int _ | bool _ =>
      obtain rfl := Except.ok.inj h
      exact ⟨nofun, rfl⟩
  | float x =>
      dsimp only at h
      split at h
      · obtain rfl := Except.ok.inj h
        exact ⟨nofun, rfl⟩
      · cases h
  | null | arr _ | obj _ => cases h

theorem encodeOwn_of_decodeBody {id : String} {members : List (String × Json)} {b : Builtin}
    {body : Body} (hkeys : (Json.obj members).HasDistinctKeys)
    (h : decodeBody id members (some b) = .ok body) :
    encodeOwn body.slot?.toList = .ok ((normalizeOwn members b).toList.map ([·])) := by
  cases b with
  | primitive p =>
      obtain rfl := Except.ok.inj h
      rfl
  | literal =>
      obtain ⟨v, hv, h⟩ := exists_of_bind_eq_ok h
      obtain rfl := Except.ok.inj h
      obtain ⟨w, hw, hnull, hencode⟩ := encodeExtra_of_decodeLiteral hv
      rw [normalizeOwn, memberWith_eq_some _ hw]
      exact encodeOwn_singleton "value" hencode hnull
  | wrapper w =>
      obtain ⟨item, hitem, h⟩ := exists_of_bind_eq_ok h
      obtain rfl := Except.ok.inj h
      obtain ⟨v, hv, hencode⟩ := encodeExtra_of_decodeTypeId hitem
      rw [normalizeOwn, memberWith_eq_some _ hv]
      exact encodeOwn_singleton "item_type_id" hencode nofun
  | junction j =>
      obtain ⟨ids, hids, h⟩ := exists_of_bind_eq_ok h
      obtain rfl := Except.ok.inj h
      obtain ⟨items, hitems, hencode⟩ := encodeExtra_of_decodeTypeIds hids
      rw [normalizeOwn, memberWith_eq_some _ hitems]
      exact encodeOwn_singleton "item_type_ids" hencode nofun
  | fieldSet f =>
      obtain ⟨fields, hfields, h⟩ := exists_of_bind_eq_ok h
      obtain rfl := Except.ok.inj h
      obtain ⟨vs, hvs, hencode⟩ := encodeExtra_of_decodeFields hkeys hfields
      rw [normalizeOwn, memberWith_eq_some _ hvs]
      exact encodeOwn_singleton "fields" hencode nofun

theorem notMem_commonKeys_of_normalizeOwn (members : List (String × Json)) (b : Builtin) :
    ∀ p ∈ normalizeOwn members b, p.1 ∉ commonKeys := by
  have hmember (rewrite : Json → Json) {key : String} (hkey : key ∉ commonKeys) :
      ∀ p ∈ memberWith members rewrite key, p.1 ∉ commonKeys := by
    intro p hp
    obtain ⟨v, -, rfl⟩ := Option.map_eq_some_iff.1 hp
    exact hkey
  cases b with
  | primitive p => exact fun p hp ↦ nomatch hp
  | literal => exact hmember _ (by decide)
  | wrapper w => exact hmember _ (by decide)
  | junction j => exact hmember _ (by decide)
  | fieldSet f => exact hmember _ (by decide)

theorem builtinOf?_tag (b : Builtin) : builtinOf? (.str b.tag) = some b := by
  cases b with
  | primitive p => cases p <;> decide
  | literal => decide
  | wrapper w => cases w <;> decide
  | junction j => cases j <;> decide
  | fieldSet f => cases f <;> decide

theorem exists_of_decodeCommon {b : Builtin} {site : Site} {members : List (String × Json)}
    {f : CommonField} {c : Common} (h : decodeCommon (.ofBuiltin b) site members f = .ok c) :
    ∃ s, c = .text s ∧ textMember f.key s = (memberUnlessNull members f.key).toList := by
  obtain ⟨s, hs, h⟩ := exists_of_bind_eq_ok h
  exact ⟨s, (Except.ok.inj h).symm, textMember_eq_of_optionalText hs⟩

/-- All that is read for a type. -/
theorem exists_of_decodeType {id : String} {v : Json} {d : Descriptor}
    (h : decodeType .builtin id v = .ok d) :
    ∃ members b name note body, v = .obj members ∧
      Assoc.find? "type" members = some (.str (Builtin.tag b)) ∧
      textMember "name" name = (memberUnlessNull members "name").toList ∧
      encodeNote note = [memberUnlessNull members "description",
        memberUnlessNull members "deprecated"].reduceOption ∧
      decodeBody id members (some b) = .ok body ∧ d = .ofBody b name note body := by
  obtain ⟨members, tag, kind, rfl, htag, hkind, hd⟩ := decodedBy_of_decodeType h
  obtain ⟨b, rfl, rfl⟩ := builtin_get?_eq_some_iff.1 hkind
  obtain ⟨-, hname, hdescription, hdeprecated, hbody, hextras⟩ := hd
  obtain rfl := Except.ok.inj hextras
  obtain ⟨name, rfl, hname'⟩ := exists_of_decodeCommon hname
  obtain ⟨description, rfl, hdescription'⟩ := exists_of_decodeCommon hdescription
  obtain ⟨deprecated, rfl, hdeprecated'⟩ := exists_of_decodeCommon hdeprecated
  refine ⟨members, b, name, ⟨description, deprecated⟩, _, rfl, htag, hname', ?_, hbody, rfl⟩
  change textMember CommonField.description.key description ++
    textMember CommonField.deprecated.key deprecated = _
  rw [hdescription', hdeprecated', reduceOption_cons, reduceOption_cons,
    List.reduceOption_nil, List.append_nil]
  rfl

theorem encodeType_of_decodeType {id : String} {v : Json} {d : Descriptor}
    (hkeys : v.HasDistinctKeys) (h : decodeType .builtin id v = .ok d) :
    encodeType d = .ok (normalizeType v) := by
  obtain ⟨members, b, name, note, body, rfl, htag, hname, hnote, hbody, rfl⟩ :=
    exists_of_decodeType h
  have hown := encodeOwn_of_decodeBody hkeys hbody
  have hnodup := nodup_keys_encoded b.tag name note (notMem_commonKeys_of_normalizeOwn members b)
  rw [encodeType_ofBody hown hnodup, normalizeType, htag, Option.bind_some, builtinOf?_tag,
    Option.bind_some, memberWith_eq_some _ htag, hname, hnote]
  simp only [reduceOption_cons, List.reduceOption_nil, List.append_nil, List.append_assoc,
    Option.toList_some, List.cons_append, List.nil_append, id_eq]

/-! ## Entries -/

theorem encodeReference_of_decodeReference {site : Site} {members : List (String × Json)}
    {key : String} {item : TypeId} (h : decodeReference site members key = .ok item) :
    ∃ v w, Assoc.find? key members = some v ∧ encodeValue item = .ok w ∧
      normalizeReference v = .obj [("typeId", w)] := by
  obtain ⟨v, hv, h⟩ := exists_of_bind_eq_ok h
  obtain ⟨reference, hreference, h⟩ := exists_of_bind_eq_ok h
  obtain ⟨typeId, htypeId, h⟩ := exists_of_bind_eq_ok h
  obtain ⟨-, rfl⟩ := normalId_eq_ok_iff.1 h
  obtain rfl := asObject_eq_ok_iff.1 hreference
  refine ⟨_, _, require_eq_ok_iff.1 hv, rfl, ?_⟩
  rw [normalizeReference, memberWith_eq_some _ (require_eq_ok_iff.1 htypeId)]
  rfl

theorem encodeEndpoint_of_decodeEndpoint {site : Site} {members : List (String × Json)}
    {e : Endpoint} (htype : Assoc.find? "type" members = some (.str "Api"))
    (h : decodeEndpoint site members = .ok e) :
    encodeEndpoint e = .ok (normalizeEndpoint members) := by
  obtain ⟨input, hinput, h⟩ := exists_of_bind_eq_ok h
  obtain ⟨output, houtput, h⟩ := exists_of_bind_eq_ok h
  obtain ⟨note, hnote, h⟩ := exists_of_bind_eq_ok h
  obtain rfl := Except.ok.inj h
  obtain ⟨v, w, hv, hencode, hrewrite⟩ := encodeReference_of_decodeReference hinput
  obtain ⟨v', w', hv', hencode', hrewrite'⟩ := encodeReference_of_decodeReference houtput
  rw [encodeEndpoint, hencode, hencode', encodeNote_of_decodeNote hnote, normalizeEndpoint,
    memberWith_eq_some _ htype, memberWith_eq_some _ hv, memberWith_eq_some _ hv', hrewrite,
    hrewrite']
  rfl

mutual

theorem encodeEntry_of_decodeEntry {root : String} {path : List String} {v : Json} {e : Entry}
    (h : decodeEntry root path v = .ok e) : encodeEntry e = .ok (normalizeEntry v) := by
  match v with
  | .obj members =>
      rw [decodeEntry] at h
      obtain ⟨tag, htag, h⟩ := exists_of_bind_eq_ok h
      rw [require_eq_ok_iff] at htag
      split at h
      · obtain ⟨e', he', h⟩ := exists_of_bind_eq_ok h
        obtain rfl := Except.ok.inj h
        rw [encodeEntry, encodeEndpoint_of_decodeEndpoint htag he', normalizeEntry, htag]
        rfl
      · obtain ⟨level, hlevel, h⟩ := exists_of_bind_eq_ok h
        obtain rfl := Except.ok.inj h
        obtain ⟨children, -, hencode, hentries⟩ := encodeChildren_of_decodeMembers hlevel
        rw [encodeEntry, hencode, normalizeEntry, htag, hentries]
        rfl
      · cases h
  | .null | .bool _ | .int _ | .float _ | .str _ | .arr _ =>
      simp [decodeEntry] at h

theorem encodeChildren_of_decodeMembers {root : String} {path : List String}
    {members : List (String × Json)} {es : List (String × Entry)}
    (h : decodeMembers root path members = .ok es) :
    ∃ children, Assoc.find? "entries" members = some (.obj children) ∧
      encodeChildren es = .ok (normalizeChildren children) ∧
      normalizeEntries members = [("entries", .obj (normalizeChildren children))] := by
  match members with
  | [] => simp [decodeMembers] at h
  | (key, v) :: rest =>
      -- The reader stops at the first member `entries`, as the search for it does.
      unfold decodeMembers at h
      rw [Assoc.find?, normalizeEntries]
      split at h
      · next hkey =>
        split at h
        · refine ⟨_, if_pos hkey, encodeChildren_of_decodeChildren h, ?_⟩
          rw [if_pos hkey, hkey, normalizeLevel]
        · cases h
      · next hkey =>
        rw [if_neg hkey, if_neg hkey]
        exact encodeChildren_of_decodeMembers h

theorem encodeChildren_of_decodeChildren {root : String} {path : List String}
    {children : List (String × Json)} {es : List (String × Entry)}
    (h : decodeChildren root path children = .ok es) :
    encodeChildren es = .ok (normalizeChildren children) := by
  match children with
  | [] =>
      obtain rfl := Except.ok.inj h
      rfl
  | (key, v) :: rest =>
      rw [decodeChildren] at h
      obtain ⟨e, he, h⟩ := exists_of_bind_eq_ok h
      obtain ⟨es', hes', h⟩ := exists_of_bind_eq_ok h
      obtain rfl := Except.ok.inj h
      rw [encodeChildren, encodeEntry_of_decodeEntry he, encodeChildren_of_decodeChildren hes']
      rfl

end

theorem keys_encodeChildren {es : List (String × Entry)} {vs : List (String × Json)}
    (h : encodeChildren es = .ok vs) : vs.map Prod.fst = es.map Prod.fst := by
  induction es generalizing vs with
  | nil =>
      obtain rfl := Except.ok.inj h
      rfl
  | cons p rest ih =>
      obtain ⟨v, -, h⟩ := exists_of_bind_eq_ok h
      obtain ⟨vs', hvs', h⟩ := exists_of_bind_eq_ok h
      obtain rfl := Except.ok.inj h
      rw [List.map_cons, List.map_cons, ih hvs']

theorem keys_normalizeChildren (children : List (String × Json)) :
    (normalizeChildren children).map Prod.fst = children.map Prod.fst := by
  induction children with
  | nil => rfl
  | cons p rest ih => rw [normalizeChildren, List.map_cons, List.map_cons, ih]

theorem encodeNamespace_of_decodeNamespace {root : String} {v : Json} {entries : Namespace}
    (hkeys : v.HasDistinctKeys) (h : decodeNamespace root v = .ok entries) :
    encodeNamespace entries = .ok (normalizeNamespace v) := by
  obtain ⟨members, hmembers, h⟩ := exists_of_bind_eq_ok h
  obtain ⟨es, hes, h⟩ := exists_of_bind_eq_ok h
  obtain rfl := Except.ok.inj h
  obtain rfl := asObject_eq_ok_iff.1 hmembers
  obtain ⟨children, hfind, hencode, hentries⟩ := encodeChildren_of_decodeMembers hes
  have hnodup : (es.map Prod.fst).Nodup := by
    rw [← keys_encodeChildren hencode, keys_normalizeChildren]
    exact (hkeys.find? hfind).1
  rw [Assoc.ofList_eq_self hnodup, encodeNamespace, encodeEntry, hencode, normalizeNamespace,
    hentries]
  rfl

/-! ## Descriptions -/

/-- What has been read is written as the normal form of what it was read from. -/
theorem encode_of_decode_eq_ok {v : Json} {d : Description} (hkeys : v.HasDistinctKeys)
    (h : decode .builtin v = .ok d) : encode d = .ok (normalize v) := by
  obtain ⟨members, hmembers, h⟩ := exists_of_bind_eq_ok h
  obtain ⟨types, htypes, h⟩ := exists_of_bind_eq_ok h
  rw [require_eq_ok_iff] at htypes
  split at h
  · next vs =>
    obtain ⟨list, hlist, h⟩ := exists_of_bind_eq_ok h
    obtain ⟨root, hroot, h⟩ := exists_of_bind_eq_ok h
    obtain ⟨entries, hentries, h⟩ := exists_of_bind_eq_ok h
    obtain rfl := Except.ok.inj h
    obtain rfl := asObject_eq_ok_iff.1 hmembers
    rw [require_eq_ok_iff] at hroot
    rw [decodeTypes_eq_mapM] at hlist
    have htable := hkeys.find? htypes
    have hnamespace := encodeNamespace_of_decodeNamespace (hkeys.find? hroot) hentries
    have hencode := encode_of_traverse hlist fun p hp d hd ↦
      encodeType_of_decodeType (Json.membersDistinct_iff.1 htable.2 p hp) hd
    -- Entries that could not be written would be refused first, but what is read holds none.
    have hforeign : firstForeignChild? entries = none := firstForeign?_of_encodeEntry hnamespace
    rw [encode, hforeign, entries_ofList_of_traverse htable.1 hlist, normalize,
      memberWith_eq_some _ htypes, memberWith_eq_some _ hroot]
    dsimp only at hencode ⊢
    rw [hencode, hnamespace]
    rfl
  · cases h

/-- A list written with its keys in another order, an id that is a number, a name that is null and a
key that means nothing. -/
def untidyDocument : Json :=
  .obj [("entries", .obj [("version", .int 2), ("entries", .obj [("ping", .obj
      [("output", .obj [("typeId", .str "1")]), ("input", .obj [("typeId", .int 1)]),
        ("type", .str "Api")])])]),
    ("types", .obj [("1", .obj [("itemTypeId", .bool true), ("name", .null), ("color", .str "red"),
      ("type", .str "List")])])]

theorem encode_decode_untidyDocument :
    ∃ d, decode .builtin untidyDocument = .ok d ∧ encode d = .ok (.obj
      [("types", .obj [("1", .obj [("type", .str "List"), ("itemTypeId", .str "True")])]),
        ("entries", .obj [("type", .str "Entries"), ("entries", .obj [("ping", .obj
          [("type", .str "Api"), ("input", .obj [("typeId", .str "1")]),
            ("output", .obj [("typeId", .str "1")])])])])]) := by
  have hkeys : untidyDocument.HasDistinctKeys := by
    simp [untidyDocument, Json.HasDistinctKeys, Json.MembersDistinct]
  refine ⟨_, rfl, ?_⟩
  exact encode_of_decode_eq_ok hkeys rfl

end Wire

end Typings
