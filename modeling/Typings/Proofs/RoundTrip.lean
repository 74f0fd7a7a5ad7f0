import Typings.Proofs.Decoded
import Typings.Proofs.NumeralText
import Typings.Wire.Encode

/-!
# Decoding undoes encoding

The encoder leaves out what is absent and the decoder looks each key up, so what matters of the
members of an object is what is found under their keys. A plain description comes back in normal
form, with everything in its place; and what has been decoded is plain and in normal form.
-/

namespace Typings.Wire

/-! ## Members -/

section Members

variable {site : Site} {members : List (String × Json)} {key : String}

theorem require_eq_ok {v : Json} (h : Assoc.find? key members = some v) :
    require site members key = .ok v := by
  rw [require, h]

theorem optionalText_eq_ok {s : Option String} (h : Assoc.find? key members = s.map .str) :
    optionalText site members key = .ok s := by
  rw [optionalText, h]
  cases s <;> rfl

theorem find?_textMember (key key' : String) (s : Option String) :
    Assoc.find? key (textMember key' s) = if key' = key then s.map .str else none := by
  cases s with
  | none => simp [textMember, Assoc.find?]
  | some s => simp [textMember, Assoc.find?]

theorem keys_textMember_sublist (key : String) (s : Option String) :
    ((textMember key s).map Prod.fst).Sublist [key] := by
  cases s with
  | none => exact List.nil_sublist _
  | some s => exact List.Sublist.refl _

theorem decodeNote_eq_ok {note : Note}
    (hdescription : Assoc.find? "description" members = note.description.map .str)
    (hdeprecated : Assoc.find? "deprecated" members = note.deprecated.map .str) :
    decodeNote site members = .ok note := by
  rw [decodeNote, optionalText_eq_ok hdescription, optionalText_eq_ok hdeprecated]
  rfl

theorem find?_encodeNote (note : Note) :
    Assoc.find? "description" (encodeNote note) = note.description.map .str ∧
      Assoc.find? "deprecated" (encodeNote note) = note.deprecated.map .str := by
  constructor
  · simp [encodeNote, Assoc.find?_append, find?_textMember]
  · simp [encodeNote, Assoc.find?_append, find?_textMember]

end Members

/-! ## Values -/

theorem encodeValue_ofJson (v : Json) : encodeValue (.ofJson v) = .ok v := by
  rw [encodeValue, Value.toJson?_ofJson]

theorem exists_ofJson_of_isLiteral {v : Value} (h : v.IsLiteral) :
    ∃ w, w ≠ .null ∧ v = .ofJson w := by
  cases v with
  | str s => exact ⟨.str s, by simp, rfl⟩
  | int n => exact ⟨.int n, by simp, rfl⟩
  | bool b => exact ⟨.bool b, by simp, rfl⟩
  | float x =>
      cases x with
      | finite negative rank => exact ⟨.float (.finite negative rank), by simp, rfl⟩
      | _ => cases h
  | _ => exact h.elim

theorem exists_encodeId {id : TypeId} (h : id.IsId) :
    ∃ v, encodeValue id = .ok v ∧ v ≠ .null ∧ ∀ site, normalId site v = .ok id.normal := by
  obtain ⟨v, hv, rfl⟩ := exists_ofJson_of_isLiteral h.isLiteral
  exact ⟨v, encodeValue_ofJson v, hv, fun site ↦ normalId_eq_ok_iff.2 ⟨h.hasText, rfl⟩⟩

theorem exists_encodeIds {ids : List TypeId} (h : ∀ id ∈ ids, id.IsId) :
    ∃ vs, ids.mapM encodeValue = .ok vs ∧
      ∀ site, vs.mapM (normalId site) = .ok (ids.map TypeId.normal) := by
  obtain ⟨vs, hvs⟩ := exists_forall₂ fun id hid ↦ exists_encodeId (h id hid)
  refine ⟨vs, mapM_eq_ok_iff.2 (hvs.imp fun _ _ h ↦ h.1), fun site ↦ mapM_eq_ok_iff.2 ?_⟩
  rw [List.forall₂_map_right_iff]
  exact (hvs.imp fun _ _ h ↦ h.2.2 site).flip

theorem decodeLiteral_eq_ok {members : List (String × Json)} {v : Json}
    (hv : (Value.ofJson v).IsLiteral) (hfind : Assoc.find? "value" members = some v) (id : String) :
    decodeLiteral id members = .ok (.ofJson v) := by
  rw [decodeLiteral, require_eq_ok hfind]
  cases v with
  | str s => rfl
  | int n => rfl
  | bool b => rfl
  | float x =>
      cases x with
      | finite negative rank => rfl
      | _ => cases hv
  | _ => exact hv.elim

/-! ## Traversals under keys -/

theorem exists_traverse {α β ε δ : Type} (encode : α → Except ε β)
    (decode : String → β → Except δ α) (normal : α → α) {xs : List (String × α)}
    (h : ∀ p ∈ xs, ∃ v, encode p.2 = .ok v ∧ decode p.1 v = .ok (normal p.2)) :
    ∃ vs, (xs.mapM fun p ↦ do return (p.1, ← encode p.2)) = .ok vs ∧
      (vs.mapM fun p ↦ do return (p.1, ← decode p.1 p.2)) =
        .ok (xs.map fun p ↦ (p.1, normal p.2)) := by
  induction xs with
  | nil => exact ⟨[], rfl, rfl⟩
  | cons p rest ih =>
      obtain ⟨v, hv, hdecode⟩ := h _ List.mem_cons_self
      obtain ⟨vs, hvs, hrest⟩ := ih fun p hp ↦ h p (List.mem_cons_of_mem _ hp)
      refine ⟨(p.1, v) :: vs, ?_, ?_⟩
      · rw [List.mapM_cons, hvs, hv]
        rfl
      · rw [List.mapM_cons, hrest, hdecode]
        rfl

/-! ## Types -/

theorem exists_encodeField {f : Field} (h : f.typeId.IsId) (id name : String) :
    ∃ v, encodeField f = .ok v ∧ decodeField id name v = .ok f.normal := by
  obtain ⟨v, hv, -, hnormal⟩ := exists_encodeId h
  refine ⟨.obj (("typeId", v) :: encodeNote f.note), by rw [encodeField, hv]; rfl, ?_⟩
  obtain ⟨hdescription, hdeprecated⟩ := find?_encodeNote f.note
  have hnote : decodeNote (.field id name) (("typeId", v) :: encodeNote f.note) = .ok f.note :=
    decodeNote_eq_ok hdescription hdeprecated
  change (normalId _ v >>= fun typeId ↦ decodeNote _ _ >>= fun note ↦
    Except.ok (Field.mk typeId note)) = _
  rw [hnormal]
  change (decodeNote _ _ >>= fun note ↦ Except.ok (Field.mk f.typeId.normal note)) = _
  rw [hnote]
  rfl

theorem exists_encodeFields {fields : Table Field}
    (h : ∀ p ∈ fields.entries, p.2.typeId.IsId) (id : String) :
    ∃ v, encodeExtra (.fields fields) = .ok v ∧ v ≠ .null ∧
      ∀ members, Assoc.find? "fields" members = some v →
        decodeFields id members = .ok (fields.map Field.normal) := by
  obtain ⟨vs, hvs, hdecode⟩ := exists_traverse encodeField (decodeField id) Field.normal fun p hp ↦
    exists_encodeField (h p hp) id p.1
  refine ⟨.obj vs, by rw [encodeExtra, hvs]; rfl, by simp, fun members hfind ↦ ?_⟩
  rw [← decodeFieldList_eq_mapM] at hdecode
  rw [decodeFields, require_eq_ok hfind]
  change (decodeFieldList id vs >>= fun list ↦ Except.ok (Table.ofList list)) = _
  rw [hdecode]
  exact congrArg Except.ok (Table.ext (Assoc.ofList_eq_self (fields.map Field.normal).nodup_keys))

/-- The members that are written for the fields of a kind's own. -/
def encodeOwn (fields : List (String × Extra)) : Except EncodeError (List (List (String × Json))) :=
  fields.mapM fun (name, x) ↦ do return presentMember (Text.camelCase name) (← encodeExtra x)

theorem presentMember_of_ne_null {key : String} {v : Json} (h : v ≠ .null) :
    presentMember key v = [(key, v)] := by
  cases v with
  | null => exact absurd rfl h
  | _ => rfl

theorem encodeOwn_singleton (name : String) {x : Extra} {v : Json} (h : encodeExtra x = .ok v)
    (hv : v ≠ .null) : encodeOwn [(name, x)] = .ok [[(Text.camelCase name, v)]] := by
  rw [encodeOwn, List.mapM_cons, ← presentMember_of_ne_null hv]
  dsimp only
  rw [h]
  rfl

def commonKeys : List String := ["type", "name", "description", "deprecated"]

theorem exists_encodeBody {body : Body} (h : body.Plain) (id : String) :
    ∃ own : Option (String × Json), encodeOwn body.slot?.toList = .ok (own.toList.map ([·])) ∧
      (∀ p ∈ own, p.1 ∉ commonKeys) ∧
      ∀ members, (∀ p ∈ own, Assoc.find? p.1 members = some p.2) →
        decodeBody id members body.builtin? = .ok body.normal := by
  cases body with
  | primitive p => exact ⟨none, rfl, by simp, fun _ _ ↦ rfl⟩
  | bare => exact ⟨none, rfl, by simp, fun _ _ ↦ rfl⟩
  | literal v =>
      obtain ⟨w, hw, rfl⟩ := exists_ofJson_of_isLiteral h
      refine ⟨some ("value", w), encodeOwn_singleton "value" (encodeValue_ofJson w) hw, ?_, ?_⟩
      · simp [commonKeys]
      · intro members hfind
        rw [Body.builtin?, decodeBody, decodeLiteral_eq_ok h (hfind _ rfl)]
        rfl
  | wrapper w item =>
      obtain ⟨v, hencode, hv, hnormal⟩ := exists_encodeId h
      refine ⟨some ("itemTypeId", v), encodeOwn_singleton "item_type_id" hencode hv, ?_, ?_⟩
      · simp [commonKeys]
      · intro members hfind
        rw [Body.builtin?, decodeBody, decodeTypeId, require_eq_ok (hfind _ rfl), Body.normal]
        change (normalId _ v >>= fun item ↦ Except.ok (Body.wrapper w item)) = _
        rw [hnormal]
        rfl
  | junction j items =>
      obtain ⟨vs, hencode, hnormal⟩ := exists_encodeIds h
      have hitems : encodeExtra (.typeIds items) = .ok (.arr vs) := by
        rw [encodeExtra, hencode]
        rfl
      refine ⟨some ("itemTypeIds", .arr vs),
        encodeOwn_singleton "item_type_ids" hitems (by simp), ?_, ?_⟩
      · simp [commonKeys]
      · intro members hfind
        rw [Body.builtin?, decodeBody, decodeTypeIds, require_eq_ok (hfind _ rfl), Body.normal]
        change (vs.mapM (normalId _) >>= fun items ↦ Except.ok (Body.junction j items)) = _
        rw [hnormal]
        rfl
  | fieldSet f fields =>
      obtain ⟨v, hencode, hv, hdecode⟩ := exists_encodeFields h id
      refine ⟨some ("fields", v), encodeOwn_singleton "fields" hencode hv, ?_, ?_⟩
      · simp [commonKeys]
      · intro members hfind
        rw [Body.builtin?, decodeBody, hdecode members (hfind _ rfl)]
        rfl

theorem encodeText_eq_ok (key : String) (s : Option String) :
    (encodeValue (.ofText s) >>= fun v ↦ pure (presentMember key v)) =
      .ok (textMember key s) := by
  cases s <;> rfl

theorem encodeType_ofBody {b : Builtin} {name : Option String} {note : Note} {body : Body}
    {own : List (String × Json)} (hown : encodeOwn body.slot?.toList = .ok (own.map ([·])))
    (hnodup : ((("type", Json.str b.tag) ::
      (textMember "name" name ++ encodeNote note ++ own)).map Prod.fst).Nodup) :
    encodeType (.ofBody b name note body) =
      .ok (.obj (("type", .str b.tag) :: (textMember "name" name ++ encodeNote note ++ own))) := by
  obtain ⟨common, hcommon, hflatten⟩ : ∃ common, (CommonField.all.mapM fun f ↦
      encodeValue ((Descriptor.ofBody b name note body).common f) >>= fun v ↦
        pure (presentMember f.key v)) = .ok common ∧
      common.flatten = textMember "name" name ++ encodeNote note := by
    refine ⟨_, mapM_eq_ok_iff.2 (.cons (encodeText_eq_ok _ _) (.cons (encodeText_eq_ok _ _)
      (.cons (encodeText_eq_ok _ _) .nil))), ?_⟩
    simp only [encodeNote, List.flatten_cons, List.flatten_nil, List.append_nil]
    rfl
  rw [encodeType, hcommon]
  change (encodeOwn (body.slot?.toList ++ []) >>= fun own' ↦ Except.ok (Json.obj (Assoc.ofList
    (("type", .str b.tag) :: (common ++ own').flatten)))) = _
  have hown' : (own.map ([·])).flatten = own := by
    simp [← List.flatMap_def]
  rw [List.append_nil, hown, ← Assoc.ofList_eq_self hnodup, ← hflatten]
  change Except.ok (Json.obj (Assoc.ofList (_ :: (common ++ own.map ([·])).flatten))) = _
  rw [List.flatten_append, hown']

section Encoded

variable (tag : String) (name : Option String) (note : Note) {own : Option (String × Json)}

/-- The keys under which a descriptor is written are distinct. -/
theorem nodup_keys_encoded (hown : ∀ p ∈ own, p.1 ∉ commonKeys) :
    ((("type", Json.str tag) ::
      (textMember "name" name ++ encodeNote note ++ own.toList)).map Prod.fst).Nodup := by
  -- Members may be left out, and those that are written stand in the order of the common keys.
  have hsublist : ((("type", Json.str tag) ::
      (textMember "name" name ++ encodeNote note ++ own.toList)).map Prod.fst).Sublist
      (commonKeys ++ own.toList.map Prod.fst) := by
    simp only [encodeNote, List.map_cons, List.map_append, List.append_assoc]
    exact ((keys_textMember_sublist _ _).append ((keys_textMember_sublist _ _).append
      ((keys_textMember_sublist _ _).append (List.Sublist.refl _)))).cons_cons _
  refine hsublist.nodup (List.nodup_append.2 ⟨by decide, ?_, ?_⟩)
  · cases own <;> simp
  · intro key hkey key' hkey' heq
    obtain ⟨p, hp, rfl⟩ := List.mem_map.1 hkey'
    exact hown p (Option.mem_toList.1 hp) (heq ▸ hkey)

theorem find?_common_encoded (hown : ∀ p ∈ own, p.1 ∉ commonKeys) (f : CommonField) :
    Assoc.find? f.key (("type", Json.str tag) ::
      (textMember "name" name ++ encodeNote note ++ own.toList)) =
      (match f with
        | .name => name
        | .description => note.description
        | .deprecated => note.deprecated).map Json.str := by
  have hnone : Assoc.find? f.key own.toList = none := by
    cases own with
    | none => rfl
    | some p =>
        have hne : p.1 ≠ f.key := by
          rintro heq
          refine hown p rfl (heq ▸ ?_)
          cases f <;> decide
        simp [Assoc.find?, hne]
  cases f with
  | _ =>
      rw [CommonField.key] at hnone ⊢
      simp [Assoc.find?, Assoc.find?_append, encodeNote, find?_textMember, hnone]

end Encoded

theorem builtin_get? (b : Builtin) : Catalog.builtin.get? b.tag = some (.ofBuiltin b) := by
  cases b with
  | primitive p => cases p <;> decide
  | literal => decide
  | wrapper w => cases w <;> decide
  | junction j => cases j <;> decide
  | fieldSet f => cases f <;> decide

theorem decodeCommon_ofBuiltin {b : Builtin} {members : List (String × Json)} {f : CommonField}
    {s : Option String} (h : Assoc.find? f.key members = s.map .str) (site : Site) :
    decodeCommon (.ofBuiltin b) site members f = .ok (.text s) := by
  rw [decodeCommon, optionalText_eq_ok h]
  rfl

theorem decodeType_eq_ok {b : Builtin} {members : List (String × Json)} {name : Option String}
    {note : Note} {body : Body} {id : String}
    (htype : Assoc.find? "type" members = some (.str b.tag))
    (hname : Assoc.find? "name" members = name.map .str)
    (hdescription : Assoc.find? "description" members = note.description.map .str)
    (hdeprecated : Assoc.find? "deprecated" members = note.deprecated.map .str)
    (hbody : decodeBody id members (some b) = .ok body) :
    decodeType .builtin id (.obj members) = .ok (.ofBody b name note body) := by
  have hbase : (Kind.ofBuiltin b).base = some b := rfl
  simp only [decodeType, asObject, require_eq_ok htype, builtin_get?,
    decodeCommon_ofBuiltin (f := .name) hname,
    decodeCommon_ofBuiltin (f := .description) hdescription,
    decodeCommon_ofBuiltin (f := .deprecated) hdeprecated, bind, Except.bind, hbase, hbody]
  rfl

theorem exists_encodeType {d : Descriptor} (h : d.Plain) (id : String) :
    ∃ v, encodeType d = .ok v ∧ decodeType .builtin id v = .ok d.normal := by
  obtain ⟨hbody, b, hb, hd⟩ := h
  obtain ⟨own, hencode, hown, hdecode⟩ := exists_encodeBody hbody id
  have hnodup := nodup_keys_encoded b.tag d.name d.note hown
  have hcommon := find?_common_encoded b.tag d.name d.note hown
  have hbody' := hdecode _ fun p hp ↦ Assoc.find?_of_mem hnodup (by simp [Option.mem_toList.2 hp])
  rw [hb] at hbody'
  have hnormal : d.normal = .ofBody b d.name d.note d.body.normal := by
    rw [Descriptor.normal, hd]
    rfl
  refine ⟨_, by rw [hd]; exact encodeType_ofBody hencode hnodup, ?_⟩
  rw [hnormal]
  exact decodeType_eq_ok rfl (hcommon .name) (hcommon .description) (hcommon .deprecated) hbody'

/-! ## Entries -/

theorem exists_encodeEndpoint {e : Endpoint} (hinput : e.input.IsId)
    (houtput : e.output.IsId) (root : String) (path : List String) :
    ∃ v, encodeEntry (.endpoint e) = .ok v ∧
      decodeEntry root path v = .ok (.endpoint e.normal) := by
  obtain ⟨input, hencode, -, hinput⟩ := exists_encodeId hinput
  obtain ⟨output, hencode', -, houtput⟩ := exists_encodeId houtput
  obtain ⟨hdescription, hdeprecated⟩ := find?_encodeNote e.note
  refine ⟨.obj ([("type", .str "Api"), ("input", .obj [("typeId", input)]),
    ("output", .obj [("typeId", output)])] ++ encodeNote e.note), ?_, ?_⟩
  · rw [encodeEntry, encodeEndpoint, hencode, hencode']
    rfl
  · have hnote : decodeNote (.entry root path) ([("type", .str "Api"),
        ("input", .obj [("typeId", input)]), ("output", .obj [("typeId", output)])] ++
          encodeNote e.note) = .ok e.note :=
      decodeNote_eq_ok hdescription hdeprecated
    have hendpoint : decodeEndpoint (.entry root path) ([("type", .str "Api"),
        ("input", .obj [("typeId", input)]), ("output", .obj [("typeId", output)])] ++
          encodeNote e.note) = .ok e.normal := by
      change (normalId _ input >>= fun input ↦ normalId _ output >>= fun output ↦
        decodeNote _ _ >>= fun note ↦ Except.ok (Endpoint.mk input output note)) = _
      rw [hinput, houtput, hnote]
      rfl
    rw [decodeEntry]
    change (decodeEndpoint _ _ >>= fun e ↦ Except.ok (Entry.endpoint e)) = _
    rw [hendpoint]
    rfl

theorem decodeMembers_namespace (root : String) (path : List String)
    (children : List (String × Json)) :
    decodeMembers root path [("type", .str "Entries"), ("entries", .obj children)] =
      decodeChildren root path children := by
  simp [decodeMembers]

mutual

theorem exists_encodeEntry {e : Entry} (h : e.Plain) (root : String) (path : List String) :
    ∃ v, encodeEntry e = .ok v ∧ decodeEntry root path v = .ok e.normal := by
  match e, h with
  | .endpoint e, h => exact exists_encodeEndpoint h.1 h.2 root path
  | .branch children, h =>
      obtain ⟨vs, hencode, hdecode⟩ := exists_encodeChildren h root path
      refine ⟨.obj [("type", .str "Entries"), ("entries", .obj vs)], ?_, ?_⟩
      · rw [encodeEntry, hencode]
        rfl
      · rw [decodeEntry]
        change (decodeMembers root path [("type", .str "Entries"), ("entries", .obj vs)] >>=
          fun level ↦ Except.ok (Entry.branch level)) = _
        rw [decodeMembers_namespace, hdecode]
        rfl

theorem exists_encodeChildren {es : List (String × Entry)} (h : PlainLevel es) (root : String)
    (path : List String) :
    ∃ vs, encodeChildren es = .ok vs ∧ decodeChildren root path vs = .ok (normalLevel es) := by
  match es, h with
  | [], _ => exact ⟨[], rfl, rfl⟩
  | (key, e) :: rest, h =>
      obtain ⟨v, hv, hdecode⟩ := exists_encodeEntry h.1 root (path ++ [key])
      obtain ⟨vs, hvs, hrest⟩ := exists_encodeChildren h.2 root path
      refine ⟨(key, v) :: vs, ?_, ?_⟩
      · rw [encodeChildren, hv, hvs]
        rfl
      · rw [decodeChildren, hdecode, hrest]
        rfl

end

mutual

theorem firstForeign?_of_encodeEntry {e : Entry} {v : Json} (h : encodeEntry e = .ok v) :
    firstForeign? e = none := by
  match e with
  | .endpoint _ => rfl
  | .branch children =>
      rw [encodeEntry] at h
      obtain ⟨vs, hvs, -⟩ := exists_of_bind_eq_ok h
      exact firstForeignChild?_of_encodeChildren hvs
  | .foreign x => cases h

theorem firstForeignChild?_of_encodeChildren {es : List (String × Entry)}
    {vs : List (String × Json)} (h : encodeChildren es = .ok vs) :
    firstForeignChild? es = none := by
  match es with
  | [] => rfl
  | (key, e) :: rest =>
      rw [encodeChildren] at h
      obtain ⟨v, hv, h⟩ := exists_of_bind_eq_ok h
      obtain ⟨vs, hvs, -⟩ := exists_of_bind_eq_ok h
      rw [firstForeignChild?, firstForeign?_of_encodeEntry hv,
        firstForeignChild?_of_encodeChildren hvs, Option.or]

end

/-! ## Descriptions -/

theorem exists_encode {d : Description} (h : d.Plain) :
    ∃ v, encode d = .ok v ∧ decode .builtin v = .ok d.normal := by
  obtain ⟨types, hencode, htypes⟩ := exists_traverse encodeType (decodeType .builtin)
    Descriptor.normal fun p hp ↦ exists_encodeType (h.types p hp) p.1
  obtain ⟨entries, hencode', hentries⟩ := exists_encodeChildren h.entries "entries" []
  rw [← decodeTypes_eq_mapM] at htypes
  have hnamespace : decodeNamespace "entries" (.obj [("type", .str "Entries"),
      ("entries", .obj entries)]) = .ok (normalLevel d.entries) := by
    have hnodup : ((normalLevel d.entries).map Prod.fst).Nodup := by
      rw [keys_normalLevel]
      exact h.nodup_keys
    change (decodeMembers _ _ _ >>= fun level ↦ Except.ok (Assoc.ofList level)) = _
    rw [decodeMembers_namespace, hentries]
    exact congrArg Except.ok (Assoc.ofList_eq_self hnodup)
  refine ⟨.obj [("types", .obj types), ("entries", .obj [("type", .str "Entries"),
    ("entries", .obj entries)])], ?_, ?_⟩
  · rw [encode, firstForeignChild?_of_encodeChildren hencode', encodeNamespace, encodeEntry,
      hencode']
    dsimp only
    rw [hencode]
    rfl
  · change (decodeTypes _ _ >>= fun list ↦ decodeNamespace _ _ >>= fun entries ↦
      Except.ok (Description.mk (Table.ofList list) entries)) = _
    rw [htypes, hnamespace]
    have htable : Table.ofList (d.types.entries.map fun p ↦ (p.1, p.2.normal)) =
        d.types.map Descriptor.normal :=
      Table.ext (Assoc.ofList_eq_self (d.types.map Descriptor.normal).nodup_keys)
    exact congrArg (fun types ↦ Except.ok (Description.mk types _)) htable

/-! ## The round trip -/

/-- What has been encoded can be decoded, and gives the same description up to ids that are no
texts. Nothing changes at all if the description has been decoded before. -/
theorem decode_encode :
    (∀ d : Description, d.Plain → ∃ v, encode d = .ok v ∧ decode .builtin v = .ok d.normal) ∧
      ∀ v d, decode .builtin v = .ok d →
        ∃ w, encode d = .ok w ∧ decode .builtin w = .ok d := by
  refine ⟨fun d hd ↦ exists_encode hd, fun v d h ↦ ?_⟩
  obtain ⟨hplain, hnormal⟩ := decode_settled h
  obtain ⟨w, hencode, hdecode⟩ := exists_encode hplain
  exact ⟨w, hencode, hdecode.trans (congrArg Except.ok hnormal)⟩

/-- Types that refer to each other by the given ids, and the negative zero. -/
def linkedTypes (union item flag : TypeId) : Description where
  types := .ofList [
    ("2", .ofBody (.fieldSet .object) none ⟨some "", none⟩ (.fieldSet .object (.ofList
      [("b", ⟨union, .none⟩), ("a", ⟨item, ⟨none, some "old"⟩⟩)]))),
    ("10", .ofBody (.junction .union) (some "") .none (.junction .union [item, .str "2", flag])),
    ("9", .ofBody .literal none .none (.literal (.float (.zero true))))]
  entries := [
    ("z", .branch [("y", .endpoint ⟨.str "2", union, ⟨some "asks", none⟩⟩), ("x", .branch [])]),
    ("a", .branch [])]

theorem linkedTypes_decode_encode :
    (∃ v, encode (linkedTypes (.int 10) (.int 9) (.bool true)) = .ok v ∧
      decode .builtin v = .ok (linkedTypes (.str "10") (.str "9") (.str "True"))) ∧
      ∃ w, encode (linkedTypes (.str "10") (.str "9") (.str "True")) = .ok w ∧
        decode .builtin w = .ok (linkedTypes (.str "10") (.str "9") (.str "True")) := by
  have hten : (Value.int 10).IsId := Value.isId_int rfl
  have hnine : (Value.int 9).IsId := Value.isId_int rfl
  have hplain : (linkedTypes (.int 10) (.int 9) (.bool true)).Plain := by
    refine ⟨?_, ?_, by decide⟩
    · intro p hp
      have hvalue := Assoc.mem_values_of_mem_ofList hp
      simp only [List.map_cons, List.map_nil, List.mem_cons, List.not_mem_nil, or_false] at hvalue
      rcases hvalue with h | h | h
      · have hfields : ∀ q ∈ [("b", Field.mk (.int 10) .none),
            ("a", ⟨.int 9, ⟨none, some "old"⟩⟩)], q.2.typeId.IsId := by
          simp [hten, hnine]
        exact h ▸ ⟨hfields, .fieldSet .object, rfl, rfl⟩
      · have hitems : (Body.junction .union [.int 9, .str "2", .bool true]).Plain := by
          simp [Body.Plain, hnine]
        exact h ▸ ⟨hitems, .junction .union, rfl, rfl⟩
      · exact h ▸ ⟨rfl, .literal, rfl, rfl⟩
    · simp [linkedTypes, PlainLevel, Entry.Plain, hten]
  have hnormal : (linkedTypes (.int 10) (.int 9) (.bool true)).normal =
      linkedTypes (.str "10") (.str "9") (.str "True") := rfl
  obtain ⟨v, hencode, hdecode⟩ := decode_encode.1 _ hplain
  rw [hnormal] at hdecode
  exact ⟨⟨v, hencode, hdecode⟩, decode_encode.2 v _ hdecode⟩

/-- A list type that refers to the type of its items by a number. -/
def numberedList (item : Int) : Description where
  types := .ofList [("1", .ofBody (.wrapper .list) none .none (.wrapper .list (.int item)))]
  entries := []

def numberedMembers (item : Int) : List (String × Json) :=
  [("type", .str "List"), ("itemTypeId", .int item)]

/-- A number that is too long to have a text is written for an id, but not read as one. -/
theorem numberedList_not_decoded : ∃ v, encode (numberedList (10 ^ Numeral.digitLimit)) = .ok v ∧
    decode .builtin v = .error ⟨.type "1", .overlongId⟩ := by
  have hlong := Numeral.isShort_pow_digitLimit
  generalize (10 : Int) ^ Numeral.digitLimit = n at hlong
  have hid : normalId (.type "1") (.int n) = .error ⟨.type "1", .overlongId⟩ := by
    have htext : (Json.int n).text? = none := by
      rw [Json.text?, Value.text?, Value.ofJson, Value.hasText, hlong]
      rfl
    rw [normalId, htext]
  have hbody : decodeBody "1" (numberedMembers n) (some (.wrapper .list)) =
      .error ⟨.type "1", .overlongId⟩ := by
    have hitem : decodeTypeId "1" (numberedMembers n) = normalId (.type "1") (.int n) := by
      rw [decodeTypeId, require_eq_ok rfl]
      rfl
    rw [decodeBody, hitem, hid]
    rfl
  have htype : decodeType .builtin "1" (.obj (numberedMembers n)) =
      .error ⟨.type "1", .overlongId⟩ := by
    change (decodeBody "1" (numberedMembers n) (some (.wrapper .list)) >>= _) = _
    rw [hbody]
    rfl
  refine ⟨_, rfl, ?_⟩
  change ((decodeType .builtin "1" (.obj (numberedMembers n)) >>= _) >>= _) = _
  rw [htype]
  rfl

end Typings.Wire
