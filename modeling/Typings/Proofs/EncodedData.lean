import Typings.Proofs.JsonText
import Typings.Proofs.RoundTrip

/-!
# Descriptions that have a text

A description can be encoded if all that it holds is data and its tree holds nothing foreign; what
it is encoded as can be read back if the data can be, and if no level of the tree has two entries of
one key. Nothing is asked of the kinds of its types, nor of what the data stands for.
-/

namespace Typings

/-! ## Data -/

/-- Data that can be written and read back. -/
def Value.Portable (v : Value) : Prop := ∃ w, v.toJson? = some w ∧ w.Readable

def Extra.values : Extra → List Value
  | .value v | .typeId v => [v]
  | .typeIds ids => ids
  | .fields table => table.values.map Field.typeId

/-- All the values that a descriptor holds. -/
def Descriptor.values (d : Descriptor) : List Value :=
  CommonField.all.map d.common ++ (d.body.slot?.toList ++ d.extras).flatMap fun p ↦ p.2.values

mutual

def Entry.Portable : Entry → Prop
  | .endpoint e => e.input.Portable ∧ e.output.Portable
  | .branch children => (children.map Prod.fst).Nodup ∧ PortableLevel children
  | .foreign _ => False

def PortableLevel : List (String × Entry) → Prop
  | [] => True
  | (_, e) :: rest => e.Portable ∧ PortableLevel rest

end

structure Description.Portable (d : Description) : Prop where
  types : ∀ p ∈ d.types.entries, ∀ v ∈ p.2.values, v.Portable
  entries : (Entry.branch d.entries).Portable

namespace Wire

theorem readable_encodeValue {v : Value} (h : v.Portable) :
    ∃ w, encodeValue v = .ok w ∧ w.Readable := by
  obtain ⟨w, hw, hreadable⟩ := h
  exact ⟨w, by rw [encodeValue, hw], hreadable⟩

/-- Values that are written under distinct keys. -/
theorem readable_traverse {α : Type} {encode : α → Except EncodeError Json}
    {xs : List (String × α)} (hnodup : (xs.map Prod.fst).Nodup)
    (h : ∀ p ∈ xs, ∃ v, encode p.2 = .ok v ∧ v.Readable) :
    ∃ vs, (xs.mapM fun p ↦ do return (p.1, ← encode p.2)) = .ok vs ∧ (Json.obj vs).Readable := by
  have hpair : ∀ p ∈ xs, ∃ q, (do return (p.1, ← encode p.2)) = Except.ok q ∧ q.2.Readable := by
    intro p hp
    obtain ⟨v, hv, hreadable⟩ := h p hp
    exact ⟨(p.1, v), by rw [hv]; rfl, hreadable⟩
  obtain ⟨vs, hvs, hreadable⟩ := exists_mapM_and hpair
  refine ⟨vs, hvs, Json.readable_obj ?_ hreadable⟩
  have hkeys : vs.map Prod.fst = xs.map Prod.fst := by
    apply map_eq_of_mapM hvs
    intro p q hq
    obtain ⟨v, -, hq⟩ := exists_of_bind_eq_ok hq
    exact congrArg Prod.fst (Except.ok.inj hq).symm
  exact hkeys ▸ hnodup

/-! ## Types -/

theorem readable_textMember (key : String) (s : Option String) :
    ∀ p ∈ textMember key s, p.2.Readable := by
  cases s with
  | none => exact List.forall_mem_nil _
  | some s => exact List.forall_mem_singleton.2 trivial

theorem readable_encodeNote (note : Note) : ∀ p ∈ encodeNote note, p.2.Readable :=
  List.forall_mem_append.2 ⟨readable_textMember _ _, readable_textMember _ _⟩

theorem keys_encodeNote_sublist (note : Note) :
    ((encodeNote note).map Prod.fst).Sublist ["description", "deprecated"] := by
  rw [encodeNote, List.map_append]
  exact (keys_textMember_sublist _ _).append (keys_textMember_sublist _ _)

theorem readable_encodeField {f : Field} (h : f.typeId.Portable) :
    ∃ v, encodeField f = .ok v ∧ v.Readable := by
  obtain ⟨id, hid, hreadable⟩ := readable_encodeValue h
  refine ⟨.obj (("typeId", id) :: encodeNote f.note), by rw [encodeField, hid]; rfl, ?_⟩
  apply Json.readable_obj
  · exact ((keys_encodeNote_sublist f.note).cons_cons "typeId").nodup (by decide)
  · exact List.forall_mem_cons.2 ⟨hreadable, readable_encodeNote f.note⟩

theorem readable_encodeExtra {x : Extra} (h : ∀ v ∈ x.values, v.Portable) :
    ∃ v, encodeExtra x = .ok v ∧ v.Readable := by
  cases x with
  | value v | typeId v => exact readable_encodeValue (h v List.mem_cons_self)
  | typeIds ids =>
      rw [Extra.values] at h
      obtain ⟨vs, hvs, hreadable⟩ := exists_mapM_and fun id hid ↦ readable_encodeValue (h id hid)
      exact ⟨.arr vs, by rw [encodeExtra, hvs]; rfl, Json.readableItems_iff.2 hreadable⟩
  | fields fields =>
      obtain ⟨vs, hvs, hreadable⟩ := readable_traverse fields.nodup_keys fun p hp ↦
        readable_encodeField (h p.2.typeId (List.mem_map_of_mem (List.mem_map_of_mem hp)))
      exact ⟨.obj vs, by rw [encodeExtra, hvs]; rfl, hreadable⟩

theorem readable_presentMember (key : String) {v : Json} (hv : v.Readable) :
    ∀ p ∈ presentMember key v, p.2.Readable := by
  unfold presentMember
  split
  · exact List.forall_mem_nil _
  · exact List.forall_mem_singleton.2 hv

theorem readable_encodeType {d : Descriptor} (h : ∀ v ∈ d.values, v.Portable) :
    ∃ v, encodeType d = .ok v ∧ v.Readable := by
  obtain ⟨hcommon, hown⟩ := List.forall_mem_append.1 h
  obtain ⟨common, hcommon, hreadable⟩ := exists_mapM_and
    (f := fun f : CommonField ↦ do return presentMember f.key (← encodeValue (d.common f)))
    (P := fun members ↦ ∀ p ∈ members, p.2.Readable) fun f hf ↦ by
      obtain ⟨v, hv, hreadable⟩ := readable_encodeValue (hcommon _ (List.mem_map_of_mem hf))
      exact ⟨_, by rw [hv]; rfl, readable_presentMember f.key hreadable⟩
  obtain ⟨own, hown, hreadable'⟩ := exists_mapM_and
    (f := fun p : String × Extra ↦ do
      return presentMember (Text.camelCase p.1) (← encodeExtra p.2))
    (P := fun members ↦ ∀ p ∈ members, p.2.Readable) fun p hp ↦ by
      obtain ⟨v, hv, hreadable⟩ := readable_encodeExtra fun v hv ↦
        hown v (List.mem_flatMap.2 ⟨p, hp, hv⟩)
      exact ⟨_, by rw [hv]; rfl, readable_presentMember _ hreadable⟩
  refine ⟨.obj (Assoc.ofList (("type", .str d.tag) :: (common ++ own).flatten)), ?_, ?_⟩
  · rw [encodeType, hcommon]
    dsimp only at hown ⊢
    rw [hown]
    rfl
  -- The members are entered in a table, so that their keys are distinct whatever they are.
  · apply Json.readable_obj (Assoc.nodup_keys_ofList _)
    intro p hp
    obtain ⟨q, hq, hvalue⟩ := List.mem_map.1 (Assoc.mem_values_of_mem_ofList hp)
    rw [← hvalue]
    rcases List.mem_cons.1 hq with rfl | hq
    · trivial
    · obtain ⟨members, hmembers, hq⟩ := List.mem_flatten.1 hq
      rcases List.mem_append.1 hmembers with hmembers | hmembers
      · exact hreadable members hmembers q hq
      · exact hreadable' members hmembers q hq

/-! ## Entries -/

theorem readable_encodeEndpoint {e : Endpoint} (h : (Entry.endpoint e).Portable) :
    ∃ v, encodeEndpoint e = .ok v ∧ v.Readable := by
  obtain ⟨input, hinput, hreadable⟩ := readable_encodeValue h.1
  obtain ⟨output, houtput, hreadable'⟩ := readable_encodeValue h.2
  refine ⟨.obj ([("type", .str "Api"), ("input", .obj [("typeId", input)]),
    ("output", .obj [("typeId", output)])] ++ encodeNote e.note),
    by rw [encodeEndpoint, hinput, houtput]; rfl, ?_⟩
  have hreference {id : Json} (hid : id.Readable) : (Json.obj [("typeId", id)]).Readable :=
    Json.readable_obj (List.nodup_cons.2 ⟨List.not_mem_nil, List.nodup_nil⟩)
      (List.forall_mem_singleton.2 hid)
  apply Json.readable_obj
  · have hsublist : (["type", "input", "output"] ++ (encodeNote e.note).map Prod.fst).Sublist
        (["type", "input", "output"] ++ ["description", "deprecated"]) :=
      (List.Sublist.refl _).append (keys_encodeNote_sublist e.note)
    exact hsublist.nodup (by decide)
  · refine List.forall_mem_append.2 ⟨?_, readable_encodeNote e.note⟩
    simp only [List.forall_mem_cons]
    exact ⟨trivial, hreference hreadable, hreference hreadable', List.forall_mem_nil _⟩

theorem readable_level {vs : List (String × Json)} (hnodup : (vs.map Prod.fst).Nodup)
    (h : ∀ p ∈ vs, p.2.Readable) :
    (Json.obj [("type", .str "Entries"), ("entries", .obj vs)]).Readable := by
  refine Json.readable_obj (by simp) ?_
  simp only [List.forall_mem_cons]
  exact ⟨trivial, Json.readable_obj hnodup h, List.forall_mem_nil _⟩

mutual

theorem readable_encodeEntry {e : Entry} (h : e.Portable) :
    ∃ v, encodeEntry e = .ok v ∧ v.Readable := by
  match e, h with
  | .endpoint e, h => exact readable_encodeEndpoint h
  | .branch children, h =>
      obtain ⟨vs, hvs, hkeys, hreadable⟩ := readable_encodeChildren h.2
      refine ⟨.obj [("type", .str "Entries"), ("entries", .obj vs)], ?_, ?_⟩
      · rw [encodeEntry, hvs]
        rfl
      · exact readable_level (hkeys ▸ h.1) hreadable

theorem readable_encodeChildren {es : List (String × Entry)} (h : PortableLevel es) :
    ∃ vs, encodeChildren es = .ok vs ∧ vs.map Prod.fst = es.map Prod.fst ∧
      ∀ p ∈ vs, p.2.Readable := by
  match es, h with
  | [], _ => exact ⟨[], rfl, rfl, List.forall_mem_nil _⟩
  | (key, e) :: rest, h =>
      obtain ⟨v, hv, hreadable⟩ := readable_encodeEntry h.1
      obtain ⟨vs, hvs, hkeys, hreadable'⟩ := readable_encodeChildren h.2
      refine ⟨(key, v) :: vs, ?_, ?_, List.forall_mem_cons.2 ⟨hreadable, hreadable'⟩⟩
      · rw [encodeChildren, hv, hvs]
        rfl
      · rw [List.map_cons, List.map_cons, hkeys]

end

/-! ## Descriptions -/

/-- What a description is encoded as can be written and read back. -/
theorem readable_encode {d : Description} (h : d.Portable) :
    ∃ v, encode d = .ok v ∧ v.Readable := by
  obtain ⟨types, htypes, hreadable⟩ := readable_traverse d.types.nodup_keys fun p hp ↦
    readable_encodeType (h.types p hp)
  obtain ⟨entries, hentries, hreadable'⟩ := readable_encodeEntry h.entries
  refine ⟨.obj [("types", .obj types), ("entries", entries)], ?_, Json.readable_obj (by simp) ?_⟩
  · have hforeign : firstForeignChild? d.entries = none := firstForeign?_of_encodeEntry hentries
    rw [encode, hforeign]
    dsimp only at htypes ⊢
    rw [htypes, encodeNamespace, hentries]
    rfl
  · simp only [List.forall_mem_cons]
    exact ⟨hreadable, hreadable', List.forall_mem_nil _⟩

end Wire

end Typings
