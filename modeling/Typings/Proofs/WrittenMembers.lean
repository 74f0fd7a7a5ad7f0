import Typings.Proofs.ExtendedKinds

/-!
# Written members

What is written for a descriptor is an object with the tag, the common texts and the own fields, in
this order. Null is left out, and of several members with the same key the last one stays.
-/

namespace Typings

namespace Assoc

variable {κ ν : Type} [DecidableEq κ] {k : κ} {v : ν} {pairs : List (κ × ν)}

theorem exists_find?_of_mem (h : (k, v) ∈ pairs) : ∃ w, find? k pairs = some w := by
  induction pairs with
  | nil => cases h
  | cons p pairs ih =>
      by_cases hp : p.1 = k
      · exact ⟨p.2, by rw [find?, if_pos hp]⟩
      · rcases List.mem_cons.1 h with rfl | h
        · exact absurd rfl hp
        · rw [find?, if_neg hp]
          exact ih h

theorem mem_of_find?_ofList (h : find? k (ofList pairs) = some v) : (k, v) ∈ pairs := by
  rw [find?_ofList] at h
  exact List.mem_reverse.1 (mem_of_find? h)

theorem exists_find?_ofList (h : (k, v) ∈ pairs) : ∃ w, find? k (ofList pairs) = some w := by
  rw [find?_ofList]
  exact exists_find?_of_mem (List.mem_reverse.2 h)

end Assoc

/-- The own field that is written last under a key. -/
def Descriptor.lastUnder (d : Descriptor) (key : String) : Option Extra :=
  Assoc.find? key (d.ownFields.map fun p ↦ (Text.camelCase p.1, p.2)).reverse

namespace Wire

/-! ## Written members -/

/-- The members that are written for a descriptor, of which a later one stands in the place of an
earlier one with the same key. -/
inductive Written (d : Descriptor) (key : String) (w : Json) : Prop
  | tag (hkey : key = "type") (hw : w = .str d.tag)
  | common (f : CommonField) (hkey : f.key = key) (hw : (d.commonText f).map .str = some w)
  | own (p : String × Extra) (hp : p ∈ d.ownFields) (hkey : Text.camelCase p.1 = key)
      (hw : encodeExtra p.2 = .ok w) (hnull : w ≠ .null)

/-- How the members that are written for a descriptor are found again. -/
structure WrittenAs (d : Descriptor) (members : List (String × Json)) : Prop where
  written {key : String} {w : Json} (h : Assoc.find? key members = some w) : Written d key w
  exists_find? {key : String} {w : Json} (h : Written d key w) :
    ∃ w', Assoc.find? key members = some w'
  last {key : String} {x : Extra} {w : Json} (hx : d.lastUnder key = some x)
    (hw : encodeExtra x = .ok w)
    (hnull : ∀ p ∈ d.ownFields, Text.camelCase p.1 = key → encodeExtra p.2 ≠ .ok .null) :
    Assoc.find? key members = some w

theorem mem_presentMember_iff {key key' : String} {v w : Json} :
    (key', w) ∈ presentMember key v ↔ key' = key ∧ w = v ∧ v ≠ .null := by
  cases v <;> simp [presentMember]

section Own

variable {fields : List (String × Extra)} {own : List (List (String × Json))} {key : String}

theorem forall₂_own (h : encodeOwn fields = .ok own) :
    List.Forall₂ (fun p members ↦ ∃ w, encodeExtra p.2 = .ok w ∧
      presentMember (Text.camelCase p.1) w = members) fields own :=
  (mapM_eq_ok_iff.1 h).imp fun _ _ hp ↦ bind_pure_eq_ok_iff.1 hp

theorem mem_own_iff (h : encodeOwn fields = .ok own) {w : Json} : (key, w) ∈ own.flatten ↔
    ∃ p ∈ fields, Text.camelCase p.1 = key ∧ encodeExtra p.2 = .ok w ∧ w ≠ .null := by
  have hall := forall₂_own h
  rw [List.mem_flatten]
  constructor
  · rintro ⟨members, hmembers, hw⟩
    obtain ⟨p, hpair⟩ := exists_mem_zip_right hall.length_eq hmembers
    obtain ⟨v, hv, rfl⟩ := List.forall₂_zip hall hpair
    obtain ⟨rfl, rfl, hnull⟩ := mem_presentMember_iff.1 hw
    exact ⟨p, (List.of_mem_zip hpair).1, rfl, hv, hnull⟩
  · rintro ⟨p, hp, rfl, hw, hnull⟩
    obtain ⟨members, hpair⟩ := exists_mem_zip_left hall.length_eq hp
    obtain ⟨v, hv, rfl⟩ := List.forall₂_zip hall hpair
    obtain rfl := Except.ok.inj (hv.symm.trans hw)
    exact ⟨_, (List.of_mem_zip hpair).2, mem_presentMember_iff.2 ⟨rfl, rfl, hnull⟩⟩

/-- Where nothing is left out under a key, the last field is found under it. -/
theorem find?_reverse_own (h : encodeOwn fields = .ok own)
    (hnull : ∀ p ∈ fields, Text.camelCase p.1 = key → encodeExtra p.2 ≠ .ok .null)
    {x : Extra} {w : Json}
    (hx : Assoc.find? key (fields.map fun p ↦ (Text.camelCase p.1, p.2)).reverse = some x)
    (hw : encodeExtra x = .ok w) : Assoc.find? key own.flatten.reverse = some w := by
  induction fields generalizing own with
  | nil => cases hx
  | cons p fields ih =>
      obtain ⟨hp, hfields⟩ := List.forall_mem_cons.1 hnull
      obtain ⟨members, rest, hmembers, hrest, rfl⟩ := List.forall₂_cons_left_iff.1
        (mapM_eq_ok_iff.1 h)
      rw [← mapM_eq_ok_iff] at hrest
      rw [List.map_cons, List.reverse_cons, Assoc.find?_append] at hx
      rw [List.flatten_cons, List.reverse_append, Assoc.find?_append]
      cases hlast : Assoc.find? key (fields.map fun p ↦ (Text.camelCase p.1, p.2)).reverse with
      | some y =>
          rw [hlast] at hx
          obtain rfl := Option.some.inj hx
          rw [ih hrest hfields hlast, Option.some_or]
      | none =>
          have hnone : Assoc.find? key rest.flatten.reverse = none := by
            rw [Option.eq_none_iff_forall_ne_some]
            intro u hu
            have hmem := List.mem_reverse.1 (Assoc.mem_of_find? hu)
            obtain ⟨q, hq, hkey, -⟩ := (mem_own_iff hrest).1 hmem
            have hfield : (key, q.2) ∈ (fields.map fun p ↦ (Text.camelCase p.1, p.2)).reverse :=
              List.mem_reverse.2 (List.mem_map.2 ⟨q, hq, by rw [hkey]⟩)
            obtain ⟨y, hy⟩ := Assoc.exists_find?_of_mem hfield
            cases hlast.symm.trans hy
          rw [hlast, Option.none_or] at hx
          rw [hnone, Option.none_or]
          by_cases hkey : Text.camelCase p.1 = key
          · rw [Assoc.find?, if_pos hkey] at hx
            obtain rfl := Option.some.inj hx
            obtain ⟨v, hv, rfl⟩ := bind_pure_eq_ok_iff.1 hmembers
            obtain rfl := Except.ok.inj (hv.symm.trans hw)
            have hne : v ≠ .null := fun hnil ↦ hp hkey (hnil ▸ hv)
            rw [presentMember_of_ne_null hne, List.reverse_singleton, Assoc.find?, if_pos hkey]
          · rw [Assoc.find?, if_neg hkey] at hx
            cases hx

end Own

section

variable {d : Descriptor} {own : List (List (String × Json))}

def commonMembers (d : Descriptor) : List (List (String × Json)) :=
  CommonField.all.map fun f ↦ textMember f.key (d.commonText f)

theorem mem_commonMembers_iff {key : String} {w : Json} :
    (key, w) ∈ (commonMembers d).flatten ↔
      ∃ f : CommonField, f.key = key ∧ (d.commonText f).map .str = some w := by
  have hall (f : CommonField) : f ∈ CommonField.all := by cases f <;> decide
  have htext (f : CommonField) : (key, w) ∈ textMember f.key (d.commonText f) ↔
      f.key = key ∧ (d.commonText f).map .str = some w := by
    cases d.commonText f with
    | none => simp [textMember]
    | some s => simp [textMember, eq_comm]
  simp only [commonMembers, List.mem_flatten, List.mem_map, hall, true_and, exists_exists_eq_and,
    htext]

theorem encodeType_of_closed (hopened : d.opened = []) (hown : encodeOwn d.ownFields = .ok own) :
    encodeType d = .ok (.obj (Assoc.ofList
      (("type", .str d.tag) :: (commonMembers d ++ own).flatten))) := by
  have hcommon : (CommonField.all.mapM fun f ↦
      encodeValue (d.common f) >>= fun v ↦ pure (presentMember f.key v)) =
        .ok (commonMembers d) := by
    refine mapM_eq_ok_map fun f _ ↦ ?_
    rw [Descriptor.common_of_closed hopened, encodeText_eq_ok]
  rw [encodeType, hcommon]
  change (encodeOwn d.ownFields >>= fun own ↦ Except.ok (Json.obj (Assoc.ofList
    (("type", .str d.tag) :: (commonMembers d ++ own).flatten)))) = _
  rw [hown]
  rfl

theorem exists_writtenAs (hopened : d.opened = [])
    (h : ∀ p ∈ d.ownFields, ∃ w, encodeExtra p.2 = .ok w) :
    ∃ members, encodeType d = .ok (.obj members) ∧ WrittenAs d members := by
  obtain ⟨own, hown⟩ : ∃ own, encodeOwn d.ownFields = .ok own := by
    refine exists_mapM_eq_ok_iff.2 fun p hp ↦ ?_
    obtain ⟨w, hw⟩ := h p hp
    exact ⟨_, bind_pure_eq_ok_iff.2 ⟨w, hw, rfl⟩⟩
  have hmem {key : String} {w : Json} :
      (key, w) ∈ ("type", .str d.tag) :: (commonMembers d ++ own).flatten ↔ Written d key w := by
    rw [List.mem_cons, List.flatten_append, List.mem_append, mem_commonMembers_iff,
      mem_own_iff hown, Prod.mk.injEq]
    constructor
    · rintro (⟨hkey, hw⟩ | ⟨f, hkey, hw⟩ | ⟨p, hp, hkey, hw, hnull⟩)
      · exact .tag hkey hw
      · exact .common f hkey hw
      · exact .own p hp hkey hw hnull
    · rintro (⟨hkey, hw⟩ | ⟨f, hkey, hw⟩ | ⟨p, hp, hkey, hw, hnull⟩)
      · exact .inl ⟨hkey, hw⟩
      · exact .inr (.inl ⟨f, hkey, hw⟩)
      · exact .inr (.inr ⟨p, hp, hkey, hw, hnull⟩)
  refine ⟨_, encodeType_of_closed hopened hown, ?_, ?_, ?_⟩
  · exact fun hfind ↦ hmem.1 (Assoc.mem_of_find?_ofList hfind)
  · exact fun hw ↦ Assoc.exists_find?_ofList (hmem.2 hw)
  · intro key x w hx hw hnull
    rw [Assoc.find?_ofList, List.reverse_cons, List.flatten_append, List.reverse_append,
      List.append_assoc, Assoc.find?_append, find?_reverse_own hown hnull hx hw, Option.some_or]

end

end Wire

end Typings
