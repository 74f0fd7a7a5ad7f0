import Typings.Proofs.WireNormalForm

/-!
# Agreement

Values that are data agree with themselves, as what is decoded does, unless an object has two
members of one name. Null agrees with nothing else.
-/

namespace Typings

/-! ## Values -/

theorem Value.IsLiteral.agrees_self {v : Value} (h : v.IsLiteral) : v.agrees v = true := by
  cases v with
  | str s => simp [agrees]
  | int n => simp [agrees, sameNumber, asInt?]
  | bool b => simp [agrees, sameNumber, asInt?]
  | float x =>
      cases x with
      | finite negative rank => simp [agrees, sameNumber, Binary64.sameValue]
      | _ => cases h
  | _ => exact h.elim

theorem Value.IsScalar.agrees_self {v : Value} (h : v.IsScalar) : v.agrees v = true :=
  h.isLiteral.agrees_self

theorem Value.eq_null_of_agrees_null {w : Json} (h : (Value.ofJson w).agrees .null = true) :
    w = .null := by
  cases w with
  | null => rfl
  | float x => cases x <;> simp [ofJson, agrees, sameNumber, asInt?] at h
  | _ => simp [ofJson, agrees, sameNumber, asInt?] at h

theorem Value.ofText_agrees_self (s : Option String) :
    (Value.ofText s).agrees (.ofText s) = true := by
  cases s <;> simp [ofText, agrees]

theorem Value.agreesItems_self {vs : List Value} (h : ∀ v ∈ vs, v.IsId) :
    agreesItems vs vs = true := by
  induction vs with
  | nil => rfl
  | cons v vs ih =>
      obtain ⟨hv, hvs⟩ := List.forall_mem_cons.1 h
      rw [agreesItems, hv.scalar.agrees_self, ih hvs]
      rfl

/-! ## Data -/

theorem Value.agrees_ofJson_float (x : Binary64) :
    (Value.ofJson (.float x)).agrees (.ofJson (.float x)) = true := by
  cases x <;> simp [ofJson, agrees, sameNumber, Binary64.sameValue]

theorem Value.find?_ofMembers (key : String) (members : List (String × Json)) :
    Assoc.find? key (ofMembers members) = (Assoc.find? key members).map ofJson := by
  induction members with
  | nil => rfl
  | cons p rest ih =>
      rw [ofMembers, Assoc.find?, Assoc.find?, ih]
      split <;> rfl

namespace Json

mutual

theorem HasDistinctKeys.agrees_self {v : Json} (h : v.HasDistinctKeys) :
    (Value.ofJson v).agrees (.ofJson v) = true := by
  match v with
  | .null | .bool _ | .int _ | .str _ =>
      simp [Value.ofJson, Value.agrees, Value.sameNumber, Value.asInt?]
  | .float x => exact Value.agrees_ofJson_float x
  | .arr items =>
      rw [HasDistinctKeys] at h
      simpa [Value.ofJson, Value.agrees] using AllDistinct.agreesItems_self h
  | .obj members =>
      obtain ⟨hnodup, hmembers⟩ := h
      have hself := MembersDistinct.agreesMembers_self hmembers fun p hp ↦
        Assoc.find?_of_mem hnodup hp
      simpa [Value.ofJson, Value.agrees] using hself

theorem AllDistinct.agreesItems_self {items : List Json} (h : AllDistinct items) :
    Value.agreesItems (Value.ofItems items) (Value.ofItems items) = true := by
  match items with
  | [] => rfl
  | v :: rest =>
      obtain ⟨hv, hrest⟩ := h
      rw [Value.ofItems, Value.agreesItems, hv.agrees_self, hrest.agreesItems_self]
      rfl

theorem MembersDistinct.agreesMembers_self {members all : List (String × Json)}
    (h : MembersDistinct members) (hfind : ∀ p ∈ members, Assoc.find? p.1 all = some p.2) :
    Value.agreesMembers (Value.ofMembers members) (Value.ofMembers all) = true := by
  match members with
  | [] => rfl
  | (key, v) :: rest =>
      obtain ⟨hv, hrest⟩ := h
      obtain ⟨hhead, htail⟩ := List.forall_mem_cons.1 hfind
      rw [Value.ofMembers, Value.agreesMembers, Value.find?_ofMembers, hhead, Option.map_some,
        hrest.agreesMembers_self htail]
      simpa using hv.agrees_self

end

end Json

/-! ## Descriptors -/

theorem Descriptor.agreesTable_self {fields : Table Field}
    (h : ∀ p ∈ fields.entries, p.2.typeId.IsId) :
    agreesTable agreesField fields fields = true := by
  rw [agreesTable, beq_self_eq_true, Bool.true_and, List.all_eq_true]
  intro p hp
  have hget : fields.get? p.1 = some p.2 := Table.get?_eq_some_iff.2 hp
  simp only [hget, agreesField, (h p hp).scalar.agrees_self, beq_self_eq_true, Bool.and_true]

theorem Descriptor.agreesExtras_iff {xs ys : List (String × Extra)} :
    agreesExtras xs ys = true ↔
      List.Forall₂ (fun p q ↦ p.1 = q.1 ∧ agreesExtra p.2 q.2 = true) xs ys := by
  induction xs generalizing ys with
  | nil =>
      cases ys with
      | nil => exact ⟨fun _ ↦ .nil, fun _ ↦ rfl⟩
      | cons q ys => simp [agreesExtras]
  | cons p xs ih =>
      cases ys with
      | nil => simp [agreesExtras]
      | cons q ys =>
          rw [List.forall₂_cons, ← ih, agreesExtras, Bool.and_eq_true, Bool.and_eq_true,
            beq_iff_eq]

end Typings
