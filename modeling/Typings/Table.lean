/-!
# Ordered tables

A table keeps each key at the place of its first appearance and each value at that of its last.
The operations work on plain association lists, so that trees can nest them; `Table` packs a list
together with the fact that no key occurs twice.
-/

namespace Typings

namespace Assoc

variable {κ ν : Type}

/-- Puts `v` under `k`: in place if a key equal to `k` is there, at the end otherwise. The key that
is already there stays. -/
def insertBy (same : κ → κ → Bool) (k : κ) (v : ν) : List (κ × ν) → List (κ × ν)
  | [] => [(k, v)]
  | (k', v') :: rest =>
    if same k' k then (k', v) :: rest else (k', v') :: insertBy same k v rest

/-- The table of a list of pairs under a given equality of keys. -/
def ofListBy (same : κ → κ → Bool) (pairs : List (κ × ν)) : List (κ × ν) :=
  pairs.foldl (fun table p ↦ insertBy same p.1 p.2 table) []

variable [DecidableEq κ]

def insert (k : κ) (v : ν) : List (κ × ν) → List (κ × ν)
  | [] => [(k, v)]
  | (k', v') :: rest => if k' = k then (k', v) :: rest else (k', v') :: insert k v rest

def ofList (pairs : List (κ × ν)) : List (κ × ν) :=
  pairs.foldl (fun table p ↦ insert p.1 p.2 table) []

def find? (k : κ) : List (κ × ν) → Option ν
  | [] => none
  | (k', v) :: rest => if k' = k then some v else find? k rest

theorem mem_keys_insert {k k' : κ} {v : ν} {table : List (κ × ν)} :
    k' ∈ (insert k v table).map Prod.fst ↔ k' = k ∨ k' ∈ table.map Prod.fst := by
  induction table with
  | nil => simp [insert]
  | cons p rest ih =>
    unfold insert
    split
    · next h => subst h; simp
    · simp only [List.map_cons, List.mem_cons, ih]
      exact or_left_comm

theorem nodup_keys_insert {k : κ} {v : ν} {table : List (κ × ν)}
    (h : (table.map Prod.fst).Nodup) : ((insert k v table).map Prod.fst).Nodup := by
  induction table with
  | nil => simp [insert]
  | cons p rest ih =>
    obtain ⟨hp, hrest⟩ := List.nodup_cons.1 h
    unfold insert
    split
    · exact List.nodup_cons.2 ⟨hp, hrest⟩
    · next hne =>
      refine List.nodup_cons.2 ⟨?_, ih hrest⟩
      rw [mem_keys_insert]
      exact fun hk ↦ hk.elim hne hp

theorem nodup_keys_ofList (pairs : List (κ × ν)) : ((ofList pairs).map Prod.fst).Nodup := by
  suffices h : ∀ table : List (κ × ν), (table.map Prod.fst).Nodup →
      ((pairs.foldl (fun t p ↦ insert p.1 p.2 t) table).map Prod.fst).Nodup from
    h [] List.nodup_nil
  induction pairs with
  | nil => exact fun _ h ↦ h
  | cons p rest ih => exact fun table h ↦ ih _ (nodup_keys_insert h)

/-- A key is looked up to what was put under it last. -/
theorem find?_insert {k k' : κ} {v : ν} {table : List (κ × ν)} :
    find? k' (insert k v table) = if k = k' then some v else find? k' table := by
  induction table with
  | nil => rfl
  | cons p rest ih =>
    by_cases hk : p.1 = k
    · simp only [insert, hk, if_true, find?]
      split <;> rfl
    · by_cases hk' : p.1 = k'
      · have hne : k ≠ k' := fun h ↦ hk (hk'.trans h.symm)
        rw [insert, if_neg hk, find?, if_pos hk', if_neg hne, find?, if_pos hk']
      · simp [insert, hk, find?, hk', ih]

/-- What is looked up is there. -/
theorem mem_keys_of_find? {k : κ} {v : ν} {table : List (κ × ν)} (h : find? k table = some v) :
    k ∈ table.map Prod.fst := by
  induction table with
  | nil => cases h
  | cons p rest ih =>
    by_cases hk : p.1 = k
    · simp [hk]
    · exact List.mem_cons_of_mem _ (ih (by simpa [find?, hk] using h))

theorem mem_of_find? {k : κ} {v : ν} {table : List (κ × ν)} (h : find? k table = some v) :
    (k, v) ∈ table := by
  induction table with
  | nil => cases h
  | cons p rest ih =>
    by_cases hk : p.1 = k
    · obtain rfl : p.2 = v := by simpa [find?, hk] using h
      simp [← hk]
    · exact List.mem_cons_of_mem _ (ih (by simpa [find?, hk] using h))

theorem find?_of_mem {k : κ} {v : ν} {table : List (κ × ν)} (hnodup : (table.map Prod.fst).Nodup)
    (h : (k, v) ∈ table) : find? k table = some v := by
  induction table with
  | nil => cases h
  | cons p rest ih =>
    obtain ⟨hp, hrest⟩ := List.nodup_cons.1 hnodup
    rcases List.mem_cons.1 h with rfl | h
    · simp [find?]
    · have hne : p.1 ≠ k := fun heq ↦ hp (heq ▸ List.mem_map_of_mem h)
      simp [find?, hne, ih hrest h]

theorem find?_append {k : κ} {table rest : List (κ × ν)} :
    find? k (table ++ rest) = (find? k table).or (find? k rest) := by
  induction table with
  | nil => rfl
  | cons p table ih =>
    by_cases hk : p.1 = k
    · simp [find?, hk]
    · simp [find?, hk, ih]

/-- Of several values under a key a table holds the last. -/
theorem find?_ofList (k : κ) (pairs : List (κ × ν)) :
    find? k (ofList pairs) = find? k pairs.reverse := by
  suffices h : ∀ table : List (κ × ν), find? k (pairs.foldl (fun t p ↦ insert p.1 p.2 t) table) =
      (find? k pairs.reverse).or (find? k table) from (h []).trans Option.or_none
  induction pairs with
  | nil => exact fun table ↦ rfl
  | cons p pairs ih =>
      intro table
      rw [List.foldl_cons, ih, find?_insert, List.reverse_cons, find?_append, Option.or_assoc]
      by_cases hp : p.1 = k <;> simp [find?, hp]

theorem insert_of_notMem {k : κ} {v : ν} {table : List (κ × ν)} (h : k ∉ table.map Prod.fst) :
    insert k v table = table ++ [(k, v)] := by
  induction table with
  | nil => rfl
  | cons p rest ih =>
    obtain ⟨hne, hrest⟩ : k ≠ p.1 ∧ k ∉ rest.map Prod.fst := by simpa using h
    rw [insert, if_neg (Ne.symm hne), ih hrest, List.cons_append]

/-- Where each key occurs once, nothing is moved or replaced. -/
theorem ofList_eq_self {pairs : List (κ × ν)} (h : (pairs.map Prod.fst).Nodup) :
    ofList pairs = pairs := by
  suffices hfold : ∀ table : List (κ × ν), ((table ++ pairs).map Prod.fst).Nodup →
      pairs.foldl (fun t p ↦ insert p.1 p.2 t) table = table ++ pairs from hfold [] h
  clear h
  induction pairs with
  | nil => exact fun table _ ↦ (List.append_nil table).symm
  | cons p rest ih =>
    intro table h
    have hp : p.1 ∉ table.map Prod.fst := by
      intro hmem
      rw [List.map_append, List.nodup_append] at h
      exact h.2.2 p.1 hmem p.1 (List.mem_map_of_mem List.mem_cons_self) rfl
    rw [List.append_cons] at h
    rw [List.foldl_cons, insert_of_notMem hp, ih _ h, ← List.append_cons]

theorem mem_of_mem_insert {k : κ} {v : ν} {table : List (κ × ν)} {p : κ × ν}
    (h : p ∈ insert k v table) : p.2 = v ∨ p ∈ table := by
  induction table with
  | nil => exact .inl (congrArg Prod.snd (List.mem_singleton.1 h))
  | cons q rest ih =>
    rw [insert] at h
    split at h
    · rcases List.mem_cons.1 h with rfl | h
      · exact .inl rfl
      · exact .inr (List.mem_cons_of_mem _ h)
    · rcases List.mem_cons.1 h with rfl | h
      · exact .inr List.mem_cons_self
      · exact (ih h).imp_right (List.mem_cons_of_mem _)

/-- The values of a table are among those that it was made of. -/
theorem mem_values_of_mem_ofList {pairs : List (κ × ν)} {p : κ × ν} (h : p ∈ ofList pairs) :
    p.2 ∈ pairs.map Prod.snd := by
  suffices hfold : ∀ table : List (κ × ν), p ∈ pairs.foldl (fun t q ↦ insert q.1 q.2 t) table →
      p ∈ table ∨ p.2 ∈ pairs.map Prod.snd from (hfold [] h).resolve_left List.not_mem_nil
  clear h
  induction pairs with
  | nil => exact fun table h ↦ .inl h
  | cons q rest ih =>
    intro table h
    rcases ih _ h with h | h
    · rcases mem_of_mem_insert h with h | h
      · exact .inr (h ▸ List.mem_cons_self)
      · exact .inl h
    · exact .inr (List.mem_cons_of_mem _ h)

end Assoc

/-- A finite map from texts in order of first insertion. -/
structure Table (ν : Type) where
  entries : List (String × ν)
  nodup_keys : (entries.map Prod.fst).Nodup

namespace Table

variable {ν μ : Type}

def empty : Table ν := ⟨[], List.nodup_nil⟩

instance : Inhabited (Table ν) := ⟨empty⟩

def ofList (pairs : List (String × ν)) : Table ν :=
  ⟨Assoc.ofList pairs, Assoc.nodup_keys_ofList pairs⟩

def insert (t : Table ν) (k : String) (v : ν) : Table ν :=
  ⟨Assoc.insert k v t.entries, Assoc.nodup_keys_insert t.nodup_keys⟩

def get? (t : Table ν) (k : String) : Option ν := Assoc.find? k t.entries

def contains (t : Table ν) (k : String) : Bool := (t.get? k).isSome

def keys (t : Table ν) : List String := t.entries.map Prod.fst

def values (t : Table ν) : List ν := t.entries.map Prod.snd

def size (t : Table ν) : Nat := t.entries.length

theorem get?_insert (t : Table ν) (k k' : String) (v : ν) :
    (t.insert k v).get? k' = if k = k' then some v else t.get? k' :=
  Assoc.find?_insert

theorem get?_eq_some_iff {t : Table ν} {k : String} {v : ν} :
    t.get? k = some v ↔ (k, v) ∈ t.entries :=
  ⟨Assoc.mem_of_find?, Assoc.find?_of_mem t.nodup_keys⟩

theorem ext {t u : Table ν} (h : t.entries = u.entries) : t = u := by
  cases t; cases u; cases h; rfl

end Table

end Typings
