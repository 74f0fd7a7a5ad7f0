import Typings.Access
import Typings.Proofs.NumeralText
import Typings.Proofs.Outcome

/-!
# One table behind every access

A registry that is made of a dictionary holds under each text the descriptor of the last item whose
id has this text, in the order in which the texts first appear. Whichever way a registry is asked,
the answer is read off this one table; and it does not matter whether a description is given the
dictionary or the registry. An id without a text is refused, as a key and wherever it is asked for.
-/

namespace Typings

/-! ## Tables -/

namespace Assoc

variable {κ ν : Type}

theorem insertBy_of_forall_not {same : κ → κ → Bool} {k : κ} {v : ν} {table : List (κ × ν)}
    (h : ∀ p ∈ table, same p.1 k = false) : insertBy same k v table = table ++ [(k, v)] := by
  induction table with
  | nil => rfl
  | cons p rest ih =>
      obtain ⟨hp, hrest⟩ := List.forall_mem_cons.1 h
      rw [insertBy, hp, ih hrest]
      rfl

/-- Where no two keys are the same, nothing is moved or replaced. -/
theorem ofListBy_eq_self {same : κ → κ → Bool} {pairs : List (κ × ν)}
    (h : pairs.Pairwise fun p q ↦ same p.1 q.1 = false) : ofListBy same pairs = pairs := by
  suffices hfold : ∀ table : List (κ × ν), (∀ p ∈ table, ∀ q ∈ pairs, same p.1 q.1 = false) →
      pairs.foldl (fun t p ↦ insertBy same p.1 p.2 t) table = table ++ pairs from
    hfold [] (List.forall_mem_nil _)
  induction h with
  | nil => exact fun table _ ↦ (List.append_nil table).symm
  | @cons q rest hq _ ih =>
      intro table htable
      have hlast : ∀ p ∈ table, same p.1 q.1 = false := fun p hp ↦ htable p hp q List.mem_cons_self
      rw [List.foldl_cons, insertBy_of_forall_not hlast, ih, List.append_assoc]
      · rfl
      · intro p hp s hs
        rcases List.mem_append.1 hp with hp | hp
        · exact htable p hp s (List.mem_cons_of_mem q hs)
        · exact List.mem_singleton.1 hp ▸ hq s hs

variable [DecidableEq κ]

theorem keys_insert (k : κ) (v : ν) (table : List (κ × ν)) :
    (insert k v table).map Prod.fst =
      if k ∈ table.map Prod.fst then table.map Prod.fst else table.map Prod.fst ++ [k] := by
  induction table with
  | nil => rfl
  | cons p rest ih =>
      by_cases hp : p.1 = k
      · simp [insert, hp]
      · rw [insert, if_neg hp, List.map_cons, ih]
        by_cases hk : k ∈ rest.map Prod.fst
        · rw [if_pos hk, if_pos (by exact List.mem_cons_of_mem _ hk)]
          rfl
        · rw [if_neg hk, if_neg]
          · rfl
          · rw [List.map_cons, List.mem_cons, not_or]
            exact ⟨Ne.symm hp, hk⟩

/-- The keys of a table are those that it was made of, in the order of their first appearance. -/
theorem keys_ofList (pairs : List (κ × ν)) :
    (ofList pairs).map Prod.fst = (pairs.map Prod.fst).eraseDups := by
  suffices hfold : ∀ table : List (κ × ν),
      (pairs.foldl (fun t p ↦ insert p.1 p.2 t) table).map Prod.fst = table.map Prod.fst ++
        ((pairs.map Prod.fst).filter (· ∉ table.map Prod.fst)).eraseDups from
    (hfold []).trans (by simp)
  induction pairs with
  | nil => simp
  | cons p pairs ih =>
      intro table
      rw [List.foldl_cons, ih, keys_insert, List.map_cons]
      by_cases hp : p.1 ∈ table.map Prod.fst
      · rw [if_pos hp, List.filter_cons_of_neg (by simpa using hp)]
      · rw [if_neg hp, List.filter_cons_of_pos (by simpa using hp), List.eraseDups_cons,
          List.filter_filter, List.append_assoc, List.singleton_append]
        have hfilter : ∀ k ∈ pairs.map Prod.fst, decide (k ∉ table.map Prod.fst ++ [p.1]) =
            (!k == p.1 && decide (k ∉ table.map Prod.fst)) := by
          intro k _
          rw [Bool.eq_iff_iff]
          simp [and_comm]
        rw [List.filter_congr hfilter]

theorem find?_map {α : Type} (f : α → κ) (g : α → ν) (k : κ) (xs : List α) :
    find? k (xs.map fun x ↦ (f x, g x)) = (xs.find? fun x ↦ f x = k).map g := by
  induction xs with
  | nil => rfl
  | cons x xs ih => by_cases hx : f x = k <;> simp [find?, hx, ih]

end Assoc

/-! ## Dictionaries -/

/-- The row of the items of a dictionary: no two of its keys are equal. -/
def IsDictionary (pairs : List (TypeId × Descriptor)) : Prop :=
  pairs.Pairwise fun p q ↦ p.1.agrees q.1 = false

/-- The descriptor of the last item whose id has the text of another one. -/
def lastUnder? (pairs : List (TypeId × Descriptor)) (id : TypeId) : Option Descriptor :=
  (pairs.reverse.find? fun p ↦ p.1.text = id.text).map Prod.snd

namespace Registry

variable {r : Registry} {pairs : List (TypeId × Descriptor)}

theorem entryOf_eq_ok {p : TypeId × Descriptor} (h : p.1.hasText = true) :
    entryOf p = .ok (p.1.text, p.2) := by
  rw [entryOf, Value.text?, if_pos h]

theorem entryOf_eq_error {p : TypeId × Descriptor} (h : p.1.hasText = false) :
    entryOf p = .error .overlong := by
  rw [entryOf, Value.text?, h]
  rfl

/-- The table of a dictionary whose keys have texts. -/
def underTexts (pairs : List (TypeId × Descriptor)) : Registry :=
  Table.ofList (pairs.map fun p ↦ (p.1.text, p.2))

theorem ofPairs_eq_ok (h : IsDictionary pairs) (htexts : ∀ p ∈ pairs, p.1.hasText = true) :
    ofPairs pairs = .ok (underTexts pairs) := by
  rw [ofPairs, Assoc.ofListBy_eq_self h, mapM_eq_ok_map fun p hp ↦ entryOf_eq_ok (htexts p hp)]
  rfl

theorem ofPairs_eq_error (h : IsDictionary pairs) (htext : ∃ p ∈ pairs, p.1.hasText = false) :
    ofPairs pairs = .error .overlong := by
  have hfails : FailsWith (· = .overlong) (pairs.mapM entryOf) := by
    refine FailsWith.mapM fun p _ ↦ ?_
    cases hp : p.1.hasText with
    | true => exact entryOf_eq_ok hp ▸ failsWith_ok _
    | false => exact entryOf_eq_error hp ▸ failsWith_error rfl
  obtain ⟨p, hp, hnone⟩ := htext
  obtain ⟨e, he⟩ := exists_mapM_eq_error_iff.2 ⟨p, hp, IdError.overlong, entryOf_eq_error hnone⟩
  rw [ofPairs, Assoc.ofListBy_eq_self h, he, hfails e he]
  rfl

theorem find?_underTexts (pairs : List (TypeId × Descriptor)) (id : TypeId) :
    (underTexts pairs).find? id = lastUnder? pairs id := by
  change Assoc.find? id.text (Assoc.ofList _) = _
  rw [Assoc.find?_ofList, ← List.map_reverse, Assoc.find?_map, lastUnder?]

theorem keys_underTexts (pairs : List (TypeId × Descriptor)) :
    (underTexts pairs).keys = (pairs.map fun p ↦ p.1.text).eraseDups := by
  change (Assoc.ofList _).map Prod.fst = _
  rw [Assoc.keys_ofList, List.map_map]
  rfl

/-- The items of a registry are a dictionary, and the registry that is made of it is the same. -/
theorem ofPairs_pairs (r : Registry) : ofPairs (TypeSource.registry r).pairs = .ok r := by
  have hdict : IsDictionary (TypeSource.registry r).pairs := by
    rw [TypeSource.pairs, IsDictionary, List.pairwise_map]
    exact (List.pairwise_map.1 r.nodup_keys).imp fun hne ↦ beq_false_of_ne hne
  rw [ofPairs_eq_ok hdict (List.forall_mem_map.2 fun _ _ ↦ rfl)]
  refine congrArg Except.ok (Table.ext ?_)
  rw [underTexts, TypeSource.pairs, List.map_map]
  change Assoc.ofList (r.entries.map id) = r.entries
  rw [List.map_id, Assoc.ofList_eq_self r.nodup_keys]

/-! ## Access -/

/-- All ways to ask for an id have one answer: a descriptor, or that the id is not there. -/
inductive Answers (r : Registry) (id : TypeId) : Option Descriptor → Prop
  | found {d : Descriptor} (hlookup : r.lookup id = .ok d) (hitem : r.item id = .ok d)
      (hdefault : ∀ default, r.itemD id default = .ok (some d))
      (hhas : r.hasItem id = .ok true) : Answers r id (some d)
  | absent (hlookup : r.lookup id = .error (.unresolved id))
      (hitem : r.item id = .error (.unresolved id))
      (hdefault : ∀ default, r.itemD id default = .ok default)
      (hhas : r.hasItem id = .ok false) : Answers r id none

/-- No way to ask for an id has an answer. -/
structure Refuses (r : Registry) (id : TypeId) : Prop where
  lookup : r.lookup id = .error .overlongId
  item : r.item id = .error .overlongId
  itemD (default : Option Descriptor) : r.itemD id default = .error .overlongId
  hasItem : r.hasItem id = .error .overlongId

theorem lookup_of_hasText {id : TypeId} (h : id.hasText = true) :
    r.lookup id = match r.find? id with
      | some d => .ok d
      | none => .error (.unresolved id) := by
  rw [lookup, Value.text?, if_pos h]
  rfl

theorem hasItem_of_hasText {id : TypeId} (h : id.hasText = true) :
    r.hasItem id = .ok (r.find? id).isSome := by
  rw [hasItem, Value.text?, if_pos h]
  rfl

theorem answers_find? (r : Registry) {id : TypeId} (h : id.hasText = true) :
    r.Answers id (r.find? id) := by
  have hhas := hasItem_of_hasText (r := r) h
  have hlookup := lookup_of_hasText (r := r) h
  cases hfind : r.find? id with
  | some d =>
      rw [hfind] at hhas hlookup
      refine .found hlookup hlookup (fun default ↦ ?_) hhas
      rw [itemD, item, hlookup]
  | none =>
      rw [hfind] at hhas hlookup
      refine .absent hlookup hlookup (fun default ↦ ?_) hhas
      rw [itemD, item, hlookup]
      rfl

theorem refuses_of_not_hasText (r : Registry) {id : TypeId} (h : id.hasText = false) :
    r.Refuses id := by
  have htext : id.text? = none := by rw [Value.text?, h]; rfl
  have hlookup : r.lookup id = .error .overlongId := by rw [lookup, htext]
  refine ⟨hlookup, hlookup, fun default ↦ ?_, by rw [hasItem, htext]⟩
  rw [itemD, item, hlookup]
  rfl

theorem lookup_of_mem {p : String × Descriptor} (h : p ∈ r.entries) :
    r.lookup (.str p.1) = .ok p.2 := by
  have hfind : r.find? (.str p.1) = some p.2 := Table.get?_eq_some_iff.2 h
  rw [lookup_of_hasText rfl, hfind]

/-- Going through a registry looks up all its types. -/
theorem forall₂_lookup (r : Registry) :
    List.Forall₂ (fun id d ↦ r.lookup (.str id) = .ok d) r.keys r.values := by
  rw [Table.keys, Table.values, List.forall₂_map_left_iff, List.forall₂_map_right_iff,
    List.forall₂_same]
  exact fun p hp ↦ lookup_of_mem hp

theorem descriptors_eq (r : Registry) : r.descriptors = .ok r.values :=
  mapM_eq_ok_iff.2 r.forall₂_lookup

theorem items_eq (r : Registry) : r.items = .ok (r.keys.zip r.values) := by
  have hzip : r.keys.zip r.values = r.entries := (List.zip_of_prod rfl rfl).symm
  rw [hzip, items, mapM_eq_ok_iff, Table.keys, List.forall₂_map_left_iff, List.forall₂_same]
  intro p hp
  rw [item, lookup_of_mem hp]
  rfl

/-- A registry is one table, which some items make up under the texts of their ids. -/
structure IsTableOf (r : Registry) (pairs : List (TypeId × Descriptor)) : Prop where
  answers : ∀ id, id.hasText = true → r.Answers id (lastUnder? pairs id)
  refusals : ∀ id, id.hasText = false → r.Refuses id
  keys : r.keys = (pairs.map fun p ↦ p.1.text).eraseDups
  size : r.size = (pairs.map fun p ↦ p.1.text).eraseDups.length
  lookups : ∃ ds, List.Forall₂ (fun id d ↦ r.lookup (.str id) = .ok d) r.keys ds ∧
    r.descriptors = .ok ds ∧ r.items = .ok (r.keys.zip ds)

theorem isTableOf_underTexts (pairs : List (TypeId × Descriptor)) :
    (underTexts pairs).IsTableOf pairs where
  answers id h := find?_underTexts pairs id ▸ answers_find? _ h
  refusals id h := refuses_of_not_hasText _ h
  keys := keys_underTexts pairs
  size := by
    rw [← keys_underTexts, Table.keys, List.length_map]
    rfl
  lookups := ⟨_, forall₂_lookup _, descriptors_eq _, items_eq _⟩

/-- The registry of a dictionary whose keys have texts is one table, and every way to give a
description the dictionary or this registry leads to it. A dictionary with any other key is
refused. -/
theorem ofPairs_isTableOf (h : IsDictionary pairs) :
    ((∀ p ∈ pairs, p.1.hasText = true) → ∃ r, ofPairs pairs = .ok r ∧ r.IsTableOf pairs ∧
      ∀ entries, Description.ofTypes (.mapping pairs) entries = .ok ⟨r, entries⟩ ∧
        Description.ofTypes (.registry r) entries = .ok ⟨r, entries⟩ ∧
        Description.build (.mapping pairs) entries = .ok ⟨r, entries⟩ ∧
        Description.build (.registry r) entries = .ok ⟨r, entries⟩) ∧
      ((∃ p ∈ pairs, p.1.hasText = false) → ofPairs pairs = .error .overlong ∧
        ∀ entries, Description.ofTypes (.mapping pairs) entries = .error .overlong ∧
          Description.build (.mapping pairs) entries = .error .overlong) := by
  constructor
  · intro htexts
    have hok := ofPairs_eq_ok h htexts
    refine ⟨underTexts pairs, hok, isTableOf_underTexts pairs, fun entries ↦ ⟨?_, rfl, ?_, ?_⟩⟩
    · rw [Description.ofTypes, hok]
      rfl
    · rw [Description.build, TypeSource.pairs, hok]
      rfl
    · rw [Description.build, ofPairs_pairs]
      rfl
  · intro htext
    have herror := ofPairs_eq_error h htext
    refine ⟨herror, fun entries ↦ ⟨?_, ?_⟩⟩
    · rw [Description.ofTypes, herror]
      rfl
    · rw [Description.build, TypeSource.pairs, herror]
      rfl

/-- Four ids of which two have the same text. -/
def mixedIds : List (TypeId × Descriptor) :=
  [(.int 2, .ofBody (.primitive .string) none .none (.primitive .string)),
    (.str "1", .ofBody (.primitive .int) none .none (.primitive .int)),
    (.str "2", .ofBody (.primitive .boolean) none .none (.primitive .boolean)),
    (.int (-1), .ofBody (.primitive .any) none .none (.primitive .any))]

theorem mixedIds_isTableOf : IsDictionary mixedIds ∧
    (∃ r, ofPairs mixedIds = .ok r ∧ r.IsTableOf mixedIds ∧ r.keys = ["2", "1", "-1"]) ∧
    lastUnder? mixedIds (.int 2) =
      some (.ofBody (.primitive .boolean) none .none (.primitive .boolean)) := by
  have h : IsDictionary mixedIds := by
    simp only [IsDictionary, mixedIds, List.pairwise_cons, List.forall_mem_cons]
    exact ⟨⟨rfl, rfl, rfl, List.forall_mem_nil _⟩, ⟨rfl, rfl, List.forall_mem_nil _⟩,
      ⟨rfl, List.forall_mem_nil _⟩, List.forall_mem_nil _, .nil⟩
  have htexts : ∀ p ∈ mixedIds, p.1.hasText = true := by
    simp only [mixedIds, List.forall_mem_cons]
    exact ⟨rfl, rfl, rfl, rfl, List.forall_mem_nil _⟩
  obtain ⟨r, hok, htable, -⟩ := (ofPairs_isTableOf h).1 htexts
  exact ⟨h, ⟨r, hok, htable, htable.keys⟩, rfl⟩

/-- An integer with more digits than are ever written is found nowhere, and nowhere missing either;
nor can a type be entered under it. -/
theorem overlongId_refused :
    IsDictionary [(.int (10 ^ Numeral.digitLimit), .ofBody (.primitive .any) none .none
      (.primitive .any))] ∧
    ofPairs [(.int (10 ^ Numeral.digitLimit), .ofBody (.primitive .any) none .none
      (.primitive .any))] = .error .overlong ∧
    ∀ r : Registry, r.lookup (.int (10 ^ Numeral.digitLimit)) = .error .overlongId := by
  have htext : (Value.int (10 ^ Numeral.digitLimit)).hasText = false :=
    Numeral.isShort_pow_digitLimit
  have hdict := List.pairwise_singleton (fun p q : TypeId × Descriptor ↦ p.1.agrees q.1 = false)
  exact ⟨hdict _, ofPairs_eq_error (hdict _) ⟨_, List.mem_singleton_self _, htext⟩,
    fun r ↦ (r.refuses_of_not_hasText htext).lookup⟩

end Registry

end Typings
