import Mathlib.Data.List.Nodup
import Mathlib.Data.List.Perm.Subperm
import Mathlib.Data.List.TakeDrop
import Mathlib.Data.List.TakeWhile
import Typings.Json.Reader
import Typings.Proofs.JsonStrings
import Typings.Proofs.Utf8Text

/-!
# Lone surrogates in a text

A string of a text is read to the characters of its code points, where a stand-in is read as the
surrogate that it stands for. This rests on the choice of the stand-ins: the text has no other use
for them, and every surrogate that it names has one of its own. So a text can be encoded unless a
lone surrogate is left in it.
-/

namespace Typings

namespace Text.StandIns

/-! ## The choice of the stand-ins -/

section Choice

variable {used : List Char} {count : Nat} {surrogates : List Nat}

theorem toNat_candidate {k : Nat} (hk : k < 0x100000) :
    (Char.ofNat (0x10FFFF - k)).toNat = 0x10FFFF - k := by
  exact toNat_val_ofNat (.inr ⟨by omega, by omega⟩)

theorem notMem_of_mem_spare {c : Char} (hc : c ∈ spare used count) : c ∉ used := by
  have hfree := (List.mem_filter.1 hc).2
  rw [Bool.not_eq_true', List.contains_eq_mem, decide_eq_false_iff_not] at hfree
  exact hfree

/-- The characters that are spare are beyond the first plane. -/
theorem le_toNat_of_mem_spare (h : used.length + count ≤ 0x100000) {c : Char}
    (hc : c ∈ spare used count) : 0x10000 ≤ c.toNat := by
  obtain ⟨k, hk, rfl⟩ := List.mem_map.1 (List.mem_filter.1 hc).1
  have hk := List.mem_range.1 hk
  rw [toNat_candidate (by omega)]
  omega

theorem nodup_candidates {n : Nat} (h : n ≤ 0x100000) :
    ((List.range n).map fun k ↦ Char.ofNat (0x10FFFF - k)).Nodup := by
  apply List.Nodup.map_on ?_ List.nodup_range
  intro j hj k hk hjk
  have hj := List.mem_range.1 hj
  have hk := List.mem_range.1 hk
  have hnat := congrArg Char.toNat hjk
  rw [toNat_candidate (by omega), toNat_candidate (by omega)] at hnat
  omega

theorem nodup_spare (h : used.length + count ≤ 0x100000) : (spare used count).Nodup :=
  (nodup_candidates h).filter _

/-- As many are spare as are wanted, for no more candidates are in use than characters are. -/
theorem le_length_spare (h : used.length + count ≤ 0x100000) :
    count ≤ (spare used count).length := by
  have hsplit := List.length_eq_length_filter_add (used.contains ·)
    (l := (List.range (used.length + count)).map fun k ↦ Char.ofNat (0x10FFFF - k))
  have hinuse : (((List.range (used.length + count)).map fun k ↦
      Char.ofNat (0x10FFFF - k)).filter (used.contains ·)).length ≤ used.length := by
    apply List.Subperm.length_le
    apply List.subperm_of_subset ((nodup_candidates h).filter _)
    intro c hc
    exact List.contains_iff_mem.1 (List.mem_filter.1 hc).2
  rw [List.length_map, List.length_range] at hsplit
  rw [spare]
  omega

theorem pairs_avoiding (used : List Char) (surrogates : List Nat) :
    (avoiding used surrogates).pairs = surrogates.zip (spare used surrogates.length) := by
  cases surrogates with
  | nil => rfl
  | cons n surrogates => rfl

theorem mem_spare_of_surrogate? {c : Char} {n : Nat}
    (h : (avoiding used surrogates).surrogate? c = some n) : c ∈ spare used surrogates.length := by
  obtain ⟨p, hp, rfl⟩ := Option.map_eq_some_iff.1 h
  have hc := List.find?_some hp
  obtain rfl : p.2 = c := of_decide_eq_true hc
  have hmem := List.mem_of_find?_eq_some hp
  rw [pairs_avoiding] at hmem
  exact (List.of_mem_zip hmem).2

/-- A character that is in use is no stand-in. -/
theorem surrogate?_of_mem {c : Char} (hc : c ∈ used) :
    (avoiding used surrogates).surrogate? c = none := by
  cases h : (avoiding used surrogates).surrogate? c with
  | none => rfl
  | some n => exact absurd hc (notMem_of_mem_spare (mem_spare_of_surrogate? h))

theorem surrogate?_of_lt (hroom : used.length + surrogates.length ≤ 0x100000) {c : Char}
    (hc : c.toNat < 0x10000) : (avoiding used surrogates).surrogate? c = none := by
  cases h : (avoiding used surrogates).surrogate? c with
  | none => rfl
  | some n =>
      have hle := le_toNat_of_mem_spare hroom (mem_spare_of_surrogate? h)
      omega

theorem surrogate?_find? {n : Nat} {surrogates : List Nat} {cs : List Char} (hcs : cs.Nodup)
    (hlength : surrogates.length ≤ cs.length) (hn : n ∈ surrogates) : ∃ c,
      Assoc.find? n (surrogates.zip cs) = some c ∧
        (surrogates.zip cs).find? (·.2 = c) = some (n, c) := by
  induction surrogates generalizing cs with
  | nil => cases hn
  | cons m surrogates ih =>
      cases cs with
      | nil => cases hlength
      | cons d cs =>
          rw [List.zip_cons_cons, Assoc.find?]
          split_ifs with hm
          · subst hm
            exact ⟨d, rfl, by simp⟩
          · obtain ⟨hd, hcs⟩ := List.nodup_cons.1 hcs
            have hrest := (List.mem_cons.1 hn).resolve_left (Ne.symm hm)
            obtain ⟨c, hfind, hpair⟩ := ih hcs (Nat.le_of_succ_le_succ hlength) hrest
            have hc : d ≠ c := by
              rintro rfl
              exact hd (List.of_mem_zip (List.mem_of_find?_eq_some hpair)).2
            exact ⟨c, hfind, (List.find?_cons_of_neg (by simpa using hc)).trans hpair⟩

/-- The stand-in of a surrogate stands for it and no other one. -/
theorem surrogate?_char (hroom : used.length + surrogates.length ≤ 0x100000) {n : Nat}
    (hn : n ∈ surrogates) :
    (avoiding used surrogates).surrogate? ((avoiding used surrogates).char n) = some n := by
  obtain ⟨c, hfind, hpair⟩ := surrogate?_find? (nodup_spare hroom) (le_length_spare hroom) hn
  rw [char, surrogate?, pairs_avoiding, hfind, Option.getD_some, hpair]
  rfl

end Choice

/-! ## Texts that can be encoded -/

/-- A lone surrogate is left in a text. -/
def Occurs (σ : StandIns) (text : String) : Prop := ∃ c ∈ text.toList, σ.isStandIn c = true

section Encode

variable {σ : StandIns} {text : String}

theorem flaw?_eq_none_iff : σ.flaw? text = none ↔ ¬ σ.Occurs text := by
  rw [flaw?, List.span_eq_takeWhile_dropWhile]
  dsimp only
  rw [Option.map_eq_none_iff, Option.bind_eq_none_iff]
  have hstop := List.head?_dropWhile_not (!σ.isStandIn ·) text.toList
  constructor
  · rintro h ⟨c, hc, hstandIn⟩
    cases hrest : text.toList.dropWhile (!σ.isStandIn ·) with
    | nil =>
        have hfree := List.dropWhile_eq_nil_iff.1 hrest c hc
        rw [hstandIn] at hfree
        cases hfree
    | cons d rest =>
        rw [hrest] at h hstop
        have hd : σ.isStandIn d = true := by simpa using hstop
        rw [isStandIn, h d rfl] at hd
        cases hd
  · intro h c hc
    have hmem := (List.dropWhile_suffix _).subset (List.mem_of_mem_head? hc)
    cases hsurrogate : σ.surrogate? c with
    | none => rfl
    | some n => exact absurd ⟨c, hmem, by rw [isStandIn, hsurrogate]; rfl⟩ h

theorem encode_eq_ok_iff {bytes : List UInt8} :
    σ.encode text = .ok bytes ↔ ¬ σ.Occurs text ∧ encodeUtf8 text = bytes := by
  rw [← flaw?_eq_none_iff, encode]
  cases σ.flaw? text with
  | none => simp
  | some e => simp

theorem exists_encode_eq_error_iff : (∃ e, σ.encode text = .error e) ↔ σ.Occurs text := by
  rw [← not_not (a := σ.Occurs text), ← flaw?_eq_none_iff, encode]
  cases σ.flaw? text with
  | none => simp
  | some e => simp

end Encode

/-- The code point that a character of a text is. -/
def codePoint (σ : StandIns) (c : Char) : Nat := (σ.surrogate? c).getD c.toNat

end Text.StandIns

namespace Json

/-! ## Strings -/

/-- The code points that code units stand for: a pair stands for one, any other one for itself. -/
def codePoints : List Nat → List Nat
  | [] => []
  | [n] => [n]
  | m :: n :: rest =>
    if IsPair m n then (0x10000 + (m - 0xD800) * 0x400 + (n - 0xDC00)) :: codePoints rest
    else m :: codePoints (n :: rest)

/-- What stands for the surrogates among some code units stands for nothing else there. -/
def Suits (σ : Text.StandIns) : List Nat → Prop
  | [] => True
  | n :: units =>
    (if Text.isSurrogate n then σ.surrogate? (σ.char n) = some n
      else (Char.ofNat n).toNat = n ∧ σ.surrogate? (Char.ofNat n) = none) ∧
    (∀ m, units.head? = some m → IsPair n m → σ.surrogate? (pairChar n m) = none) ∧
    Suits σ units

section Units

variable {σ : Text.StandIns}

theorem codePoint_single {n : Nat} {units : List Nat} (h : Suits σ (n :: units)) :
    σ.codePoint (joinSurrogates.single σ n) = n := by
  have hn := h.1
  rw [joinSurrogates.single]
  split_ifs at hn ⊢
  · rw [Text.StandIns.codePoint, hn]
    rfl
  · rw [Text.StandIns.codePoint, hn.2]
    exact hn.1

theorem codePoint_pairChar {m n : Nat} (hpair : IsPair m n)
    (h : σ.surrogate? (pairChar m n) = none) :
    σ.codePoint (pairChar m n) = 0x10000 + (m - 0xD800) * 0x400 + (n - 0xDC00) := by
  obtain ⟨hm, hm', hn, hn'⟩ := hpair
  rw [Text.StandIns.codePoint, h, Option.getD_none, pairChar]
  exact Text.toNat_val_ofNat (.inr ⟨by omega, by omega⟩)

theorem map_codePoint_joinSurrogates {units : List Nat} (h : Suits σ units) :
    (joinSurrogates σ units).map σ.codePoint = codePoints units := by
  fun_induction codePoints units with
  | case1 => rfl
  | case2 n => rw [joinSurrogates, List.map_singleton, codePoint_single h]
  | case3 m n rest hpair ih =>
      obtain ⟨-, hfree, -, -, hrest⟩ := h
      rw [joinSurrogates, if_pos hpair, List.map_cons, ih hrest,
        codePoint_pairChar hpair (hfree n rfl hpair)]
  | case4 m n rest hpair ih =>
      rw [joinSurrogates, if_neg hpair, List.map_cons, ih h.2.2, codePoint_single h]

end Units

section Scan

variable {text start cs rest : List Char} {units : List Nat}

theorem mem_named {α : Type} {name? : List Char → Option α} {a : α} (hcs : cs <:+ text)
    (hne : cs ≠ []) (h : name? cs = some a) : a ∈ named name? text := by
  induction text with
  | nil => exact absurd (List.suffix_nil.1 hcs) hne
  | cons c text ih =>
      rw [named, List.mem_append]
      rcases List.suffix_cons_iff.1 hcs with rfl | hcs
      · exact .inl (by rw [h]; exact List.mem_singleton_self a)
      · exact .inr (ih hcs)

theorem length_named_le {α : Type} (name? : List Char → Option α) (cs : List Char) :
    (named name? cs).length ≤ cs.length := by
  induction cs with
  | nil => exact Nat.le_refl 0
  | cons c cs ih =>
      rw [named, List.length_append, List.length_cons]
      have hone : (name? (c :: cs)).toList.length ≤ 1 := Option.length_toList_le
      omega

theorem toNat_of_escaped? {c x : Char} (h : escaped? c = some x) : x.toNat < 0x80 := by
  unfold escaped? at h
  split at h
  all_goals cases h
  all_goals decide

theorem lt_of_hexDigit? {c : Char} {d : Nat} (h : hexDigit? c = some d) : d < 16 := by
  unfold hexDigit? at h
  have hnine : '9'.toNat - '0'.toNat < 16 := by decide
  have hlow : 'f'.toNat - 'a'.toNat + 10 < 16 := by decide
  have hcapital : 'F'.toNat - 'A'.toNat + 10 < 16 := by decide
  split_ifs at h with hdigit hletter hletter'
  all_goals obtain rfl := Option.some.inj h
  · exact Nat.lt_of_le_of_lt (Nat.sub_le_sub_right hdigit.2 _) hnine
  · exact Nat.lt_of_le_of_lt (Nat.add_le_add_right (Nat.sub_le_sub_right hletter.2 _) 10) hlow
  · exact Nat.lt_of_le_of_lt (Nat.add_le_add_right (Nat.sub_le_sub_right hletter'.2 _) 10) hcapital

theorem lt_of_hexQuad? {a b c d : Char} {n : Nat} (h : hexQuad? a b c d = some n) :
    n < 0x10000 := by
  unfold hexQuad? at h
  split at h
  · next ha hb hc hd =>
    cases h
    have ha := lt_of_hexDigit? ha
    have hb := lt_of_hexDigit? hb
    have hc := lt_of_hexDigit? hc
    have hd := lt_of_hexDigit? hd
    omega
  · cases h

/-- The first code unit of a string is named by an escape, or it is a character. -/
theorem scanString_cons_cases {n : Nat} (h : scanString start cs = .ok (n :: units, rest)) :
    (escapedUnit? cs = some n ∧ n < 0x10000 ∧ scanString start (cs.drop 6) = .ok (units, rest)) ∨
      ∃ c tail, c.toNat = n ∧ (c ∈ cs ∨ n < 0x80) ∧ tail <:+ cs ∧
        scanString start tail = .ok (units, rest) := by
  revert h
  fun_cases scanString start cs with
  | case4 a b c d e tail m hquad =>
      intro h
      obtain ⟨_, hscan, hunits⟩ := prepend_eq_ok.1 h
      cases hunits
      exact .inl ⟨hquad, lt_of_hexQuad? hquad, hscan⟩
  | case7 c tail _ _ x hx =>
      intro h
      obtain ⟨_, hscan, hunits⟩ := prepend_eq_ok.1 h
      cases hunits
      exact .inr ⟨x, tail, rfl, .inr (toNat_of_escaped? hx), List.suffix_append [_, c] tail, hscan⟩
  | case10 c tail =>
      intro h
      obtain ⟨_, hscan, hunits⟩ := prepend_eq_ok.1 h
      cases hunits
      exact .inr ⟨c, tail, rfl, .inl List.mem_cons_self, List.suffix_cons c tail, hscan⟩
  | _ => nofun

/-- Only an escape names a surrogate. -/
theorem escapedUnit?_of_scanString {n : Nat} (h : scanString start cs = .ok (n :: units, rest))
    (hn : Text.isSurrogate n = true) : escapedUnit? cs = some n := by
  rcases scanString_cons_cases h with ⟨hescape, -⟩ | ⟨c, -, rfl, -⟩
  · exact hescape
  · exact absurd hn (not_isSurrogate_toNat c)

end Scan

section StandIns

variable {text start cs rest : List Char} {units : List Nat}

/-- Reading a string of a text meets none of the stand-ins by chance. The bound leaves more
characters than the text can hold or name. -/
theorem suits_standIns (hroom : 3 * text.length ≤ 0x100000) (hcs : cs <:+ text)
    (h : scanString start cs = .ok (units, rest)) : Suits (standIns text) units := by
  have hpairs := length_named_le escapedPair? text
  have hnamed := length_named_le escapedUnit? text
  have hsurrogates := List.length_filter_le Text.isSurrogate (named escapedUnit? text)
  have hroom : (text ++ named escapedPair? text).length +
      ((named escapedUnit? text).filter Text.isSurrogate).length ≤ 0x100000 := by
    rw [List.length_append]
    omega
  induction units generalizing cs with
  | nil => trivial
  | cons n units ih =>
      rcases scanString_cons_cases h with ⟨hescape, hn, hrest⟩ | ⟨c, tail, rfl, hc, htail, hrest⟩
      · have hne : cs ≠ [] := by
          rintro rfl
          cases hescape
        refine ⟨?_, ?_, ih ((List.drop_suffix 6 cs).trans hcs) hrest⟩
        · split_ifs with hsurrogate
          · exact Text.StandIns.surrogate?_char hroom
              (List.mem_filter.2 ⟨mem_named hcs hne hescape, hsurrogate⟩)
          · have hvalid : (Char.ofNat n).toNat = n := by
              rw [Text.isSurrogate, Bool.and_eq_true, decide_eq_true_eq, decide_eq_true_eq]
                at hsurrogate
              apply Text.toNat_val_ofNat
              unfold Nat.isValidChar
              omega
            exact ⟨hvalid, Text.StandIns.surrogate?_of_lt hroom (by rw [hvalid]; exact hn)⟩
        · intro m hm hpair
          obtain ⟨us, rfl⟩ := List.head?_eq_some_iff.1 hm
          have hlow : Text.isSurrogate m = true := by
            rw [Text.isSurrogate, Bool.and_eq_true, decide_eq_true_eq, decide_eq_true_eq]
            obtain ⟨-, -, hm, hm'⟩ := hpair
            omega
          have hnamed : escapedPair? cs = some (pairChar n m) := by
            rw [escapedPair?, hescape, escapedUnit?_of_scanString hrest hlow]
            exact if_pos hpair
          exact Text.StandIns.surrogate?_of_mem
            (List.mem_append_right _ (mem_named hcs hne hnamed))
      · refine ⟨?_, ?_, ih (htail.trans hcs) hrest⟩
        · rw [if_neg (not_isSurrogate_toNat c), Char.ofNat_toNat]
          refine ⟨rfl, ?_⟩
          rcases hc with hc | hc
          · exact Text.StandIns.surrogate?_of_mem (List.mem_append_left _ (hcs.subset hc))
          · exact Text.StandIns.surrogate?_of_lt hroom (by omega)
        · intro m _ hpair
          have hvalid := toNat_valid c
          obtain ⟨hlow, hhigh, -⟩ := hpair
          omega

/-- A string of a text is read to the code points that it spells, if stand-ins count as what they
stand for. -/
theorem codePoints_of_scanString (hroom : 3 * text.length ≤ 0x100000) (hcs : cs <:+ text)
    (h : scanString start cs = .ok (units, rest)) :
    (joinSurrogates (standIns text) units).map (standIns text).codePoint = codePoints units :=
  map_codePoint_joinSurrogates (suits_standIns hroom hcs h)

end StandIns

end Json

end Typings
