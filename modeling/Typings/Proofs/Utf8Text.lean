import Typings.Proofs.Outcome
import Typings.Text.Utf8

/-!
# Bytes that are a text

The decoder accepts exactly the bytes that characters are encoded as, and gives those characters.
-/

namespace Typings.Text

/-! ## Encoded characters -/

section Encode

variable {v : Nat}

theorem toNat_val_ofNat (h : v.isValidChar) : (Char.ofNat v).val.toNat = v := by
  rw [Char.ofNat, dif_pos h]
  rfl

theorem encode_one (h : v < 0x80) : String.utf8EncodeChar (Char.ofNat v) = [.ofNat v] := by
  have hv : (Char.ofNat v).val.toNat = v := toNat_val_ofNat (.inl (by omega))
  rw [String.utf8EncodeChar, hv]
  exact if_pos (by omega)

theorem encode_two (h : 0x80 ≤ v) (h' : v < 0x800) :
    String.utf8EncodeChar (Char.ofNat v) = [.ofNat (0xC0 + v / 64), .ofNat (0x80 + v % 64)] := by
  have hv : (Char.ofNat v).val.toNat = v := toNat_val_ofNat (.inl (by omega))
  have hfirst : v / 64 % 32 + 192 = 0xC0 + v / 64 := by omega
  rw [String.utf8EncodeChar, hv]
  rw [if_neg (by omega), if_pos (by omega), hfirst, Nat.add_comm _ 128]

theorem encode_three (h : 0x800 ≤ v) (h' : v < 0x10000) (hv : v.isValidChar) :
    String.utf8EncodeChar (Char.ofNat v) =
      [.ofNat (0xE0 + v / 4096), .ofNat (0x80 + v / 64 % 64), .ofNat (0x80 + v % 64)] := by
  have hfirst : v / 4096 % 16 + 224 = 0xE0 + v / 4096 := by omega
  rw [String.utf8EncodeChar, toNat_val_ofNat hv]
  rw [if_neg (by omega), if_neg (by omega), if_pos (by omega), hfirst, Nat.add_comm _ 128,
    Nat.add_comm _ 128]

theorem encode_four (h : 0x10000 ≤ v) (h' : v < 0x110000) :
    String.utf8EncodeChar (Char.ofNat v) =
      [.ofNat (0xF0 + v / 262144), .ofNat (0x80 + v / 4096 % 64), .ofNat (0x80 + v / 64 % 64),
        .ofNat (0x80 + v % 64)] := by
  have hv : (Char.ofNat v).val.toNat = v := toNat_val_ofNat (.inr (by omega))
  have hfirst : v / 262144 % 8 + 240 = 0xF0 + v / 262144 := by omega
  rw [String.utf8EncodeChar, hv]
  rw [if_neg (by omega), if_neg (by omega), if_neg (by omega), hfirst, Nat.add_comm _ 128,
    Nat.add_comm _ 128, Nat.add_comm _ 128]

end Encode

/-! ## Characters read byte by byte -/

namespace Partial

/-- Bytes complete a character of which the first have been read, and its number is `v`. -/
inductive Completes : Partial → List UInt8 → Nat → Prop
  | last {p : Partial} {b : UInt8} (hlow : p.low ≤ b.toNat) (hhigh : b.toNat ≤ p.high)
      (hmissing : p.missing ≤ 1) : Completes p [b] (p.bits * 0x40 + (b.toNat - 0x80))
  | next {p : Partial} {b : UInt8} {tail : List UInt8} {v : Nat} (hlow : p.low ≤ b.toNat)
      (hhigh : b.toNat ≤ p.high) (hmissing : 1 < p.missing)
      (htail : Completes ⟨p.first, p.bits * 0x40 + (b.toNat - 0x80), p.missing - 1, 0x80, 0xBF⟩
        tail v) : Completes p (b :: tail) v

theorem Completes.head_mem {p : Partial} {b : UInt8} {tail : List UInt8} {v : Nat}
    (h : p.Completes (b :: tail) v) : p.low ≤ b.toNat ∧ b.toNat ≤ p.high := by
  cases h with
  | last hlow hhigh _ => exact ⟨hlow, hhigh⟩
  | next hlow hhigh _ _ => exact ⟨hlow, hhigh⟩

section

variable {b first : UInt8} {tail : List UInt8} {bits missing low high v : Nat}

theorem completes_one_iff : Completes ⟨first, bits, 1, low, high⟩ tail v ↔
    ∃ x : UInt8, tail = [x] ∧ low ≤ x.toNat ∧ x.toNat ≤ high ∧
      v = bits * 0x40 + (x.toNat - 0x80) := by
  constructor
  · intro h
    cases h with
    | @last _ x hlow hhigh _ => exact ⟨x, rfl, hlow, hhigh, rfl⟩
    | next _ _ hmissing _ => simp at hmissing
  · rintro ⟨x, rfl, hlow, hhigh, hv⟩
    rw [hv]
    exact .last hlow hhigh (Nat.le_refl 1)

theorem completes_succ_iff : Completes ⟨first, bits, missing + 2, low, high⟩ tail v ↔
    ∃ (x : UInt8) (rest : List UInt8), tail = x :: rest ∧ low ≤ x.toNat ∧ x.toNat ≤ high ∧
      Completes ⟨first, bits * 0x40 + (x.toNat - 0x80), missing + 1, 0x80, 0xBF⟩ rest v := by
  constructor
  · intro h
    cases h with
    | last _ _ hmissing => exact absurd hmissing (by simp)
    | @next _ x rest _ hlow hhigh _ htail => exact ⟨x, rest, rfl, hlow, hhigh, htail⟩
  · rintro ⟨x, rest, rfl, hlow, hhigh, hrest⟩
    exact .next hlow hhigh (by simp) hrest

theorem ofFirst?_two (h : 0xC2 ≤ b.toNat) (h' : b.toNat ≤ 0xDF) :
    ofFirst? b = some ⟨b, b.toNat - 0xC0, 1, 0x80, 0xBF⟩ :=
  if_pos ⟨h, h'⟩

theorem ofFirst?_three (h : 0xE0 ≤ b.toNat) (h' : b.toNat ≤ 0xEF) :
    ofFirst? b = some ⟨b, b.toNat - 0xE0, 2, if b.toNat = 0xE0 then 0xA0 else 0x80,
      if b.toNat = 0xED then 0x9F else 0xBF⟩ := by
  rw [ofFirst?]
  rw [if_neg (by omega)]
  by_cases hfirst : b.toNat = 0xE0
  · simp [hfirst]
  · by_cases hlast : b.toNat = 0xED
    · simp [hlast]
    · simp [hfirst, hlast]
      omega

theorem ofFirst?_four (h : 0xF0 ≤ b.toNat) (h' : b.toNat ≤ 0xF4) :
    ofFirst? b = some ⟨b, b.toNat - 0xF0, 3, if b.toNat = 0xF0 then 0x90 else 0x80,
      if b.toNat = 0xF4 then 0x8F else 0xBF⟩ := by
  rw [ofFirst?]
  rw [if_neg (by omega), if_neg (by omega), if_neg (by omega), if_neg (by omega)]
  by_cases hfirst : b.toNat = 0xF0
  · simp [hfirst]
  · by_cases hlast : b.toNat = 0xF4
    · simp [hlast]
    · simp [hfirst, hlast]
      omega

theorem ofFirst?_cases {p : Partial} (h : ofFirst? b = some p) :
    (0xC2 ≤ b.toNat ∧ b.toNat ≤ 0xDF) ∨ (0xE0 ≤ b.toNat ∧ b.toNat ≤ 0xEF) ∨
      0xF0 ≤ b.toNat ∧ b.toNat ≤ 0xF4 := by
  rw [ofFirst?] at h
  by_contra hrange
  rw [if_neg (by omega), if_neg (by omega), if_neg (by omega), if_neg (by omega),
    if_neg (by omega), if_neg (by omega), if_neg (by omega)] at h
  cases h

end

end Partial

section

variable {b : UInt8} {tail : List UInt8} {v : Nat}

theorem toNat_byte {n : Nat} (h : n < 0x100) : (UInt8.ofNat n).toNat = n := by
  rw [UInt8.toNat_ofNat', Nat.mod_eq_of_lt h]

theorem ofNat_eq_byte {n : Nat} (h : b.toNat = n) : UInt8.ofNat n = b := by
  rw [← h, UInt8.ofNat_toNat]

/-- The first byte of a character tells how many follow, and those complete it. -/
theorem completes_of_encode (hv : v.isValidChar)
    (h : String.utf8EncodeChar (Char.ofNat v) = b :: tail) :
    (b.toNat < 0x80 ∧ tail = [] ∧ b.toNat = v) ∨
      ∃ p, Partial.ofFirst? b = some p ∧ p.Completes tail v := by
  have hv' : v < 0xD800 ∨ 0xDFFF < v ∧ v < 0x110000 := hv
  have hlow : (UInt8.ofNat (0x80 + v % 64)).toNat = 0x80 + v % 64 := toNat_byte (by omega)
  have hmiddle : (UInt8.ofNat (0x80 + v / 64 % 64)).toNat = 0x80 + v / 64 % 64 :=
    toNat_byte (by omega)
  have hhigh : (UInt8.ofNat (0x80 + v / 4096 % 64)).toNat = 0x80 + v / 4096 % 64 :=
    toNat_byte (by omega)
  by_cases hone : v < 0x80
  · have hb := toNat_byte (n := v) (by omega)
    rw [encode_one hone] at h
    obtain ⟨rfl, rfl⟩ := List.cons_eq_cons.1 h
    exact .inl ⟨by omega, rfl, hb⟩
  by_cases htwo : v < 0x800
  · have hb := toNat_byte (n := 0xC0 + v / 64) (by omega)
    rw [encode_two (by omega) htwo] at h
    obtain ⟨rfl, rfl⟩ := List.cons_eq_cons.1 h
    refine .inr ⟨_, Partial.ofFirst?_two (by omega) (by omega), ?_⟩
    exact Partial.completes_one_iff.2 ⟨_, rfl, by omega, by omega, by omega⟩
  by_cases hthree : v < 0x10000
  · have hb := toNat_byte (n := 0xE0 + v / 4096) (by omega)
    rw [encode_three (by omega) hthree hv] at h
    obtain ⟨rfl, rfl⟩ := List.cons_eq_cons.1 h
    refine .inr ⟨_, Partial.ofFirst?_three (by omega) (by omega), ?_⟩
    refine Partial.completes_succ_iff.2 ⟨_, _, rfl, ?_, ?_, ?_⟩
    · split_ifs
      · omega
      · omega
    · split_ifs
      · omega
      · omega
    · exact Partial.completes_one_iff.2 ⟨_, rfl, by omega, by omega, by omega⟩
  · have hb := toNat_byte (n := 0xF0 + v / 262144) (by omega)
    rw [encode_four (by omega) (by omega)] at h
    obtain ⟨rfl, rfl⟩ := List.cons_eq_cons.1 h
    refine .inr ⟨_, Partial.ofFirst?_four (by omega) (by omega), ?_⟩
    refine Partial.completes_succ_iff.2 ⟨_, _, rfl, ?_, ?_, ?_⟩
    · split_ifs
      · omega
      · omega
    · split_ifs
      · omega
      · omega
    · refine Partial.completes_succ_iff.2 ⟨_, _, rfl, by omega, by omega, ?_⟩
      exact Partial.completes_one_iff.2 ⟨_, rfl, by omega, by omega, by omega⟩

theorem encode_of_completes {p : Partial} (hp : Partial.ofFirst? b = some p)
    (h : p.Completes tail v) : String.utf8EncodeChar (Char.ofNat v) = b :: tail := by
  rcases Partial.ofFirst?_cases hp with ⟨hb, hb'⟩ | ⟨hb, hb'⟩ | ⟨hb, hb'⟩
  · rw [Partial.ofFirst?_two hb hb'] at hp
    obtain rfl := Option.some.inj hp
    obtain ⟨x, rfl, hx, hx', hv⟩ := Partial.completes_one_iff.1 h
    rw [encode_two (by omega) (by omega), ofNat_eq_byte (b := b) (by omega),
      ofNat_eq_byte (b := x) (by omega)]
  · rw [Partial.ofFirst?_three hb hb'] at hp
    obtain rfl := Option.some.inj hp
    obtain ⟨x, rest, rfl, hx, hx', hrest⟩ := Partial.completes_succ_iff.1 h
    obtain ⟨y, rfl, hy, hy', hv⟩ := Partial.completes_one_iff.1 hrest
    have hrange : 0x80 ≤ x.toNat ∧ 0x20 ≤ (b.toNat - 0xE0) * 0x40 + (x.toNat - 0x80) := by
      split_ifs at hx
      · omega
      · omega
    have hrange' : x.toNat ≤ 0xBF ∧ ((b.toNat - 0xE0) * 0x40 + (x.toNat - 0x80) < 0x360 ∨
        0x37F < (b.toNat - 0xE0) * 0x40 + (x.toNat - 0x80)) := by
      split_ifs at hx'
      · omega
      · omega
    have hvalid : v < 0xD800 ∨ 0xDFFF < v ∧ v < 0x110000 := by omega
    rw [encode_three (by omega) (by omega) hvalid, ofNat_eq_byte (b := b) (by omega),
      ofNat_eq_byte (b := x) (by omega), ofNat_eq_byte (b := y) (by omega)]
  · rw [Partial.ofFirst?_four hb hb'] at hp
    obtain rfl := Option.some.inj hp
    obtain ⟨x, rest, rfl, hx, hx', hrest⟩ := Partial.completes_succ_iff.1 h
    obtain ⟨y, rest, rfl, hy, hy', hrest⟩ := Partial.completes_succ_iff.1 hrest
    obtain ⟨z, rfl, hz, hz', hv⟩ := Partial.completes_one_iff.1 hrest
    have hrange : 0x80 ≤ x.toNat ∧ 0x10 ≤ (b.toNat - 0xF0) * 0x40 + (x.toNat - 0x80) := by
      split_ifs at hx
      · omega
      · omega
    have hrange' : x.toNat ≤ 0xBF ∧ (b.toNat - 0xF0) * 0x40 + (x.toNat - 0x80) ≤ 0x10F := by
      split_ifs at hx'
      · omega
      · omega
    rw [encode_four (by omega) (by omega), ofNat_eq_byte (b := b) (by omega),
      ofNat_eq_byte (b := x) (by omega), ofNat_eq_byte (b := y) (by omega),
      ofNat_eq_byte (b := z) (by omega)]

end

/-! ## Texts -/

/-- The character that has been begun is completed, and the rest is decoded. -/
theorem decodeFrom_some_eq_ok_iff {p : Partial} {read position : Nat} {bytes : List UInt8}
    {cs : List Char} : decodeFrom position (some (p, read)) bytes = .ok cs ↔
      ∃ tail rest v cs', bytes = tail ++ rest ∧ p.Completes tail v ∧ cs = Char.ofNat v :: cs' ∧
        decodeFrom (position + tail.length) none rest = .ok cs' := by
  induction bytes generalizing p read position with
  | nil =>
      constructor
      · intro h
        cases h
      · rintro ⟨tail, rest, v, cs', hbytes, hp, -⟩
        obtain ⟨rfl, -⟩ := List.append_eq_nil_iff.1 hbytes.symm
        cases hp
  | cons b bytes ih =>
      rw [decodeFrom]
      dsimp only
      split_ifs with hrange hmissing
      · rw [map_eq_ok_iff]
        constructor
        · rintro ⟨cs', hrest, rfl⟩
          exact ⟨[b], bytes, _, cs', rfl, .last hrange.1 hrange.2 hmissing, rfl, hrest⟩
        · rintro ⟨tail, rest, v, cs', hbytes, hp, rfl, hrest⟩
          cases hp with
          | last _ _ _ =>
              obtain ⟨rfl, rfl⟩ := List.cons_eq_cons.1 hbytes
              exact ⟨cs', hrest, rfl⟩
          | next _ _ hmissing' _ => exact absurd hmissing (Nat.not_le.2 hmissing')
      · rw [ih]
        constructor
        · rintro ⟨tail, rest, v, cs', rfl, hp, rfl, hrest⟩
          refine ⟨b :: tail, rest, v, cs', rfl, .next hrange.1 hrange.2 (by omega) hp, rfl, ?_⟩
          rw [List.length_cons, ← Nat.add_assoc, Nat.add_right_comm]
          exact hrest
        · rintro ⟨tail, rest, v, cs', hbytes, hp, rfl, hrest⟩
          cases hp with
          | last _ _ hmissing' => exact absurd hmissing' hmissing
          | @next _ _ tail _ _ _ _ hp =>
              obtain ⟨rfl, rfl⟩ := List.cons_eq_cons.1 hbytes
              refine ⟨tail, rest, v, cs', rfl, hp, rfl, ?_⟩
              rw [List.length_cons, ← Nat.add_assoc, Nat.add_right_comm] at hrest
              exact hrest
      · constructor
        · intro h
          cases h
        · rintro ⟨_ | ⟨x, tail⟩, rest, v, cs', hbytes, hp, -⟩
          · cases hp
          · obtain ⟨rfl, -⟩ := List.cons_eq_cons.1 hbytes
            exact absurd hp.head_mem hrange

/-- Decoding takes the bytes of one character after another. -/
theorem decodeFrom_cons_eq_ok_iff {position : Nat} {b : UInt8} {bytes : List UInt8}
    {cs : List Char} : decodeFrom position none (b :: bytes) = .ok cs ↔
      ∃ c tail rest cs', bytes = tail ++ rest ∧ String.utf8EncodeChar c = b :: tail ∧
        cs = c :: cs' ∧ decodeFrom (position + 1 + tail.length) none rest = .ok cs' := by
  have hencode {c : Char} {tail : List UInt8} (h : String.utf8EncodeChar c = b :: tail) :=
    completes_of_encode (v := c.val.toNat) c.valid ((congrArg _ c.ofNat_toNat).trans h)
  rw [decodeFrom]
  split_ifs with hascii
  · rw [map_eq_ok_iff]
    constructor
    · rintro ⟨cs', hrest, rfl⟩
      refine ⟨Char.ofNat b.toNat, [], bytes, cs', rfl, ?_, rfl, hrest⟩
      rw [encode_one hascii, UInt8.ofNat_toNat]
    · rintro ⟨c, tail, rest, cs', rfl, hc, rfl, hrest⟩
      rcases hencode hc with ⟨-, rfl, hv⟩ | ⟨p, hp, -⟩
      · refine ⟨cs', hrest, ?_⟩
        rw [hv]
        exact congrArg (· :: cs') c.ofNat_toNat
      · have hrange := Partial.ofFirst?_cases hp
        omega
  · cases hp : Partial.ofFirst? b with
    | none =>
        constructor
        · intro h
          cases h
        · rintro ⟨c, tail, rest, cs', rfl, hc, -⟩
          rcases hencode hc with ⟨hascii', -⟩ | ⟨p, hp', -⟩
          · exact absurd hascii' hascii
          · rw [hp] at hp'
            cases hp'
    | some p =>
        dsimp only
        rw [decodeFrom_some_eq_ok_iff]
        constructor
        · rintro ⟨tail, rest, v, cs', rfl, htail, rfl, hrest⟩
          exact ⟨Char.ofNat v, tail, rest, cs', rfl, encode_of_completes hp htail, rfl, hrest⟩
        · rintro ⟨c, tail, rest, cs', rfl, hc, rfl, hrest⟩
          rcases hencode hc with ⟨hascii', -⟩ | ⟨p', hp', htail⟩
          · exact absurd hascii' hascii
          · obtain rfl := Option.some.inj (hp.symm.trans hp')
            exact ⟨tail, rest, _, cs', rfl, htail, congrArg (· :: cs') c.ofNat_toNat.symm, hrest⟩

theorem decodeFrom_eq_ok_iff {position : Nat} {bytes : List UInt8} {cs : List Char} :
    decodeFrom position none bytes = .ok cs ↔ cs.flatMap String.utf8EncodeChar = bytes := by
  induction cs generalizing position bytes with
  | nil =>
      cases bytes with
      | nil => exact ⟨fun _ ↦ rfl, fun _ ↦ rfl⟩
      | cons b bytes =>
          rw [decodeFrom_cons_eq_ok_iff]
          constructor
          · rintro ⟨c, tail, rest, cs', -, -, ⟨⟩, -⟩
          · rintro ⟨⟩
  | cons c cs ih =>
      obtain ⟨b, tail, hc⟩ := List.exists_cons_of_ne_nil (String.utf8EncodeChar_ne_nil (c := c))
      rw [List.flatMap_cons, hc]
      cases bytes with
      | nil =>
          constructor
          · intro h
            cases h
          · intro h
            cases h
      | cons b' bytes =>
          rw [decodeFrom_cons_eq_ok_iff, List.cons_append, List.cons_eq_cons]
          constructor
          · rintro ⟨c', tail', rest, cs', rfl, hc', hcs, hrest⟩
            obtain ⟨rfl, rfl⟩ := List.cons_eq_cons.1 hcs
            obtain ⟨rfl, rfl⟩ := List.cons_eq_cons.1 (hc.symm.trans hc')
            exact ⟨rfl, congrArg (tail ++ ·) (ih.1 hrest)⟩
          · rintro ⟨rfl, rfl⟩
            exact ⟨c, tail, _, cs, rfl, hc, rfl, ih.2 rfl⟩

/-- Bytes are decoded exactly if they are valid, that is what some characters are encoded as. -/
theorem exists_decodeUtf8_iff {bytes : List UInt8} :
    (∃ cs, decodeUtf8 bytes = .ok cs) ↔ bytes.toByteArray.IsValidUTF8 := by
  simp only [decodeUtf8, decodeFrom_eq_ok_iff]
  constructor
  · rintro ⟨cs, rfl⟩
    exact ⟨cs, rfl⟩
  · rintro ⟨cs, h⟩
    exact ⟨cs, (List.toByteArray_inj.1 h).symm⟩

end Typings.Text
