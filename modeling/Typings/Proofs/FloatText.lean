import Mathlib.Data.List.TakeWhile
import Typings.Proofs.NumeralText

/-!
# Floating point numbers read back

The shortest decimal of a magnitude is written without the zeros at its end, with the point placed
among its digits or with an exponent. Either way the parts of the text have the value of the
decimal, so that the number is read back whatever its sign is.
-/

namespace Typings

open Numeral (digits value isDigit)

/-! ## Digits without the zeros at their end -/

namespace Binary64

theorem exists_trimZeros (ds : List Char) :
    ∃ zeros, ds = trimZeros ds ++ List.replicate zeros '0' := by
  refine ⟨(ds.reverse.takeWhile (· == '0')).length, ?_⟩
  have hzeros : ds.reverse.takeWhile (· == '0') =
      List.replicate (ds.reverse.takeWhile (· == '0')).length '0' := by
    refine List.eq_replicate_of_mem fun c hc ↦ ?_
    have hzero := List.mem_takeWhile_imp hc
    exact eq_of_beq hzero
  rw [trimZeros, ← List.reverse_replicate, ← hzeros, ← List.reverse_append,
    List.takeWhile_append_dropWhile, List.reverse_reverse]

theorem exists_trimZeros_cons {d : Char} (hd : d ≠ '0') (tail : List Char) :
    ∃ rest, trimZeros (d :: tail) = d :: rest := by
  obtain ⟨zeros, hzeros⟩ := exists_trimZeros (d :: tail)
  cases htrim : trimZeros (d :: tail) with
  | nil =>
      -- Then all digits would be zeros, the first one too.
      rw [htrim, List.nil_append] at hzeros
      exact absurd (List.eq_of_mem_replicate (hzeros ▸ List.mem_cons_self)) hd
  | cons d' rest =>
      rw [htrim, List.cons_append] at hzeros
      obtain ⟨rfl, -⟩ := List.cons_eq_cons.1 hzeros
      exact ⟨rest, rfl⟩

/-- A decimal that reads as a magnitude: its digits, the first of which is not zero, and the power
of ten of the last one. -/
structure IsDecimal (rank : Nat) (ds : List Char) (e : Int) : Prop where
  head : ∃ d tail, ds = d :: tail ∧ d ≠ '0'
  digits : ∀ c ∈ ds, isDigit c = true
  nearest : nearestTo (value ds) e = rank

theorem exists_isDecimal {rank : Nat} (hrank : rank ≠ 0) :
    ∃ e, IsDecimal rank (trimZeros (digits (shortest rank).1)) e ∧
      (shortest rank).2 + (digits (shortest rank).1).length =
        e + (trimZeros (digits (shortest rank).1)).length := by
  have hreads := nearestTo_shortest rank
  have hne : (shortest rank).1 ≠ 0 := by
    intro hzero
    rw [hzero, nearestTo_zero] at hreads
    exact hrank hreads.symm
  obtain ⟨d, tail, hdigits, hd⟩ := Numeral.exists_digits_eq_cons hne
  obtain ⟨zeros, hzeros⟩ := exists_trimZeros (digits (shortest rank).1)
  have hvalue : (shortest rank).1 =
      value (trimZeros (digits (shortest rank).1)) * 10 ^ zeros := by
    have happend := congrArg value hzeros
    rwa [Numeral.value_digits, Numeral.value_append, Numeral.value_zeros, List.length_replicate,
      Nat.add_zero] at happend
  have hlength := congrArg List.length hzeros
  rw [List.length_append, List.length_replicate] at hlength
  refine ⟨(shortest rank).2 + zeros, ⟨?_, ?_, ?_⟩, by omega⟩
  · obtain ⟨rest, hrest⟩ := exists_trimZeros_cons hd tail
    rw [hdigits]
    exact ⟨d, rest, hrest, hd⟩
  · intro c hc
    refine Numeral.isDigit_digits (shortest rank).1 c ?_
    rw [hzeros]
    exact List.mem_append_left _ hc
  · rw [← nearestTo_mul_pow, ← hvalue]
    exact hreads

end Binary64

/-! ## Numbers with a fraction or an exponent -/

namespace Json

/-- The power of ten that the exponent of a numeral stands for. -/
def Number.scale : Option (Bool × List Char) → Int
  | none => 0
  | some (negative, ds) => if negative then -(value ds : Int) else value ds

theorem Number.scale_signed (width : Nat) (n : Int) :
    scale (some (decide (n < 0), Numeral.padded width n.natAbs)) = n := by
  rw [scale, Numeral.value_padded]
  by_cases hneg : n < 0
  · rw [if_pos (decide_eq_true hneg)]
    omega
  · rw [if_neg (by simpa using hneg)]
    omega

theorem Number.text_withExponent (negative : Bool) (d : Char) (tail : List Char) (width : Nat)
    (n : Int) :
    text ⟨negative, [d], tail, some (decide (n < 0), Numeral.padded width n.natAbs)⟩ =
      signText negative ++ Binary64.withExponent width (d :: tail) n := by
  have hsign : (if decide (n < 0) = true then '-' else '+') = if n < 0 then '-' else '+' := by
    simp only [decide_eq_true_eq]
  cases tail with
  | nil =>
      rw [text, Binary64.withExponent, exponentText, hsign]
      · rfl
      · rintro _ _ _ ⟨⟩
  | cons c tail =>
      rw [text, exponentText, hsign]
      exact congrArg (_ ++ ·) (List.cons_append ..).symm

theorem Number.toJson_of_ne {x : Number} (h : x.fraction ≠ [] ∨ x.exponent ≠ none) :
    x.toJson = .ok (.float (.ofDecimal x.negative (value (x.whole ++ x.fraction))
      (scale x.exponent - x.fraction.length))) := by
  rw [toJson]
  split
  · next hfraction hexponent => simp_all
  · rfl

theorem Number.wellFormed_of_digits (negative : Bool) {whole fraction : List Char}
    (hwhole : IsWhole whole) (hfraction : ∀ c ∈ fraction, isDigit c = true) :
    (Number.mk negative whole fraction none).WellFormed := by
  refine ⟨hwhole, hfraction, ?_⟩
  rintro _ _ ⟨⟩

theorem isWhole_of_ne {d : Char} {tail : List Char} (hd : d ≠ '0')
    (h : ∀ c ∈ d :: tail, isDigit c = true) : IsWhole (d :: tail) :=
  .inr ⟨d, tail, rfl, hd, h⟩

variable {rank : Fin Binary64.finiteCount} {ds : List Char} {e : Int}

/-- What has the value of a magnitude is a numeral of it. -/
theorem isNumeral_float {x : Number} (hx : x.WellFormed) (hrank : rank.val ≠ 0)
    (h : x.fraction ≠ [] ∨ x.exponent ≠ none)
    (hvalue : Binary64.nearestTo (value (x.whole ++ x.fraction))
      (Number.scale x.exponent - x.fraction.length) = rank) :
    IsNumeral (.float (.finite x.negative rank)) x.text := by
  refine ⟨x, hx, rfl, ?_⟩
  rw [Number.toJson_of_ne h, Binary64.ofDecimal_eq_finite hrank hvalue]

section Nonzero

variable (hrank : rank.val ≠ 0) (h : Binary64.IsDecimal rank ds e) (negative : Bool)

include hrank h

/-- The point stands before the digits. -/
theorem isNumeral_leading {k : Nat} (hplace : e + ds.length - 1 = .negSucc k) :
    IsNumeral (.float (.finite negative rank))
      (Number.signText negative ++ Binary64.place ds (.negSucc k)) := by
  obtain ⟨d, tail, hcons, -⟩ := h.head
  have hdigits : ∀ c ∈ List.replicate k '0' ++ ds, isDigit c = true :=
    List.forall_mem_append.2 ⟨Numeral.isDigit_zeros k, h.digits⟩
  have hne : List.replicate k '0' ++ ds ≠ [] := by
    rw [hcons]
    exact List.append_ne_nil_of_right_ne_nil _ (List.cons_ne_nil d tail)
  let x : Number := ⟨negative, ['0'], List.replicate k '0' ++ ds, none⟩
  have htext : x.text = Number.signText negative ++ Binary64.place ds (.negSucc k) := by
    rw [Number.text, Number.fractionText_of_ne hne]
    exact congrArg (_ ++ '0' :: '.' :: ·) (List.append_nil _)
  rw [← htext]
  refine isNumeral_float (Number.wellFormed_of_digits negative (.inl rfl) hdigits) hrank
    (.inl hne) ?_
  have hvalue : value (['0'] ++ (List.replicate k '0' ++ ds)) = value ds := by
    rw [Numeral.value_append, Numeral.value_append, Numeral.value_zeros, Nat.zero_mul,
      Nat.zero_add]
    exact (congrArg (· + value ds) (Nat.zero_mul _)).trans (Nat.zero_add _)
  have hexponent : Number.scale none - (List.replicate k '0' ++ ds).length = e := by
    rw [List.length_append, List.length_replicate, Number.scale]
    omega
  rw [hvalue, hexponent]
  exact h.nearest

/-- The point stands behind the digits, and zeros fill the places up to it. -/
theorem isNumeral_trailing {k : Nat} (hplace : e + ds.length - 1 = k)
    (hdrop : ds.drop (k + 1) = []) :
    IsNumeral (.float (.finite negative rank))
      (Number.signText negative ++ Binary64.place ds (.ofNat k)) := by
  obtain ⟨d, tail, hcons, hd⟩ := h.head
  have hshort : ds.length ≤ k + 1 := List.drop_eq_nil_iff.1 hdrop
  obtain ⟨zeros, hzeros⟩ : ∃ zeros, k + 1 - ds.length = zeros := ⟨_, rfl⟩
  have hdigits : ∀ c ∈ ds ++ List.replicate zeros '0', isDigit c = true :=
    List.forall_mem_append.2 ⟨h.digits, Numeral.isDigit_zeros zeros⟩
  have hwhole : IsWhole (ds ++ List.replicate zeros '0') := by
    rw [hcons, List.cons_append] at hdigits ⊢
    exact isWhole_of_ne hd hdigits
  let x : Number := ⟨negative, ds ++ List.replicate zeros '0', ['0'], none⟩
  have htext : x.text = Number.signText negative ++ Binary64.place ds (.ofNat k) := by
    rw [Number.text, Binary64.place, hdrop, List.take_of_length_le hshort, hzeros]
    rfl
  rw [← htext]
  refine isNumeral_float (Number.wellFormed_of_digits negative hwhole (Numeral.isDigit_zeros 1))
    hrank (.inl (List.cons_ne_nil _ _)) ?_
  have hvalue : value ((ds ++ List.replicate zeros '0') ++ ['0']) =
      value ds * 10 ^ (zeros + 1) := by
    rw [List.append_assoc, ← List.replicate_succ', Numeral.value_append, Numeral.value_zeros,
      List.length_replicate, Nat.add_zero]
  have hexponent : Number.scale none - ['0'].length + (zeros + 1 : Nat) = e := by
    rw [Number.scale, List.length_singleton]
    omega
  rw [hvalue, Binary64.nearestTo_mul_pow, hexponent]
  exact h.nearest

/-- The point stands among the digits. -/
theorem isNumeral_inner {k : Nat} (hplace : e + ds.length - 1 = k)
    (hdrop : ds.drop (k + 1) ≠ []) :
    IsNumeral (.float (.finite negative rank))
      (Number.signText negative ++ Binary64.place ds (.ofNat k)) := by
  obtain ⟨d, tail, hcons, hd⟩ := h.head
  have hlong : k + 1 < ds.length := by
    by_contra hshort
    exact hdrop (List.drop_eq_nil_of_le (by omega))
  have hsplit : ds.take (k + 1) ++ ds.drop (k + 1) = ds := List.take_append_drop _ _
  have hdigits := h.digits
  rw [← hsplit] at hdigits
  obtain ⟨hdigits, hfraction⟩ := List.forall_mem_append.1 hdigits
  have hwhole : IsWhole (ds.take (k + 1)) := by
    rw [hcons, List.take_succ_cons] at hdigits ⊢
    exact isWhole_of_ne hd hdigits
  let x : Number := ⟨negative, ds.take (k + 1), ds.drop (k + 1), none⟩
  have htext : x.text = Number.signText negative ++ Binary64.place ds (.ofNat k) := by
    have hzeros : k + 1 - ds.length = 0 := by omega
    rw [Number.text, Number.fractionText_of_ne hdrop, Binary64.place, hzeros, List.replicate_zero,
      List.append_nil]
    split
    · next hnil => exact absurd hnil hdrop
    · exact congrArg (fun cs ↦ _ ++ (_ ++ '.' :: cs)) (List.append_nil _)
  rw [← htext]
  refine isNumeral_float (Number.wellFormed_of_digits negative hwhole hfraction) hrank
    (.inl hdrop) ?_
  have hexponent : Number.scale none - (ds.drop (k + 1)).length = e := by
    rw [List.length_drop, Number.scale]
    omega
  rw [hsplit, hexponent]
  exact h.nearest

theorem isNumeral_place : IsNumeral (.float (.finite negative rank))
    (Number.signText negative ++ Binary64.place ds (e + ds.length - 1)) := by
  cases hplace : e + ds.length - 1 with
  | negSucc k => exact isNumeral_leading hrank h negative hplace
  | ofNat k =>
      by_cases hdrop : ds.drop (k + 1) = []
      · exact isNumeral_trailing hrank h negative hplace hdrop
      · exact isNumeral_inner hrank h negative hplace hdrop

theorem isNumeral_withExponent (width : Nat) : IsNumeral (.float (.finite negative rank))
    (Number.signText negative ++ Binary64.withExponent width ds (e + ds.length - 1)) := by
  obtain ⟨d, tail, rfl, hd⟩ := h.head
  obtain ⟨hdigit, htail⟩ := List.forall_mem_cons.1 h.digits
  obtain ⟨scientific, hscientific⟩ : ∃ scientific, e + (d :: tail).length - 1 = scientific :=
    ⟨_, rfl⟩
  rw [hscientific]
  rw [List.length_cons] at hscientific
  obtain ⟨hne, hpadded⟩ := Numeral.isDigit_padded width scientific.natAbs
  rw [← Number.text_withExponent]
  refine isNumeral_float (x := ⟨negative, [d], tail, _⟩) ⟨?_, htail, ?_⟩ hrank
    (.inr (Option.some_ne_none _)) ?_
  · exact isWhole_of_ne hd (List.forall_mem_singleton.2 hdigit)
  · rintro _ _ ⟨⟩
    exact ⟨hne, hpadded⟩
  · have hexponent : scientific - (tail.length : Int) = e := by omega
    rw [Number.scale_signed, hexponent]
    exact h.nearest

end Nonzero

/-- A finite number is written as a numeral of it. -/
theorem isNumeral_finite (spelling : Binary64.Spelling) (negative : Bool)
    (rank : Fin Binary64.finiteCount) : IsNumeral (.float (.finite negative rank))
      (Binary64.text spelling (.finite negative rank)) := by
  have hsigned (cs : List Char) :
      Binary64.text.signed negative cs = Number.signText negative ++ cs := by
    cases negative with
    | true => rfl
    | false => rfl
  rw [Binary64.text, hsigned, Binary64.magnitudeText]
  by_cases hrank : rank.val = 0
  · rw [if_pos hrank]
    obtain rfl : rank = ⟨0, by decide⟩ := Fin.ext hrank
    exact ⟨⟨negative, ['0'], ['0'], none⟩,
      Number.wellFormed_of_digits negative (.inl rfl) (Numeral.isDigit_zeros 1), rfl, rfl⟩
  · obtain ⟨e, hdecimal, hscientific⟩ := Binary64.exists_isDecimal hrank
    rw [if_neg hrank]
    dsimp only
    rw [hscientific]
    split_ifs
    · exact isNumeral_place hrank hdecimal negative
    · exact isNumeral_withExponent hrank hdecimal negative spelling.exponentWidth

end Json

end Typings
