import Mathlib.Tactic.Ring
import Typings.Binary64.Shortest

/-!
# Magnitudes read back

A decimal is read as the rank nearest to it, which depends on its value alone. Where that is the
value of a magnitude, the rank is that of the magnitude; so the exact expansion reads back, and with
it the shortest decimal.
-/

namespace Typings.Binary64

/-! ## The nearest rank -/

theorem divHalfEven_mul_mul {k : Nat} (hk : 0 < k) (n d : Nat) :
    divHalfEven (k * n) (k * d) = divHalfEven n d := by
  have hless (a b : Nat) : 2 * (k * a) < k * b ↔ 2 * a < b := by
    rw [Nat.mul_left_comm]
    exact Nat.mul_lt_mul_left hk
  have hgreater (a b : Nat) : k * b < 2 * (k * a) ↔ b < 2 * a := by
    rw [Nat.mul_left_comm]
    exact Nat.mul_lt_mul_left hk
  simp only [divHalfEven, Nat.mul_div_mul_left n d hk, Nat.mul_mod_mul_left, hless, hgreater]

theorem divHalfEven_mul_self {d : Nat} (hd : 0 < d) (n : Nat) : divHalfEven (n * d) d = n := by
  have hrest : 2 * (n * d % d) < d := by
    rw [Nat.mul_mod_left]
    exact hd
  simp only [divHalfEven, if_pos hrest, Nat.mul_div_cancel n hd]

theorem nearestRank_mul_mul {k : Nat} (hk : 0 < k) (num den : Nat) :
    nearestRank (k * num) (k * den) = nearestRank num den := by
  simp only [nearestRank, Nat.mul_assoc k, Nat.mul_div_mul_left _ _ hk, divHalfEven_mul_mul hk]

/-- Equal fractions have the same rank. -/
theorem nearestRank_congr {num den num' den' : Nat} (hden : 0 < den) (hden' : 0 < den')
    (h : num * den' = num' * den) : nearestRank num den = nearestRank num' den' := by
  rw [← nearestRank_mul_mul hden' num den, ← nearestRank_mul_mul hden num' den',
    Nat.mul_comm den' num, h, Nat.mul_comm num' den, Nat.mul_comm den' den]

/-- The rank of a multiple of the least magnitude. -/
theorem nearestRank_of_scaled {num den s : Nat} (hden : 0 < den)
    (h : num * Nat.pow 2 1074 = s * den) :
    nearestRank num den =
      (s.log2 - 52) * binadeSize + divHalfEven s (Nat.pow 2 (s.log2 - 52)) := by
  rw [nearestRank, h, Nat.mul_div_cancel s hden, Nat.mul_comm s den, divHalfEven_mul_mul hden]

/-! ## The rank of a magnitude -/

/-- A magnitude as a multiple of the least one. -/
def scaledMagnitude (rank : Nat) : Nat :=
  significand rank * Nat.pow 2 (exponent rank + 1074).toNat

theorem scaledMagnitude_of_lt {rank : Nat} (hrank : rank < binadeSize) :
    scaledMagnitude rank = rank := by
  rw [scaledMagnitude, significand, if_pos hrank, exponent, if_pos hrank]
  exact Nat.mul_one rank

theorem scaledMagnitude_of_le {rank : Nat} (hrank : binadeSize ≤ rank) :
    scaledMagnitude rank =
      (binadeSize + rank % binadeSize) * 2 ^ (rank / binadeSize - 1) := by
  have hpos : 0 < rank / binadeSize := Nat.div_pos hrank (by decide)
  have hexponent : (exponent rank + 1074).toNat = rank / binadeSize - 1 := by
    rw [exponent, if_neg (by omega)]
    omega
  rw [scaledMagnitude, hexponent, significand, if_neg (by omega)]
  rfl

/-- A significand has 53 bits. -/
theorem log2_mul_two_pow {low : Nat} (hlow : low < binadeSize) (q : Nat) :
    ((binadeSize + low) * 2 ^ q).log2 = 52 + q := by
  have hsize : binadeSize = 2 ^ 52 := rfl
  have hne : (binadeSize + low) * 2 ^ q ≠ 0 :=
    Nat.mul_ne_zero (by omega) (Nat.two_pow_pos q).ne'
  rw [Nat.log2_eq_iff hne, Nat.pow_add, Nat.add_right_comm, Nat.pow_add]
  constructor
  · exact Nat.mul_le_mul_right _ (by omega)
  · exact Nat.mul_lt_mul_of_pos_right (by omega) (Nat.two_pow_pos q)

theorem rank_of_scaledMagnitude (rank : Nat) :
    ((scaledMagnitude rank).log2 - 52) * binadeSize +
      divHalfEven (scaledMagnitude rank) (Nat.pow 2 ((scaledMagnitude rank).log2 - 52)) = rank := by
  by_cases hrank : rank < binadeSize
  · have hlog : rank.log2 - 52 = 0 := by
      by_cases hzero : rank = 0
      · rw [hzero]
        rfl
      · have hlt : rank.log2 < 52 := (Nat.log2_lt hzero).2 hrank
        omega
    rw [scaledMagnitude_of_lt hrank, hlog, Nat.zero_mul, Nat.zero_add]
    exact (congrArg (divHalfEven · 1) (Nat.mul_one rank).symm).trans
      (divHalfEven_mul_self Nat.one_pos rank)
  · obtain ⟨q, hq⟩ : ∃ q, rank / binadeSize = q + 1 := by
      have hpos : 0 < rank / binadeSize := Nat.div_pos (by omega) (by decide)
      exact ⟨rank / binadeSize - 1, by omega⟩
    have hlog := log2_mul_two_pow (Nat.mod_lt rank (by decide)) q
    rw [scaledMagnitude_of_le (by omega), hq, Nat.add_sub_cancel, hlog, Nat.add_sub_cancel_left]
    change q * binadeSize + divHalfEven (_ * 2 ^ q) (2 ^ q) = rank
    have hdiv := Nat.div_add_mod rank binadeSize
    rw [hq, Nat.mul_add, Nat.mul_one, Nat.mul_comm] at hdiv
    rw [divHalfEven_mul_self (Nat.two_pow_pos q)]
    omega

/-! ## Decimals -/

/-- The rank nearest to `digits * 10 ^ e`. -/
def nearestTo (digits : Nat) (e : Int) : Nat :=
  nearestRank (digits * Nat.pow 10 e.toNat) (Nat.pow 10 (-e).toNat)

/-- Zeros at the end of the digits count as much in the exponent. -/
theorem nearestTo_mul_pow (digits zeros : Nat) (e : Int) :
    nearestTo (digits * 10 ^ zeros) e = nearestTo digits (e + zeros) := by
  refine nearestRank_congr (Nat.pow_pos (by decide)) (Nat.pow_pos (by decide)) ?_
  have hexponent : zeros + e.toNat + (-(e + zeros)).toNat = (e + zeros).toNat + (-e).toNat := by
    omega
  have hpow : 10 ^ zeros * 10 ^ e.toNat * 10 ^ (-(e + zeros)).toNat =
      10 ^ (e + zeros).toNat * 10 ^ (-e).toNat := by
    rw [← Nat.pow_add, ← Nat.pow_add, hexponent, Nat.pow_add]
  change digits * 10 ^ zeros * 10 ^ e.toNat * 10 ^ (-(e + zeros)).toNat =
    digits * 10 ^ (e + zeros).toNat * 10 ^ (-e).toNat
  rw [Nat.mul_assoc digits, Nat.mul_assoc digits, hpow, Nat.mul_assoc digits]

theorem nearestTo_zero (e : Int) : nearestTo 0 e = 0 := by
  have hscaled : 0 * Nat.pow 10 e.toNat * Nat.pow 2 1074 = 0 * Nat.pow 10 (-e).toNat := by
    simp only [Nat.zero_mul]
  exact nearestRank_of_scaled (Nat.pow_pos (by decide)) hscaled

theorem le_exponent (rank : Nat) : -1074 ≤ exponent rank := by
  rw [exponent]
  split
  · exact Int.le_refl _
  · next hrank =>
    have hpos : 0 < rank / binadeSize := Nat.div_pos (by omega) (by decide)
    omega

theorem nearestTo_exactDecimal (rank : Nat) :
    nearestTo (exactDecimal rank).1 (exactDecimal rank).2 = rank := by
  refine (nearestRank_of_scaled (Nat.pow_pos (by decide)) ?_).trans (rank_of_scaledMagnitude rank)
  have hleast := le_exponent rank
  -- The common exponent is kept apart, so that no power of it is formed.
  obtain ⟨n, hn⟩ : ∃ n, n = 1074 := ⟨_, rfl⟩
  rw [exactDecimal, scaledMagnitude, ← hn]
  cases hexponent : exponent rank with
  | ofNat e =>
      have hshift : (Int.ofNat e + 1074).toNat = e + n := by
        rw [hn]
        rfl
      rw [hshift]
      change significand rank * 2 ^ e * 1 * 2 ^ n = significand rank * 2 ^ (e + n) * 1
      rw [Nat.pow_add]
      ring
  | negSucc e =>
      obtain ⟨k, hk⟩ : ∃ k, n = k + (e + 1) := ⟨n - (e + 1), by omega⟩
      have hshift : (Int.negSucc e + 1074).toNat = k := by omega
      have hten : 10 ^ (e + 1) = 2 ^ (e + 1) * 5 ^ (e + 1) := Nat.mul_pow 2 5 (e + 1)
      rw [hshift]
      change significand rank * 5 ^ (e + 1) * 1 * 2 ^ n = significand rank * 2 ^ k * 10 ^ (e + 1)
      rw [hten, hk, Nat.pow_add]
      ring

theorem nearestTo_shortest (rank : Nat) : nearestTo (shortest rank).1 (shortest rank).2 = rank := by
  rw [shortest]
  dsimp only
  cases hfind : List.find? _ _ with
  | none => exact nearestTo_exactDecimal rank
  | some candidate =>
      have hreads := List.find?_some hfind
      exact eq_of_beq hreads

/-! ## Reading decimals -/

theorem le_nearestRank {num den binade : Nat} (hden : 0 < den)
    (h : 2 ^ (52 + binade) * den ≤ num * Nat.pow 2 1074) :
    binade * binadeSize ≤ nearestRank num den := by
  have hquotient : 2 ^ (52 + binade) ≤ num * Nat.pow 2 1074 / den :=
    (Nat.le_div_iff_mul_le hden).2 h
  have hne : num * Nat.pow 2 1074 / den ≠ 0 := by
    have hpos := Nat.two_pow_pos (52 + binade)
    omega
  have hlog : 52 + binade ≤ (num * Nat.pow 2 1074 / den).log2 := (Nat.le_log2 hne).2 hquotient
  rw [nearestRank]
  exact (Nat.mul_le_mul_right binadeSize (by omega)).trans (Nat.le_add_right _ _)

theorem nearestRank_eq_zero {num den : Nat} (h : 2 * (num * Nat.pow 2 1074) < den) :
    nearestRank num den = 0 := by
  have hlt : num * Nat.pow 2 1074 < den := by omega
  have hround : divHalfEven (num * Nat.pow 2 1074) den = 0 := by
    rw [divHalfEven, Nat.mod_eq_of_lt hlt, if_pos h, Nat.div_eq_of_lt hlt]
  have hone : den * Nat.pow 2 0 = den := Nat.mul_one den
  rw [nearestRank, Nat.div_eq_of_lt hlt, Nat.log2_zero, Nat.zero_sub, hone, hround, Nat.zero_mul]

theorem two_pow_mul_three_le (k : Nat) : 2 ^ (3 * k) ≤ 10 ^ k := by
  rw [Nat.pow_mul]
  exact Nat.pow_le_pow_left (by decide) k

/-- Large exponents lie beyond every magnitude, whatever the digits are. -/
theorem le_nearestTo {digits : Nat} {e : Int} (hdigits : digits ≠ 0) (he : 400 < e) :
    finiteCount ≤ nearestTo digits e := by
  refine le_nearestRank (Nat.pow_pos (by decide)) ?_
  obtain ⟨n, hn⟩ : ∃ n, n = 1074 := ⟨_, rfl⟩
  obtain ⟨b, hb⟩ : ∃ b, b = 2047 := ⟨_, rfl⟩
  have hden : (-e).toNat = 0 := by omega
  rw [← hn, ← hb, hden]
  calc 2 ^ (52 + b) * 10 ^ 0
      ≤ 2 ^ (3 * e.toNat + n) := by
        rw [Nat.pow_zero, Nat.mul_one]
        exact Nat.pow_le_pow_right (by decide) (by omega)
    _ = 2 ^ (3 * e.toNat) * 2 ^ n := Nat.pow_add 2 _ n
    _ ≤ 10 ^ e.toNat * 2 ^ n := Nat.mul_le_mul_right _ (two_pow_mul_three_le e.toNat)
    _ ≤ digits * 10 ^ e.toNat * 2 ^ n :=
        Nat.mul_le_mul_right _ (Nat.le_mul_of_pos_left _ (Nat.pos_of_ne_zero hdigits))

/-- Small exponents lie below half of the least magnitude, depending on how many digits there
are. -/
theorem nearestTo_eq_zero {digits : Nat} {e : Int} (he : e < -(400 + digits.log2 : Nat)) :
    nearestTo digits e = 0 := by
  refine nearestRank_eq_zero ?_
  obtain ⟨n, hn⟩ : ∃ n, n = 1074 := ⟨_, rfl⟩
  have hnum : e.toNat = 0 := by omega
  rw [← hn, hnum]
  calc 2 * (digits * 10 ^ 0 * 2 ^ n)
      < 2 * (2 ^ (digits.log2 + 1) * 2 ^ n) := by
        rw [Nat.pow_zero, Nat.mul_one]
        have hdigits : digits * 2 ^ n < 2 ^ (digits.log2 + 1) * 2 ^ n :=
          Nat.mul_lt_mul_of_pos_right Nat.lt_log2_self (Nat.two_pow_pos n)
        omega
    _ = 2 ^ (digits.log2 + 1 + n + 1) := by
        rw [← Nat.pow_add, Nat.pow_succ, Nat.mul_comm]
    _ ≤ 2 ^ (3 * (-e).toNat) := Nat.pow_le_pow_right (by decide) (by omega)
    _ ≤ 10 ^ (-e).toNat := two_pow_mul_three_le _

theorem ofRatio_eq_finite {num den : Nat} {rank : Fin finiteCount} (h : nearestRank num den = rank)
    (negative : Bool) : ofRatio negative num den = finite negative rank := by
  have hlt : nearestRank num den < finiteCount := h ▸ rank.isLt
  rw [ofRatio, dif_pos hlt]
  congr 1
  exact Fin.ext h

theorem ofDecimal_eq_finite {digits : Nat} {e : Int} {rank : Fin finiteCount}
    (hrank : rank.val ≠ 0) (h : nearestTo digits e = rank) (negative : Bool) :
    ofDecimal negative digits e = finite negative rank := by
  have hdigits : digits ≠ 0 := by
    rintro rfl
    exact hrank (h.symm.trans (nearestTo_zero e))
  have hgreat : ¬ 400 < e := by
    intro he
    have hcount := le_nearestTo hdigits he
    have hlt := rank.isLt
    omega
  have hsmall : ¬ e < -(400 + digits.log2 : Nat) := by
    intro he
    exact hrank (h.symm.trans (nearestTo_eq_zero he))
  have hratio := ofRatio_eq_finite h negative
  unfold ofDecimal
  rw [if_neg hdigits, if_neg hgreat, if_neg hsmall]
  cases e with
  | ofNat e =>
      have hden : Nat.pow 10 (-Int.ofNat e).toNat = 1 := by
        have hzero : (-(e : Int)).toNat = 0 := by omega
        exact congrArg (Nat.pow 10) hzero
      rw [hden] at hratio
      exact hratio
  | negSucc e =>
      have hnum : digits * Nat.pow 10 (Int.negSucc e).toNat = digits := Nat.mul_one digits
      rw [hnum] at hratio
      exact hratio

end Typings.Binary64
