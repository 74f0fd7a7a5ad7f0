import Typings.Json.Token
import Typings.Proofs.NearestMagnitude
import Typings.Proofs.Words

/-!
# Numerals read back

The text of a number is cut into sign, digits and exponent as it was put together, if nothing that
could belong to it follows; and the parts give back the number: an integer from its digits, and a
floating point number from whatever form its shortest decimal is written in.
-/

namespace Typings

/-! ## Digits -/

namespace Numeral

theorem value_eq (ds : List Char) : value ds = Nat.ofDigitChars 10 ds 0 :=
  Nat.ofDigitChars_eq_foldl.symm

theorem value_digits (n : Nat) : value (digits n) = n := by
  rw [value_eq]
  exact Nat.ofDigitChars_ten_toDigits

theorem value_append (ds es : List Char) :
    value (ds ++ es) = value ds * 10 ^ es.length + value es := by
  rw [value_eq, Nat.ofDigitChars_append, Nat.ofDigitChars_eq_ofDigitChars_zero, Nat.mul_comm,
    ← value_eq, ← value_eq]

theorem value_zeros (n : Nat) : value (List.replicate n '0') = 0 := by
  rw [value_eq, Nat.ofDigitChars_replicate_zero, Nat.mul_zero]

theorem isDigit_digits (n : Nat) : ∀ c ∈ digits n, isDigit c = true :=
  fun _ hc ↦ Nat.isDigit_of_mem_toDigits (by decide) (by decide) hc

/-- No zero stands before the other digits. -/
theorem exists_digits_eq_cons {n : Nat} (hn : n ≠ 0) :
    ∃ d ds, digits n = d :: ds ∧ d ≠ '0' := by
  induction n using Nat.strongRecOn with
  | ind n ih =>
      by_cases hlt : n < 10
      · refine ⟨n.digitChar, [], Nat.toDigits_of_lt_base hlt, ?_⟩
        rw [Ne, Nat.digitChar_eq_zero]
        exact hn
      · obtain ⟨d, ds, hds, hd⟩ := ih (n / 10) (by omega) (by omega)
        refine ⟨d, ds ++ [(n % 10).digitChar], ?_, hd⟩
        rw [digits, Nat.toDigits_of_base_le (by decide) (by omega)]
        exact congrArg (· ++ _) hds

theorem isDigit_zeros (n : Nat) : ∀ c ∈ List.replicate n '0', isDigit c = true :=
  fun _ hc ↦ List.eq_of_mem_replicate hc ▸ rfl

theorem value_padded (width n : Nat) : value (padded width n) = n := by
  have hzeros (count : Nat) : value (List.replicate count '0' ++ digits n) = n := by
    rw [value_append, value_zeros, value_digits, Nat.zero_mul, Nat.zero_add]
  exact hzeros _

theorem isDigit_padded (width n : Nat) :
    padded width n ≠ [] ∧ ∀ c ∈ padded width n, isDigit c = true :=
  ⟨List.append_ne_nil_of_right_ne_nil _ Nat.toDigits_ne_nil,
    List.forall_mem_append.2 ⟨isDigit_zeros _, isDigit_digits n⟩⟩

/-! ## The limit of digits -/

theorem isShort_iff {n : Int} : isShort n = true ↔ n.natAbs < 10 ^ digitLimit := by
  rw [isShort, decide_eq_true_eq]
  exact Nat.length_toDigits_le_iff (by decide) (by decide)

/-- Ten to the limit is the first number that has too many digits. -/
theorem isShort_pow_digitLimit : isShort (10 ^ digitLimit) = false := by
  have hten : (10 : Int).natAbs = 10 := rfl
  rw [Bool.eq_false_iff, ne_eq, isShort_iff, Int.natAbs_pow, hten]
  exact Nat.lt_irrefl _

theorem value_lt_pow {ds : List Char} (h : ∀ c ∈ ds, isDigit c = true) :
    value ds < 10 ^ ds.length := by
  induction ds with
  | nil => decide
  | cons c ds ih =>
      obtain ⟨hc, hds⟩ := List.forall_mem_cons.1 h
      have hvalue : value (c :: ds) = value [c] * 10 ^ ds.length + value ds := value_append [c] ds
      have hdigit : value [c] + 1 ≤ 10 := by
        rw [isDigit, Bool.and_eq_true, decide_eq_true_eq, decide_eq_true_eq] at hc
        have hnine : c.toNat - '0'.toNat ≤ 9 := Nat.sub_le_sub_right hc.2 _
        change 10 * 0 + (c.toNat - '0'.toNat) + 1 ≤ 10
        omega
      rw [hvalue, List.length_cons, Nat.pow_succ']
      calc value [c] * 10 ^ ds.length + value ds
          < value [c] * 10 ^ ds.length + 10 ^ ds.length := Nat.add_lt_add_left (ih hds) _
        _ = (value [c] + 1) * 10 ^ ds.length := (Nat.succ_mul _ _).symm
        _ ≤ 10 * 10 ^ ds.length := Nat.mul_le_mul_right _ hdigit

theorem isShort_value {ds : List Char} (h : ∀ c ∈ ds, isDigit c = true)
    (hlength : ds.length ≤ digitLimit) : isShort (value ds) = true := by
  rw [isShort_iff, Int.natAbs_natCast]
  exact Nat.lt_of_lt_of_le (value_lt_pow h) (Nat.pow_le_pow_right (by decide) hlength)

end Numeral

namespace Json

open Numeral (isDigit)

/-! ## Parts of a numeral -/

/-- A text that begins with no character of a numeral. -/
def EndsNumeral (rest : List Char) : Prop := ∀ c, rest.head? = some c → isNumeralChar c = false

theorem EndsNumeral.isDigit_eq_false {rest : List Char} (h : EndsNumeral rest) (c : Char)
    (hc : rest.head? = some c) : isDigit c = false := by
  by_contra hdigit
  rw [Bool.not_eq_false] at hdigit
  have hnumeral := h c hc
  rw [isNumeralChar_of_isDigit hdigit] at hnumeral
  cases hnumeral

theorem EndsNumeral.head?_ne {rest : List Char} (h : EndsNumeral rest) {c : Char}
    (hc : isNumeralChar c = true) : rest.head? ≠ some c := by
  intro hhead
  rw [h c hhead] at hc
  cases hc

theorem cut_digits {ds rest : List Char} (hds : ∀ c ∈ ds, isDigit c = true)
    (hrest : ∀ c, rest.head? = some c → isDigit c = false) :
    (ds ++ rest).takeWhile isDigit = ds ∧ (ds ++ rest).dropWhile isDigit = rest := by
  rw [List.takeWhile_append_of_pos hds, List.dropWhile_append_of_pos hds]
  cases rest with
  | nil => exact ⟨List.append_nil ds, rfl⟩
  | cons c rest =>
      have hc := hrest c rfl
      rw [List.takeWhile_cons_of_neg (by simp [hc]), List.dropWhile_cons_of_neg (by simp [hc])]
      exact ⟨List.append_nil ds, rfl⟩

/-- The digits before the point: no zero stands before another digit. -/
def IsWhole (ds : List Char) : Prop :=
  ds = ['0'] ∨ ∃ d tail, ds = d :: tail ∧ d ≠ '0' ∧ ∀ c ∈ ds, isDigit c = true

theorem scanWhole_append {ds rest : List Char} (hds : IsWhole ds)
    (hrest : ∀ c, rest.head? = some c → isDigit c = false) :
    scanWhole (ds ++ rest) = some (ds, rest) := by
  rcases hds with rfl | ⟨d, tail, rfl, hd, hdigits⟩
  · rfl
  · obtain ⟨hdigit, htail⟩ := List.forall_mem_cons.1 hdigits
    obtain ⟨htake, hdrop⟩ := cut_digits htail hrest
    rw [List.cons_append, scanWhole, if_neg hd, if_pos hdigit, htake, hdrop]

theorem scanFraction_append {ds rest : List Char} (hne : ds ≠ [])
    (hds : ∀ c ∈ ds, isDigit c = true) (hrest : ∀ c, rest.head? = some c → isDigit c = false) :
    scanFraction ('.' :: (ds ++ rest)) = (ds, rest) := by
  cases ds with
  | nil => exact absurd rfl hne
  | cons d tail =>
      obtain ⟨hdigit, htail⟩ := List.forall_mem_cons.1 hds
      obtain ⟨htake, hdrop⟩ := cut_digits htail hrest
      rw [List.cons_append, scanFraction, if_pos hdigit, htake, hdrop]

theorem scanFraction_of_head?_ne {cs : List Char} (h : cs.head? ≠ some '.') :
    scanFraction cs = ([], cs) := by
  unfold scanFraction
  split
  · exact absurd rfl h
  · rfl

theorem scanExponent_append {ds rest : List Char} (hne : ds ≠ [])
    (hds : ∀ c ∈ ds, isDigit c = true) (hrest : ∀ c, rest.head? = some c → isDigit c = false)
    (negative : Bool) :
    scanExponent ('e' :: (if negative then '-' else '+') :: (ds ++ rest)) =
      (some (negative, ds), rest) := by
  obtain ⟨htake, hdrop⟩ := cut_digits hds hrest
  have hscan (cs : List Char) : scanExponent.scan cs negative (ds ++ rest) =
      (some (negative, ds), rest) := by
    unfold scanExponent.scan
    rw [htake, hdrop]
    cases ds with
    | nil => exact absurd rfl hne
    | cons d tail => rfl
  cases negative with
  | true => exact hscan _
  | false => exact hscan _

theorem scanExponent_of_head?_ne {cs : List Char} (h : cs.head? ≠ some 'e')
    (h' : cs.head? ≠ some 'E') : scanExponent cs = (none, cs) := by
  unfold scanExponent
  split
  · exact absurd rfl h
  · exact absurd rfl h'
  · rfl

/-! ## Numerals -/

namespace Number

def signText (negative : Bool) : List Char := if negative then ['-'] else []

def fractionText : List Char → List Char
  | [] => []
  | ds => '.' :: ds

theorem fractionText_of_ne {ds : List Char} (h : ds ≠ []) : fractionText ds = '.' :: ds := by
  cases ds with
  | nil => exact absurd rfl h
  | cons d ds => rfl

def exponentText : Option (Bool × List Char) → List Char
  | none => []
  | some (negative, ds) => 'e' :: (if negative then '-' else '+') :: ds

def text (x : Number) : List Char :=
  signText x.negative ++ (x.whole ++ (fractionText x.fraction ++ exponentText x.exponent))

/-- The parts are what they are cut from a numeral as. -/
structure WellFormed (x : Number) : Prop where
  whole : IsWhole x.whole
  fraction : ∀ c ∈ x.fraction, isDigit c = true
  exponent : ∀ negative ds, x.exponent = some (negative, ds) →
    ds ≠ [] ∧ ∀ c ∈ ds, isDigit c = true

variable {x : Number} {rest : List Char}

theorem WellFormed.scanExponent_eq (hx : x.WellFormed) (hrest : EndsNumeral rest) :
    scanExponent (exponentText x.exponent ++ rest) = (x.exponent, rest) := by
  cases hexponent : x.exponent with
  | none => exact scanExponent_of_head?_ne (hrest.head?_ne rfl) (hrest.head?_ne rfl)
  | some e =>
      obtain ⟨negative, ds⟩ := e
      obtain ⟨hne, hds⟩ := hx.exponent negative ds hexponent
      exact scanExponent_append hne hds hrest.isDigit_eq_false negative

theorem head?_exponentText (e : Option (Bool × List Char)) (hrest : EndsNumeral rest) (c : Char)
    (hc : (exponentText e ++ rest).head? = some c) : isDigit c = false ∧ c ≠ '.' := by
  cases e with
  | none =>
      refine ⟨hrest.isDigit_eq_false c hc, ?_⟩
      rintro rfl
      exact hrest.head?_ne rfl hc
  | some e =>
      obtain rfl : 'e' = c := Option.some.inj hc
      decide

theorem WellFormed.scanFraction_eq (hx : x.WellFormed) (hrest : EndsNumeral rest) :
    scanFraction (fractionText x.fraction ++ (exponentText x.exponent ++ rest)) =
      (x.fraction, exponentText x.exponent ++ rest) := by
  have hexponent := head?_exponentText x.exponent hrest
  cases hfraction : x.fraction with
  | nil => exact scanFraction_of_head?_ne fun hc ↦ (hexponent _ hc).2 rfl
  | cons d ds =>
      have hdigits := hx.fraction
      rw [hfraction] at hdigits
      exact scanFraction_append (List.cons_ne_nil d ds) hdigits fun c hc ↦ (hexponent c hc).1

theorem WellFormed.scanUnsigned_eq (hx : x.WellFormed) (hrest : EndsNumeral rest) :
    scanUnsigned x.negative
      (x.whole ++ (fractionText x.fraction ++ (exponentText x.exponent ++ rest))) =
        some (x, rest) := by
  have hhead (c : Char)
      (hc : (fractionText x.fraction ++ (exponentText x.exponent ++ rest)).head? = some c) :
      isDigit c = false := by
    cases hfraction : x.fraction with
    | nil =>
        rw [hfraction] at hc
        exact (head?_exponentText x.exponent hrest c hc).1
    | cons d ds =>
        rw [hfraction] at hc
        obtain rfl : '.' = c := Option.some.inj hc
        decide
  rw [scanUnsigned, scanWhole_append hx.whole hhead]
  dsimp only
  rw [hx.scanFraction_eq hrest, hx.scanExponent_eq hrest]

theorem exists_head_of_isWhole {ds : List Char} (h : IsWhole ds) :
    ∃ d tail, ds = d :: tail ∧ isDigit d = true := by
  rcases h with rfl | ⟨d, tail, rfl, -, hdigits⟩
  · exact ⟨'0', [], rfl, rfl⟩
  · exact ⟨d, tail, rfl, hdigits d List.mem_cons_self⟩

theorem WellFormed.scanNumber_eq (hx : x.WellFormed) (hrest : EndsNumeral rest) :
    scanNumber (x.text ++ rest) = some (x, rest) := by
  have hunsigned := hx.scanUnsigned_eq hrest
  obtain ⟨d, tail, hwhole, hd⟩ := exists_head_of_isWhole hx.whole
  rw [text, List.append_assoc, List.append_assoc, List.append_assoc]
  cases hnegative : x.negative with
  | true =>
      rw [hnegative] at hunsigned
      exact hunsigned
  | false =>
      rw [hnegative] at hunsigned
      rw [signText, if_neg Bool.false_ne_true, List.nil_append, ← hunsigned, hwhole,
        List.cons_append, scanNumber]
      -- A digit is no sign.
      intro rest' hcons
      obtain ⟨rfl, -⟩ := List.cons_eq_cons.1 hcons
      cases hd

/-! ## Tokens -/

theorem keyword?_of_isDigit {d : Char} (hd : isDigit d = true) (cs : List Char) :
    keyword? (d :: cs) = none ∧ keyword? ('-' :: d :: cs) = none := by
  have hne (c : Char) (hc : isDigit c = false) : c ≠ d := by
    rintro rfl
    rw [hd] at hc
    cases hc
  have hn := hne 'n' rfl
  have ht := hne 't' rfl
  have hf := hne 'f' rfl
  have hN := hne 'N' rfl
  have hI := hne 'I' rfl
  have hminus := hne '-' rfl
  constructor
  · simp [keyword?, keywords, afterPrefix?, hn, ht, hf, hN, hI, hminus]
  · simp [keyword?, keywords, afterPrefix?, hI]

theorem lex_of_isDigit (σ : Text.StandIns) {d : Char} (hd : isDigit d = true) (cs : List Char) :
    lex σ (d :: cs) = numberToken (d :: cs) ∧
      lex σ ('-' :: d :: cs) = numberToken ('-' :: d :: cs) := by
  obtain ⟨hkeyword, hminus⟩ := keyword?_of_isDigit hd cs
  have hpunctuation : punctuation? d = none := by
    unfold punctuation?
    split <;> first | cases hd | rfl
  have hquote : d ≠ '"' := by
    rintro rfl
    cases hd
  constructor
  · simp only [lex, hpunctuation, if_neg hquote, hkeyword]
  · simp only [lex, punctuation?, hminus]
    rfl

end Number

/-- A text that is read as the number `v`. -/
def IsNumeral (v : Json) (cs : List Char) : Prop :=
  ∃ x : Number, x.WellFormed ∧ x.text = cs ∧ x.toJson = .ok v

theorem IsNumeral.lex_eq (σ : Text.StandIns) {v : Json} {cs rest : List Char}
    (h : IsNumeral v cs) (hrest : EndsNumeral rest) : lex σ (cs ++ rest) = (.scalar v, rest) := by
  obtain ⟨x, hx, rfl, hv⟩ := h
  have htoken : numberToken (x.text ++ rest) = (.scalar v, rest) := by
    rw [numberToken, hx.scanNumber_eq hrest]
    dsimp only
    rw [hv]
  obtain ⟨d, tail, hwhole, hd⟩ := Number.exists_head_of_isWhole hx.whole
  obtain ⟨hlex, hminus⟩ := Number.lex_of_isDigit σ hd
    (tail ++ (Number.fractionText x.fraction ++ Number.exponentText x.exponent) ++ rest)
  rw [← htoken, Number.text, hwhole]
  cases x.negative with
  | false => exact hlex
  | true => exact hminus

namespace Number

/-! ## Integers -/

def ofInt (n : Int) : Number := ⟨decide (n < 0), Numeral.digits n.natAbs, [], none⟩

theorem text_ofInt (n : Int) : (ofInt n).text = Numeral.ofInt n := by
  cases n with
  | ofNat n => exact List.append_nil _
  | negSucc n =>
      have hnegative : (ofInt (.negSucc n)).negative = true :=
        decide_eq_true (Int.negSucc_lt_zero n)
      rw [text, hnegative]
      exact congrArg ('-' :: ·) (List.append_nil _)

theorem wellFormed_ofInt (n : Int) : (ofInt n).WellFormed where
  whole := by
    by_cases hn : n.natAbs = 0
    · left
      rw [ofInt, hn]
      rfl
    · obtain ⟨d, tail, hdigits, hd⟩ := Numeral.exists_digits_eq_cons hn
      exact .inr ⟨d, tail, hdigits, hd, Numeral.isDigit_digits _⟩
  fraction := List.forall_mem_nil _
  exponent _ _ h := nomatch h

end Number

theorem isNumeral_ofInt {n : Int} (h : (Numeral.digits n.natAbs).length ≤ Numeral.digitLimit) :
    IsNumeral (.int n) (Numeral.ofInt n) := by
  refine ⟨.ofInt n, Number.wellFormed_ofInt n, Number.text_ofInt n, ?_⟩
  have hsigned : (if decide (n < 0) = true then -(n.natAbs : Int) else n.natAbs) = n := by
    by_cases hn : n < 0
    · rw [if_pos (decide_eq_true hn)]
      omega
    · rw [if_neg (by simpa using hn)]
      omega
  simp only [Number.toJson, Number.ofInt, if_neg (Nat.not_lt.2 h), Numeral.value_digits, hsigned]

end Json

end Typings
