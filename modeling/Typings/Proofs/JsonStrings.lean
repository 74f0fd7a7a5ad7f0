import Typings.Json.Printer
import Typings.Json.Token
import Typings.Proofs.Words

/-!
# Strings read back

A character is written as itself or by escapes of its code units, and every piece is read as the
code units that it stands for. The units of one character are joined again: no character is a
surrogate, so that one of the first half is always followed by its own second half.
-/

namespace Typings.Json

/-- The code units of a character. -/
def codeUnits (c : Char) : List Nat :=
  let n := c.toNat
  if n < 0x10000 then [n] else [0xD800 + (n - 0x10000) / 0x400, 0xDC00 + (n - 0x10000) % 0x400]

/-- No character is a surrogate. -/
theorem toNat_valid (c : Char) : c.toNat < 0xD800 ∨ 0xDFFF < c.toNat ∧ c.toNat < 0x110000 := c.valid

theorem not_isSurrogate_toNat (c : Char) : ¬ Text.isSurrogate c.toNat = true := by
  have hvalid := toNat_valid c
  rw [Text.isSurrogate, Bool.and_eq_true, decide_eq_true_eq, decide_eq_true_eq]
  omega

/-! ## Hexadecimal digits -/

theorem hexDigit?_digitChar {d : Nat} (hd : d < 16) : hexDigit? d.digitChar = some d := by
  revert d
  decide

theorem hexDigits_one {n : Nat} (hn : n < 16) : Text.hexDigits 1 n = [n.digitChar] := by
  rw [Text.hexDigits, Nat.toDigits_of_lt_base hn]
  rfl

theorem hexDigits_succ {width : Nat} (hwidth : 0 < width) (n : Nat) :
    Text.hexDigits (width + 1) n = Text.hexDigits width (n / 16) ++ [(n % 16).digitChar] := by
  rw [Text.hexDigits, Text.hexDigits]
  by_cases hn : n < 16
  · obtain ⟨w, rfl⟩ : ∃ w, width = w + 1 := ⟨width - 1, by omega⟩
    rw [Nat.div_eq_of_lt hn, Nat.mod_eq_of_lt hn, Nat.toDigits_of_lt_base hn, Nat.toDigits_zero]
    exact congrArg (· ++ _) List.replicate_succ'
  · rw [Nat.toDigits_of_base_le (by decide) (by omega), List.length_append, List.length_singleton,
      Nat.add_sub_add_right, List.append_assoc]

theorem hexDigits_four {n : Nat} (hn : n < 0x10000) : ∃ a b c d : Nat,
    (a < 16 ∧ b < 16 ∧ c < 16 ∧ d < 16) ∧ ((a * 16 + b) * 16 + c) * 16 + d = n ∧
      Text.hexDigits 4 n = [a.digitChar, b.digitChar, c.digitChar, d.digitChar] := by
  have hlast : n / 16 / 16 / 16 < 16 := by omega
  refine ⟨n / 16 / 16 / 16, n / 16 / 16 % 16, n / 16 % 16, n % 16, by omega, by omega, ?_⟩
  rw [hexDigits_succ (by decide), hexDigits_succ (by decide), hexDigits_succ (by decide),
    hexDigits_one hlast]
  rfl

/-! ## Escapes -/

section Scan

variable {start cs : List Char}

/-- What follows an escape of a code unit must not be the end of the text. -/
theorem scanString_unitEscape {n : Nat} (hn : n < 0x10000) (hcs : cs ≠ []) :
    scanString start (unitEscape n ++ cs) = prepend n (scanString start cs) := by
  obtain ⟨a, b, c, d, ⟨ha, hb, hc, hd⟩, hvalue, hdigits⟩ := hexDigits_four hn
  have hquad : hexQuad? a.digitChar b.digitChar c.digitChar d.digitChar = some n := by
    simp only [hexQuad?, hexDigit?_digitChar ha, hexDigit?_digitChar hb, hexDigit?_digitChar hc,
      hexDigit?_digitChar hd, hvalue]
  rw [unitEscape, hdigits]
  cases cs with
  | nil => exact absurd rfl hcs
  | cons e rest =>
      simp only [List.cons_append, List.nil_append]
      rw [scanString, hquad]

theorem scanString_self {c : Char} (hquote : c ≠ '"') (hslash : c ≠ '\\') (hc : 0x20 ≤ c.toNat) :
    scanString start (c :: cs) = prepend c.toNat (scanString start cs) := by
  rw [scanString]
  · exact if_neg (by omega)
  · exact hquote
  · exact fun _ _ _ _ _ _ h _ ↦ hslash h
  · exact fun _ h _ ↦ hslash h
  · exact fun _ _ h _ ↦ hslash h
  · exact fun h _ ↦ hslash h

/-- The units of a character are put before those of what follows its escape. -/
theorem scanString_escape (c : Char) (hcs : cs ≠ []) :
    scanString start (escape c ++ cs) = (codeUnits c).foldr prepend (scanString start cs) := by
  unfold escape
  split
  · rfl
  · rfl
  · rfl
  · rfl
  · rfl
  · rfl
  · rfl
  · next hquote hslash _ _ _ _ _ =>
    have hvalid := toNat_valid c
    dsimp only
    split
    · next hprintable =>
      rw [codeUnits, if_pos (by omega)]
      exact scanString_self hquote hslash hprintable.1
    · split
      · next hunit =>
        rw [codeUnits, if_pos hunit]
        exact scanString_unitEscape hunit hcs
      · next hunit =>
        have hhigh : 0xD800 + (c.toNat - 0x10000) / 0x400 < 0x10000 := by omega
        have hlow : 0xDC00 + (c.toNat - 0x10000) % 0x400 < 0x10000 := by omega
        -- Behind the first half stands the second one, and behind that what follows.
        have hne : unitEscape (0xDC00 + (c.toNat - 0x10000) % 0x400) ++ cs ≠ [] :=
          List.append_ne_nil_of_right_ne_nil _ hcs
        rw [codeUnits, if_neg hunit, List.append_assoc, scanString_unitEscape hhigh hne,
          scanString_unitEscape hlow hcs]
        rfl

theorem foldr_prepend (units us : List Nat) (rest : List Char) :
    units.foldr prepend (.ok (us, rest)) = .ok (units ++ us, rest) := by
  induction units with
  | nil => rfl
  | cons n units ih =>
      rw [List.foldr_cons, ih]
      rfl

theorem scanString_flatMap_escape (cs rest : List Char) :
    scanString start (cs.flatMap escape ++ '"' :: rest) = .ok (cs.flatMap codeUnits, rest) := by
  induction cs with
  | nil => rfl
  | cons c cs ih =>
      have hne : cs.flatMap escape ++ '"' :: rest ≠ [] :=
        List.append_ne_nil_of_right_ne_nil _ (List.cons_ne_nil _ _)
      rw [List.flatMap_cons, List.append_assoc, scanString_escape c hne, ih, foldr_prepend,
        List.flatMap_cons]

end Scan

/-! ## Code units -/

section Join

variable (σ : Text.StandIns)

theorem joinSurrogates_cons {n : Nat} (hn : n < 0xD800 ∨ 0xDC00 ≤ n) (units : List Nat) :
    joinSurrogates σ (n :: units) = joinSurrogates.single σ n :: joinSurrogates σ units := by
  cases units with
  | nil => rfl
  | cons m units =>
      have hpair : ¬ IsPair n m := by
        rintro ⟨hlow, hhigh, -⟩
        omega
      rw [joinSurrogates, if_neg hpair]

theorem joinSurrogates_codeUnits (c : Char) (units : List Nat) :
    joinSurrogates σ (codeUnits c ++ units) = c :: joinSurrogates σ units := by
  have hvalid := toNat_valid c
  rw [codeUnits]
  split
  · have hsingle : joinSurrogates.single σ c.toNat = c := by
      rw [joinSurrogates.single, if_neg (not_isSurrogate_toNat c), Char.ofNat_toNat]
    rw [List.singleton_append, joinSurrogates_cons σ (by omega), hsingle]
  · have hpair : IsPair (0xD800 + (c.toNat - 0x10000) / 0x400)
        (0xDC00 + (c.toNat - 0x10000) % 0x400) :=
      ⟨by omega, by omega, by omega, by omega⟩
    have hjoined : 0x10000 + (0xD800 + (c.toNat - 0x10000) / 0x400 - 0xD800) * 0x400 +
        (0xDC00 + (c.toNat - 0x10000) % 0x400 - 0xDC00) = c.toNat := by
      omega
    rw [List.cons_append, List.singleton_append, joinSurrogates, if_pos hpair, pairChar, hjoined,
      Char.ofNat_toNat]

theorem joinSurrogates_flatMap_codeUnits (cs : List Char) :
    joinSurrogates σ (cs.flatMap codeUnits) = cs := by
  induction cs with
  | nil => rfl
  | cons c cs ih => rw [List.flatMap_cons, joinSurrogates_codeUnits, ih]

end Join

/-! ## Strings -/

theorem lex_writeString (σ : Text.StandIns) (s : String) (rest : List Char) :
    lex σ (writeString s ++ rest) = (.text s, rest) := by
  have hscan : scanString (writeString s ++ rest) (s.toList.flatMap escape ++ '"' :: rest) =
      .ok (s.toList.flatMap codeUnits, rest) :=
    scanString_flatMap_escape _ _
  have htext : writeString s ++ rest = '"' :: (s.toList.flatMap escape ++ '"' :: rest) := by
    rw [writeString, List.cons_append, List.append_assoc]
    rfl
  rw [htext] at hscan ⊢
  have htoken : stringToken σ '"' (s.toList.flatMap escape ++ '"' :: rest) = (.text s, rest) := by
    rw [stringToken, hscan]
    dsimp only
    rw [joinSurrogates_flatMap_codeUnits, String.ofList_toList]
  exact htoken

end Typings.Json
