import Typings.Value

/-!
# Words

The characters of identifiers and numerals make words, which stand in a text as wholes. Everything
that numbers are written as is one, and of a few characters only.
-/

namespace Typings

/-- The characters that numbers are written with. -/
def isNumeralChar (c : Char) : Bool := c.isAlphanum || ['.', '-', '+'].contains c

/-- The characters of identifiers and numerals. -/
def isWordChar (c : Char) : Bool :=
  c.isAlphanum || ['_', '$', '.', '-', '+'].contains c || 0x80 ≤ c.toNat

def IsWord (s : String) : Prop := s.toList ≠ [] ∧ ∀ c ∈ s.toList, isWordChar c = true

instance (s : String) : Decidable (IsWord s) :=
  decidable_of_iff (s.toList ≠ [] ∧ s.toList.all isWordChar = true)
    (and_congr_right fun _ ↦ List.all_eq_true)

/-! ## Numerals -/

theorem isNumeralChar_of_isDigit {c : Char} (h : c.isDigit = true) : isNumeralChar c = true := by
  simp [isNumeralChar, Char.isAlphanum, h]

theorem isNumeralChar_digits {n : Nat} : ∀ c ∈ Numeral.digits n, isNumeralChar c = true := by
  intro c hc
  exact isNumeralChar_of_isDigit (Nat.isDigit_of_mem_toDigits (by decide) (by decide) hc)

theorem isNumeralChar_zeros {n : Nat} : ∀ c ∈ List.replicate n '0', isNumeralChar c = true :=
  fun _ hc ↦ List.eq_of_mem_replicate hc ▸ by decide

theorem isNumeralChar_padded {width n : Nat} :
    ∀ c ∈ Numeral.padded width n, isNumeralChar c = true :=
  List.forall_mem_append.2 ⟨isNumeralChar_zeros, isNumeralChar_digits⟩

theorem isNumeralChar_ofInt (n : Int) : ∀ c ∈ Numeral.ofInt n, isNumeralChar c = true := by
  cases n with
  | ofNat n => exact isNumeralChar_digits
  | negSucc n => exact List.forall_mem_cons.2 ⟨by decide, isNumeralChar_digits⟩

section

variable {ds : List Char}

theorem isNumeralChar_place (h : ∀ c ∈ ds, isNumeralChar c = true) (e : Int) :
    ∀ c ∈ Binary64.place ds e, isNumeralChar c = true := by
  have hwhole : ∀ {m n : Nat}, ∀ c ∈ ds.take m ++ List.replicate n '0', isNumeralChar c = true :=
    List.forall_mem_append.2 ⟨fun c hc ↦ h c (List.mem_of_mem_take hc), isNumeralChar_zeros⟩
  cases e with
  | negSucc k =>
      simp only [Binary64.place, List.forall_mem_cons, List.forall_mem_append]
      exact ⟨by decide, by decide, isNumeralChar_zeros, h⟩
  | ofNat k =>
      simp only [Binary64.place]
      split
      · exact List.forall_mem_append.2 ⟨hwhole, List.all_eq_true.1 rfl⟩
      · refine List.forall_mem_append.2 ⟨hwhole, List.forall_mem_cons.2 ⟨by decide, ?_⟩⟩
        exact fun c hc ↦ h c (List.mem_of_mem_drop hc)

theorem isNumeralChar_withExponent (h : ∀ c ∈ ds, isNumeralChar c = true) (width : Nat) (e : Int) :
    ∀ c ∈ Binary64.withExponent width ds e, isNumeralChar c = true := by
  have htail : ∀ c ∈ 'e' :: (if e < 0 then '-' else '+') :: Numeral.padded width e.natAbs,
      isNumeralChar c = true := by
    simp only [List.forall_mem_cons]
    exact ⟨by decide, by split <;> decide, isNumeralChar_padded⟩
  unfold Binary64.withExponent
  refine List.forall_mem_append.2 ⟨?_, htail⟩
  split
  · obtain ⟨hd, hfraction⟩ := List.forall_mem_cons.1 h
    exact List.forall_mem_cons.2 ⟨hd, List.forall_mem_cons.2 ⟨by decide, hfraction⟩⟩
  · exact h

theorem isNumeralChar_trimZeros (h : ∀ c ∈ ds, isNumeralChar c = true) :
    ∀ c ∈ Binary64.trimZeros ds, isNumeralChar c = true := by
  intro c hc
  have hmem := List.dropWhile_sublist _ |>.subset (List.mem_reverse.1 hc)
  exact h c (List.mem_reverse.1 hmem)

end

theorem isNumeralChar_magnitudeText (spelling : Binary64.Spelling) (rank : Nat) :
    ∀ c ∈ Binary64.magnitudeText spelling rank, isNumeralChar c = true := by
  unfold Binary64.magnitudeText
  split
  · exact List.all_eq_true.1 rfl
  · dsimp only
    split
    · exact isNumeralChar_place (isNumeralChar_trimZeros isNumeralChar_digits) _
    · exact isNumeralChar_withExponent (isNumeralChar_trimZeros isNumeralChar_digits) _ _

theorem magnitudeText_ne_nil (spelling : Binary64.Spelling) (rank : Nat) :
    Binary64.magnitudeText spelling rank ≠ [] := by
  unfold Binary64.magnitudeText
  split
  · simp
  · dsimp only
    split
    · unfold Binary64.place
      split
      · simp
      · dsimp only
        split <;> simp
    · simp [Binary64.withExponent]

theorem isNumeralChar_inspect_int (n : Int) :
    ∀ c ∈ (Value.int n).inspect.toList, isNumeralChar c = true := by
  have hinspect : (Value.int n).inspect.toList = Numeral.ofInt n := String.toList_ofList
  rw [hinspect]
  exact isNumeralChar_ofInt n

theorem isNumeralChar_inspect_float (x : Binary64) :
    ∀ c ∈ (Value.float x).inspect.toList, isNumeralChar c = true := by
  have hinspect : (Value.float x).inspect.toList = x.text Value.spelling := String.toList_ofList
  have hsigned : ∀ (negative : Bool) (cs : List Char), (∀ c ∈ cs, isNumeralChar c = true) →
      ∀ c ∈ Binary64.text.signed negative cs, isNumeralChar c = true := by
    intro negative cs hcs
    cases negative with
    | false => exact hcs
    | true => exact List.forall_mem_cons.2 ⟨by decide, hcs⟩
  rw [hinspect]
  cases x with
  | nan => exact List.all_eq_true.1 rfl
  | infinity negative => exact hsigned negative _ (List.all_eq_true.1 rfl)
  | finite negative rank => exact hsigned negative _ (isNumeralChar_magnitudeText _ _)

/-! ## Numerals are words -/

theorem isWord_of_isNumeralChar {s : String} (hne : s.toList ≠ [])
    (h : ∀ c ∈ s.toList, isNumeralChar c = true) : IsWord s := by
  refine ⟨hne, fun c hc ↦ ?_⟩
  have hnumeral := h c hc
  simp only [isNumeralChar, List.contains_eq_mem, List.mem_cons, List.not_mem_nil, or_false,
    Bool.or_eq_true, decide_eq_true_eq] at hnumeral
  rcases hnumeral with halphanum | rfl | rfl | rfl
  · simp [isWordChar, halphanum]
  · rfl
  · rfl
  · rfl

theorem isWord_int (n : Int) : IsWord (Value.int n).inspect := by
  have hinspect : (Value.int n).inspect.toList = Numeral.ofInt n := String.toList_ofList
  refine isWord_of_isNumeralChar ?_ (isNumeralChar_inspect_int n)
  rw [hinspect]
  cases n with
  | ofNat n => exact Nat.toDigits_ne_nil
  | negSucc n => simp [Numeral.ofInt]

theorem isWord_float (x : Binary64) : IsWord (Value.float x).inspect := by
  have hinspect : (Value.float x).inspect.toList = x.text Value.spelling := String.toList_ofList
  have hsigned : ∀ (negative : Bool) (cs : List Char), cs ≠ [] →
      Binary64.text.signed negative cs ≠ [] := by
    intro negative cs hne
    cases negative with
    | false => exact hne
    | true => exact List.cons_ne_nil _ _
  refine isWord_of_isNumeralChar ?_ (isNumeralChar_inspect_float x)
  rw [hinspect]
  cases x with
  | nan => decide
  | infinity negative => exact hsigned negative _ (by decide)
  | finite negative rank => exact hsigned negative _ (magnitudeText_ne_nil _ _)

end Typings
