import Mathlib.Data.List.Infix
import Typings.Layout.Format

/-!
# Lines of a source text

A text that ends in a line feed can be cut into lines apart from what comes after it, and lines that
hold no line break are what their join is cut into. Trimming takes nothing from within a line.
-/

namespace Typings.Text

/-! ## Trimming -/

section

variable {α : Type} {p : α → Bool} {x : α} {xs : List α}

theorem prefix_dropEnd (p : α → Bool) (xs : List α) : dropEnd p xs <+: xs := by
  induction xs with
  | nil => exact List.nil_prefix
  | cons x xs ih =>
      rw [dropEnd]
      split
      · split
        · exact List.nil_prefix
        · exact ⟨xs, rfl⟩
      · exact List.cons_prefix_cons.2 ⟨rfl, ih⟩

theorem dropEnd_cons_of_not (hx : p x = false) : dropEnd p (x :: xs) = x :: dropEnd p xs := by
  rw [dropEnd]
  split
  · next h => rw [if_neg (by simp [hx]), h]
  · rfl

theorem dropEnd_cons_of_ne_nil (h : dropEnd p xs ≠ []) :
    dropEnd p (x :: xs) = x :: dropEnd p xs := by
  rw [dropEnd]
  split
  · next hnil => exact absurd hnil h
  · rfl

theorem dropEnd_dropEnd (p : α → Bool) (xs : List α) : dropEnd p (dropEnd p xs) = dropEnd p xs := by
  induction xs with
  | nil => rfl
  | cons x xs ih =>
      by_cases hxs : dropEnd p xs = []
      · cases hx : p x with
        | false => rw [dropEnd_cons_of_not hx, dropEnd_cons_of_not hx, ih]
        | true =>
            have hnil : dropEnd p (x :: xs) = [] := by simp [dropEnd, hxs, hx]
            rw [hnil, dropEnd]
      · have hne : dropEnd p (dropEnd p xs) ≠ [] := by rwa [ih]
        rw [dropEnd_cons_of_ne_nil hxs, dropEnd_cons_of_ne_nil hne, ih]

theorem dropEnd_append_cons (hx : p x = false) (ys : List α) :
    dropEnd p (xs ++ x :: ys) = xs ++ x :: dropEnd p ys := by
  induction xs with
  | nil => exact dropEnd_cons_of_not hx
  | cons y xs ih =>
      have hne : dropEnd p (xs ++ x :: ys) ≠ [] := by simp [ih]
      rw [List.cons_append, dropEnd_cons_of_ne_nil hne, ih, List.cons_append]

end

theorem infix_trim (cs : List Char) : trim cs <:+: cs :=
  (prefix_dropEnd _ _).isInfix.trans (List.dropWhile_suffix _).isInfix

theorem isBlank_of_trim_eq_cons {cs rest : List Char} {c : Char} (h : trim cs = c :: rest) :
    isBlank c = false := by
  have hstart : c :: rest <+: cs.dropWhile isBlank := by
    rw [← h]
    exact prefix_dropEnd _ _
  obtain ⟨more, hmore⟩ := hstart
  have hhead := List.head?_dropWhile_not isBlank cs
  rw [← hmore] at hhead
  simpa using hhead

theorem trim_cons {c : Char} (hc : isBlank c = false) (cs : List Char) :
    trim (c :: cs) = c :: dropEnd isBlank cs := by
  rw [trim, List.dropWhile_cons_of_neg (by simp [hc]), dropEnd_cons_of_not hc]

theorem dropEnd_trim (cs : List Char) : dropEnd isBlank (trim cs) = trim cs := dropEnd_dropEnd _ _

theorem trim_trim (cs : List Char) : trim (trim cs) = trim cs := by
  cases h : trim cs with
  | nil => rfl
  | cons c rest =>
      rw [trim, List.dropWhile_cons_of_neg (by simp [isBlank_of_trim_eq_cons h]), ← h]
      exact dropEnd_trim cs

theorem trim_append_of_forall_isBlank {margin : List Char} (h : ∀ c ∈ margin, isBlank c = true)
    (cs : List Char) : trim (margin ++ cs) = trim cs := by
  rw [trim, List.dropWhile_append_of_pos h, trim]

/-! ## Line breaks -/

def IsUnbroken (line : List Char) : Prop := ∀ c ∈ line, isLineBreak c = false

instance (line : List Char) : Decidable (IsUnbroken line) :=
  decidable_of_iff (line.all (!isLineBreak ·) = true) (by simp [IsUnbroken])

theorem IsUnbroken.of_part {line part : List Char} (h : IsUnbroken line) (hpart : part <:+: line) :
    IsUnbroken part :=
  fun c hc ↦ h c (hpart.subset hc)

theorem IsUnbroken.append {line more : List Char} (hline : IsUnbroken line)
    (hmore : IsUnbroken more) : IsUnbroken (line ++ more) := by
  intro c hc
  rcases List.mem_append.1 hc with hc | hc
  · exact hline c hc
  · exact hmore c hc

/-- Induction along the pieces that are looked at together: a carriage return with the line feed
after it, and any other character alone. -/
@[elab_as_elim]
theorem splitLines_induction {motive : List Char → Prop} (cs : List Char) (nil : motive [])
    (pair : ∀ cs, motive cs → motive ('\r' :: '\n' :: cs))
    (cons : ∀ c cs, (∀ rest, c = '\r' → cs = '\n' :: rest → False) → motive cs → motive (c :: cs)) :
    motive cs := by
  induction cs using splitLines.induct with
  | case1 => exact nil
  | case2 cs ih => exact pair cs ih
  | case3 c cs hcr _ ih => exact cons c cs hcr ih
  | case4 c cs hcr _ _ ih => exact cons c cs hcr ih
  | case5 c cs hcr _ _ _ _ ih => exact cons c cs hcr ih

theorem splitLines_cons {c : Char} {cs : List Char}
    (h : ∀ rest, c = '\r' → cs = '\n' :: rest → False) :
    splitLines (c :: cs) =
      if isLineBreak c then [] :: splitLines cs
      else (c :: (splitLines cs).headD []) :: (splitLines cs).tail := by
  rw [splitLines.eq_3 c cs h]
  cases splitLines cs <;> rfl

theorem splitLines_ne_nil {cs : List Char} (h : cs ≠ []) : splitLines cs ≠ [] := by
  induction cs using splitLines_induction with
  | nil => exact absurd rfl h
  | pair cs _ => exact List.cons_ne_nil _ _
  | cons c cs hcr _ =>
      rw [splitLines_cons hcr]
      split <;> exact List.cons_ne_nil _ _

/-- A carriage return that is not the last character makes no pair with what is appended. -/
theorem not_pair_append {c : Char} {cs : List Char}
    (h : ∀ rest, c = '\r' → cs = '\n' :: rest → False) (hlast : ¬ (c = '\r' ∧ cs = []))
    (tail : List Char) : ∀ rest, c = '\r' → cs ++ tail = '\n' :: rest → False := by
  intro rest hc hrest
  cases cs with
  | nil => exact hlast ⟨hc, rfl⟩
  | cons d ds =>
      obtain ⟨rfl, -⟩ := List.cons_eq_cons.1 hrest
      exact h ds hc rfl

theorem splitLines_append_lineFeed (cs rest : List Char) :
    splitLines (cs ++ '\n' :: rest) = splitLines (cs ++ ['\n']) ++ splitLines rest := by
  induction cs using splitLines_induction with
  | nil => rfl
  | pair cs ih => exact congrArg ([] :: ·) ih
  | cons c cs hcr ih =>
      -- A carriage return at the end makes one line break with the line feed.
      by_cases hc : c = '\r' ∧ cs = []
      · obtain ⟨rfl, rfl⟩ := hc
        rfl
      rw [List.cons_append, List.cons_append, splitLines_cons (not_pair_append hcr hc _),
        splitLines_cons (not_pair_append hcr hc _), ih]
      split
      · rfl
      · obtain ⟨line, lines, hlines⟩ := List.exists_cons_of_ne_nil
          (splitLines_ne_nil (List.append_ne_nil_of_right_ne_nil cs (List.cons_ne_nil '\n' [])))
        rw [hlines]
        rfl

/-- A line feed at the end ends the last line or makes one more, which is blank. -/
theorem splitLines_concat_lineFeed (cs : List Char) :
    splitLines (cs ++ ['\n']) = splitLines cs ∨
      splitLines (cs ++ ['\n']) = splitLines cs ++ [[]] := by
  induction cs using splitLines_induction with
  | nil => exact .inr rfl
  | pair cs ih => exact ih.imp (congrArg ([] :: ·)) (congrArg ([] :: ·))
  | cons c cs hcr ih =>
      by_cases hc : c = '\r' ∧ cs = []
      · obtain ⟨rfl, rfl⟩ := hc
        exact .inl rfl
      rw [List.cons_append, splitLines_cons (not_pair_append hcr hc ['\n']), splitLines_cons hcr]
      split
      · exact ih.imp (congrArg ([] :: ·)) (congrArg ([] :: ·))
      · by_cases hcs : cs = []
        · subst hcs
          exact .inl rfl
        · obtain ⟨line, lines, hlines⟩ := List.exists_cons_of_ne_nil (splitLines_ne_nil hcs)
          rw [hlines] at ih ⊢
          rcases ih with ih | ih
          · exact .inl (by rw [ih])
          · exact .inr (by rw [ih]; rfl)

/-- A text that ends in a line feed, or is empty, ends no line within the text after it. -/
theorem splitLines_append {cs : List Char} (h : cs = [] ∨ cs.getLast? = some '\n')
    (rest : List Char) : splitLines (cs ++ rest) = splitLines cs ++ splitLines rest := by
  rcases h with rfl | h
  · rfl
  · obtain ⟨front, rfl⟩ := List.getLast?_eq_some_iff.1 h
    rw [List.append_assoc]
    exact splitLines_append_lineFeed front rest

/-- What comes before the end of a line belongs to its first line. -/
theorem splitLines_append_of_isUnbroken {line cs : List Char} (h : IsUnbroken line)
    (hline : line ≠ []) :
    splitLines (line ++ cs) = (line ++ (splitLines cs).headD []) :: (splitLines cs).tail := by
  induction line with
  | nil => exact absurd rfl hline
  | cons c line ih =>
      obtain ⟨hc, hrest⟩ := List.forall_mem_cons.1 h
      have hcr : ∀ rest, c = '\r' → line ++ cs = '\n' :: rest → False := by
        rintro _ rfl
        cases hc
      rw [List.cons_append, splitLines_cons hcr, if_neg (by simp [hc])]
      by_cases hnil : line = []
      · subst hnil
        rfl
      · rw [ih hrest hnil]
        rfl

theorem splitLines_line {line : List Char} (h : IsUnbroken line) (rest : List Char) :
    splitLines (line ++ '\n' :: rest) = line :: splitLines rest := by
  by_cases hnil : line = []
  · subst hnil
    rfl
  · rw [splitLines_append_of_isUnbroken h hnil]
    change (line ++ []) :: splitLines rest = _
    rw [List.append_nil]

theorem splitLines_unlines_append {lines : List (List Char)} (h : ∀ line ∈ lines, IsUnbroken line)
    (rest : List Char) :
    splitLines (Layout.unlines lines ++ rest) = lines ++ splitLines rest := by
  induction lines with
  | nil => rfl
  | cons line lines ih =>
      obtain ⟨hline, hlines⟩ := List.forall_mem_cons.1 h
      have hcons : Layout.unlines (line :: lines) ++ rest =
          line ++ '\n' :: (Layout.unlines lines ++ rest) := by
        simp [Layout.unlines]
      rw [hcons, splitLines_line hline, ih hlines, List.cons_append]

/-- Lines are joined by line feeds to what they are if each of them is ended, but for the last. -/
theorem intercalate_concat (lines : List (List Char)) (last : List Char) :
    ['\n'].intercalate (lines ++ [last]) = Layout.unlines lines ++ last := by
  induction lines with
  | nil => simp [Layout.unlines]
  | cons line lines ih =>
      rw [List.cons_append, List.intercalate_cons_of_ne_nil (by simp), ih]
      simp [Layout.unlines]

theorem prefix_headD_splitLines (cs : List Char) : (splitLines cs).headD [] <+: cs := by
  induction cs using splitLines_induction with
  | nil => exact List.nil_prefix
  | pair cs _ => exact List.nil_prefix
  | cons c cs hcr ih =>
      rw [splitLines_cons hcr]
      split
      · exact List.nil_prefix
      · exact List.cons_prefix_cons.2 ⟨rfl, ih⟩

theorem infix_of_mem_splitLines {cs line : List Char} (h : line ∈ splitLines cs) :
    line <:+: cs := by
  induction cs using splitLines_induction with
  | nil => cases h
  | pair cs ih =>
      rcases List.mem_cons.1 h with rfl | h
      · exact List.nil_infix
      · exact List.infix_cons (List.infix_cons (ih h))
  | cons c cs hcr ih =>
      have hcons := prefix_headD_splitLines (c :: cs)
      rw [splitLines_cons hcr] at h hcons
      split at h
      · rcases List.mem_cons.1 h with rfl | h
        · exact List.nil_infix
        · exact List.infix_cons (ih h)
      · next hbreak =>
        rw [if_neg hbreak] at hcons
        rcases List.mem_cons.1 h with rfl | h
        · exact hcons.isInfix
        · exact List.infix_cons (ih (List.mem_of_mem_tail h))

theorem isUnbroken_of_mem_splitLines {cs line : List Char} (h : line ∈ splitLines cs) :
    IsUnbroken line := by
  induction cs using splitLines_induction generalizing line with
  | nil => cases h
  | pair cs ih =>
      rcases List.mem_cons.1 h with rfl | h
      · exact List.forall_mem_nil _
      · exact ih h
  | cons c cs hcr ih =>
      rw [splitLines_cons hcr] at h
      split at h
      · rcases List.mem_cons.1 h with rfl | h
        · exact List.forall_mem_nil _
        · exact ih h
      · next hbreak =>
        rcases List.mem_cons.1 h with rfl | h
        · refine List.forall_mem_cons.2 ⟨by simpa using hbreak, ?_⟩
          cases hcs : splitLines cs with
          | nil => exact List.forall_mem_nil _
          | cons first rest =>
              have hfirst : first ∈ splitLines cs := by simp [hcs]
              exact ih hfirst
        · exact ih (List.mem_of_mem_tail h)

end Typings.Text
