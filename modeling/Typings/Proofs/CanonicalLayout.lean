import Mathlib.Data.List.Chain
import Typings.Proofs.Paragraphs

/-!
# Canonical layouts

Every layout has one form: lines that end in a line feed with nothing blank before it, and single
blank lines between others. It has the paragraphs of its source, and sources with the same
paragraphs have the same layout; so a layout is laid out as it is.
-/

namespace Typings.Layout

open Text

/-- The form of layouts: every line is ended by a line feed and has no blanks at its end, the first
and the last line are not blank, and of two lines in a row one is not. -/
structure IsCanonical (text : String) : Prop where
  ended : unlines (splitLines text.toList) = text.toList
  trimmed : ∀ line ∈ splitLines text.toList, dropEnd isBlank line = line
  first : (splitLines text.toList).head? ≠ some []
  last : (splitLines text.toList).getLast? ≠ some []
  spaced : (splitLines text.toList).IsChain fun line next ↦ line ≠ [] ∨ next ≠ []

/-! ## Runs with a blank line between them -/

section

variable {runs : List (List (List Char))}

theorem mem_intercalate_blank {line : List Char} (h : line ∈ [[]].intercalate runs) :
    line = [] ∨ ∃ run ∈ runs, line ∈ run := by
  induction runs with
  | nil => cases h
  | cons run runs ih =>
      by_cases hnil : runs = []
      · subst hnil
        rw [List.intercalate_singleton] at h
        exact .inr ⟨run, List.mem_cons_self, h⟩
      · rw [List.intercalate_cons_of_ne_nil hnil] at h
        rcases List.mem_append.1 h with h | h
        · rcases List.mem_append.1 h with h | h
          · exact .inr ⟨run, List.mem_cons_self, h⟩
          · exact .inl (List.mem_singleton.1 h)
        · rcases ih h with h | ⟨run', hrun', h⟩
          · exact .inl h
          · exact .inr ⟨run', List.mem_cons_of_mem run hrun', h⟩

variable (h : ∀ run ∈ runs, run ≠ [] ∧ ∀ line ∈ run, line ≠ [])

include h

theorem paragraphs_intercalate_blank :
    paragraphs List.isEmpty ([[]].intercalate runs) = runs := by
  apply paragraphs_intercalate rfl
  intro run hrun
  exact ⟨(h run hrun).1, fun line hline ↦ List.isEmpty_eq_false_iff.2 ((h run hrun).2 line hline)⟩

theorem intercalate_blank_eq_nil_iff : [[]].intercalate runs = [] ↔ runs = [] := by
  refine ⟨fun hnil ↦ ?_, fun hnil ↦ hnil ▸ rfl⟩
  have hback := paragraphs_intercalate_blank h
  rw [hnil] at hback
  exact hback.symm

theorem head?_intercalate_blank : ([[]].intercalate runs).head? ≠ some [] := by
  cases runs with
  | nil => simp
  | cons run runs =>
      obtain ⟨hne, hrun⟩ := h run List.mem_cons_self
      obtain ⟨line, rest, rfl⟩ := List.exists_cons_of_ne_nil hne
      rw [List.intercalate_cons_cons_left, List.head?_cons]
      exact fun hline ↦ hrun line List.mem_cons_self (Option.some.inj hline)

theorem getLast?_intercalate_blank : ([[]].intercalate runs).getLast? ≠ some [] := by
  induction runs with
  | nil => simp
  | cons run runs ih =>
      obtain ⟨⟨hne, hrun⟩, hruns⟩ := List.forall_mem_cons.1 h
      by_cases hnil : runs = []
      · subst hnil
        rw [List.intercalate_singleton]
        exact fun hlast ↦ hrun [] (List.mem_of_getLast? hlast) rfl
      · have hrest := mt (intercalate_blank_eq_nil_iff hruns).1 hnil
        rw [List.intercalate_cons_of_ne_nil hnil, List.getLast?_append_of_ne_nil _ hrest]
        exact ih hruns

theorem isChain_intercalate_blank :
    ([[]].intercalate runs).IsChain fun line next ↦ line ≠ [] ∨ next ≠ [] := by
  induction runs with
  | nil => exact .nil
  | cons run runs ih =>
      obtain ⟨⟨hne, hrun⟩, hruns⟩ := List.forall_mem_cons.1 h
      have hchain : run.IsChain fun line next ↦ line ≠ [] ∨ next ≠ [] := by
        apply List.Pairwise.isChain
        exact List.pairwise_of_forall_mem_list fun line hline _ _ ↦ .inl (hrun line hline)
      by_cases hnil : runs = []
      · subst hnil
        rwa [List.intercalate_singleton]
      · rw [List.intercalate_cons_of_ne_nil hnil, List.append_assoc, List.singleton_append]
        -- The blank line stands between two lines that are not blank.
        have hblank : ([] :: [[]].intercalate runs).IsChain
            fun line next ↦ line ≠ [] ∨ next ≠ [] := by
          refine List.isChain_cons.2 ⟨fun next hnext ↦ .inr ?_, ih hruns⟩
          rintro rfl
          exact head?_intercalate_blank hruns hnext
        refine hchain.append hblank fun line hline next _ ↦ .inl ?_
        exact hrun line (List.mem_of_getLast? hline)

end

/-! ## What a layout shows -/

section

variable {indent : Option Int} {source text : String} {shown : List (List (List Char))}

theorem of_mem_sourceParagraphs {run : List (List Char)} (h : run ∈ sourceParagraphs source) :
    run ≠ [] ∧ ∀ line ∈ run, line ≠ [] ∧ IsUnbroken line ∧ trim line = line := by
  obtain ⟨hne, hrun⟩ := of_mem_paragraphs h
  refine ⟨hne, fun line hline ↦ ⟨List.isEmpty_eq_false_iff.1 (hrun line hline), ?_⟩⟩
  have hmem : line ∈ (sourceParagraphs source).flatten := List.mem_flatten.2 ⟨run, h, hline⟩
  rw [sourceParagraphs, flatten_paragraphs] at hmem
  obtain ⟨raw, hraw, rfl⟩ := List.mem_map.1 (List.mem_filter.1 hmem).1
  exact ⟨(isUnbroken_of_mem_splitLines hraw).of_part (infix_trim raw), trim_trim raw⟩

/-- What is shown for the lines of a source. -/
theorem ShownAs.forall₂_shown (h : ShownAs indent (sourceParagraphs source) shown) :
    List.Forall₂ (List.Forall₂ fun line text ↦ trim line = text ∧ text ≠ [] ∧ IsUnbroken line ∧
      dropEnd isBlank line = line) shown (sourceParagraphs source) := by
  obtain ⟨blocks, htexts, -, hshown⟩ := h
  refine forall₂_of_common hshown htexts fun block lines texts hrun hlines htexts ↦ ?_
  refine forall₂_of_common hlines htexts fun l line text hmem hrender htext ↦ ?_
  obtain ⟨hne, hunbroken, htrim⟩ := (of_mem_sourceParagraphs hrun).2 text hmem
  have hraw : l.text = trim text := htext.trans htrim.symm
  exact ⟨(PlacedLine.trim_of_render hraw hrender).trans htext, hne,
    PlacedLine.isUnbroken_of_render hunbroken hraw hrender,
    PlacedLine.dropEnd_of_render hraw hrender⟩

theorem ShownAs.of_mem_shown (h : ShownAs indent (sourceParagraphs source) shown)
    {run : List (List Char)} (hrun : run ∈ shown) :
    run ≠ [] ∧ ∀ line ∈ run, trim line ≠ [] ∧ IsUnbroken line ∧ dropEnd isBlank line = line := by
  obtain ⟨texts, hpair⟩ := exists_mem_zip_left h.forall₂_shown.length_eq hrun
  have hlines := List.forall₂_zip h.forall₂_shown hpair
  constructor
  · rintro rfl
    cases hlines
    exact (of_mem_sourceParagraphs (List.of_mem_zip hpair).2).1 rfl
  · intro line hline
    obtain ⟨text, hpair⟩ := exists_mem_zip_left hlines.length_eq hline
    obtain ⟨rfl, hline⟩ := List.forall₂_zip hlines hpair
    exact hline

theorem ne_nil_of_trim_ne_nil {line : List Char} (h : trim line ≠ []) : line ≠ [] := by
  rintro rfl
  exact h rfl

theorem ShownAs.ne_nil_of_mem (h : ShownAs indent (sourceParagraphs source) shown) :
    ∀ run ∈ shown, run ≠ [] ∧ ∀ line ∈ run, line ≠ [] := by
  intro run hrun
  obtain ⟨hne, hlines⟩ := h.of_mem_shown hrun
  exact ⟨hne, fun line hline ↦ ne_nil_of_trim_ne_nil (hlines line hline).1⟩

/-- A line of a layout is blank only if it is empty. -/
theorem ShownAs.of_mem_intercalate (h : ShownAs indent (sourceParagraphs source) shown)
    {line : List Char} (hline : line ∈ [[]].intercalate shown) :
    IsUnbroken line ∧ dropEnd isBlank line = line ∧ line.isEmpty = (trim line).isEmpty := by
  rcases mem_intercalate_blank hline with rfl | ⟨run, hrun, hline⟩
  · exact ⟨List.forall_mem_nil _, rfl, rfl⟩
  · obtain ⟨htrim, hunbroken, hend⟩ := (h.of_mem_shown hrun).2 line hline
    refine ⟨hunbroken, hend, ?_⟩
    rw [List.isEmpty_eq_false_iff.2 htrim,
      List.isEmpty_eq_false_iff.2 (ne_nil_of_trim_ne_nil htrim)]

theorem ShownAs.splitLines_eq (h : ShownAs indent (sourceParagraphs source) shown)
    (htext : unlines ([[]].intercalate shown) = text.toList) :
    splitLines text.toList = [[]].intercalate shown := by
  have hsplit := splitLines_unlines_append (fun line hline ↦ (h.of_mem_intercalate hline).1) []
  rwa [List.append_nil, htext, splitLines, List.append_nil] at hsplit

theorem ShownAs.isCanonical (h : ShownAs indent (sourceParagraphs source) shown)
    (htext : unlines ([[]].intercalate shown) = text.toList) : IsCanonical text := by
  have hlines := h.splitLines_eq htext
  constructor
  · rw [hlines, htext]
  · rw [hlines]
    exact fun line hline ↦ (h.of_mem_intercalate hline).2.1
  · rw [hlines]
    exact head?_intercalate_blank h.ne_nil_of_mem
  · rw [hlines]
    exact getLast?_intercalate_blank h.ne_nil_of_mem
  · rw [hlines]
    exact isChain_intercalate_blank h.ne_nil_of_mem

theorem ShownAs.sourceParagraphs_eq (h : ShownAs indent (sourceParagraphs source) shown)
    (htext : unlines ([[]].intercalate shown) = text.toList) :
    sourceParagraphs text = sourceParagraphs source := by
  have hlines : List.Forall₂ (fun line text ↦ trim line = text ∧ line.isEmpty = text.isEmpty)
      ([[]].intercalate shown) (sourceTexts text.toList) := by
    rw [sourceTexts, h.splitLines_eq htext, List.forall₂_map_right_iff, List.forall₂_same]
    exact fun line hline ↦ ⟨rfl, (h.of_mem_intercalate hline).2.2⟩
  have hruns := forall₂_paragraphs hlines fun _ _ hline ↦ hline.2
  rw [paragraphs_intercalate_blank h.ne_nil_of_mem] at hruns
  rw [← List.forall₂_eq_eq_eq]
  refine forall₂_of_common hruns h.forall₂_shown fun run texts texts' _ htexts htexts' ↦ ?_
  rw [← List.forall₂_eq_eq_eq]
  exact forall₂_of_common htexts htexts' fun line text text' _ htext htext' ↦
    htext.1.symm.trans htext'.1

end

/-! ## The layout of a layout -/

/-- Sources with the same paragraphs have the same layout or none. A layout has the paragraphs of
its source and the form of all layouts, and is laid out as it is. -/
theorem format_canonical (indent : Option Int) :
    (∀ source source', sourceParagraphs source = sourceParagraphs source' →
      ∀ text, format indent source = .ok text ↔ format indent source' = .ok text) ∧
    ∀ source text, format indent source = .ok text →
      sourceParagraphs text = sourceParagraphs source ∧ IsCanonical text ∧
        format indent text = .ok text := by
  have hsame {source source' : String} (h : sourceParagraphs source = sourceParagraphs source')
      (text : String) : format indent source = .ok text ↔ format indent source' = .ok text := by
    rw [format_eq_ok_iff_shownAs, format_eq_ok_iff_shownAs, h]
  refine ⟨fun _ _ ↦ hsame, fun source text h ↦ ?_⟩
  obtain ⟨shown, hshown, htext⟩ := format_eq_ok_iff_shownAs.1 h
  have hparagraphs := hshown.sourceParagraphs_eq htext
  exact ⟨hparagraphs, hshown.isCanonical htext, (hsame hparagraphs text).2 h⟩

/-- Three paragraphs within blank lines of many kinds. -/
def looseSource : String := "\n\t\x7b \n\n \n/* a\r* b\n\n\n\n*/ \x7d\u2028"

/-- The same paragraphs one blank line apart. -/
def closeSource : String := "\x7b\n\n/* a\n* b\n\n   */ \x7d"

def looseLayout : String := "\x7b\n\n  /* a\n   * b\n\n */ \x7d\n"

theorem looseSource_canonical :
    sourceParagraphs looseSource = sourceParagraphs closeSource ∧
      format (some 2) looseSource = .ok looseLayout ∧
      format (some 2) closeSource = .ok looseLayout ∧
      IsCanonical looseLayout ∧ format (some 2) looseLayout = .ok looseLayout := by
  have hparagraphs : sourceParagraphs looseSource = sourceParagraphs closeSource := rfl
  have hloose : format (some 2) looseSource = .ok looseLayout := rfl
  obtain ⟨hsame, hcanonical⟩ := format_canonical (some 2)
  obtain ⟨-, hform, hagain⟩ := hcanonical _ _ hloose
  exact ⟨hparagraphs, hloose, (hsame _ _ hparagraphs _).1 hloose, hform, hagain⟩

end Typings.Layout
