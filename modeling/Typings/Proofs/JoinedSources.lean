import Typings.Proofs.CanonicalLayout

/-!
# Joined sources

Sources that are laid out one by one are laid out together too: what is joined with blank lines
between the sources is laid out as what is joined of their layouts. For each source leads the
scanner back to where it started, and no paragraph reaches from one source into the next.
-/

namespace Typings.Layout

open Text

/-! ## Paragraphs of joined sources -/

theorem paragraphs_splitLines_lineFeed (cs : List Char) :
    paragraphs List.isEmpty ((splitLines (cs ++ ['\n'])).map trim) =
      paragraphs List.isEmpty ((splitLines cs).map trim) := by
  rcases splitLines_concat_lineFeed cs with h | h
  · rw [h]
  · rw [h, List.map_append]
    exact paragraphs_concat rfl _

/-- A blank line parts what comes before it from what comes after. -/
theorem sourceParagraphs_append (source rest : String) :
    sourceParagraphs (source ++ "\n\n" ++ rest) =
      sourceParagraphs source ++ sourceParagraphs rest := by
  have htext : (source ++ "\n\n" ++ rest).toList =
      source.toList ++ '\n' :: '\n' :: rest.toList := by
    simp
  have hblank : splitLines ('\n' :: rest.toList) = [] :: splitLines rest.toList := rfl
  rw [sourceParagraphs, sourceTexts, htext, splitLines_append_lineFeed, hblank, List.map_append,
    List.map_cons, paragraphs_append_cons rfl, paragraphs_splitLines_lineFeed]
  rfl

theorem sourceParagraphs_intercalate (sources : List String) :
    sourceParagraphs ("\n\n".intercalate sources) = (sources.map sourceParagraphs).flatten := by
  induction sources with
  | nil => rfl
  | cons source sources ih =>
      by_cases hnil : sources = []
      · subst hnil
        rw [String.intercalate_singleton, List.map_singleton, List.flatten_singleton]
      · rw [String.intercalate_cons_of_ne_nil hnil, sourceParagraphs_append, ih, List.map_cons,
          List.flatten_cons]

/-! ## What is shown of them -/

section

variable {indent : Option Int}

theorem ShownAs.append {texts texts' shown shown' : List (List (List Char))}
    (h : ShownAs indent texts shown) (h' : ShownAs indent texts' shown') :
    ShownAs indent (texts ++ texts') (shown ++ shown') := by
  obtain ⟨blocks, htexts, hrun, hshown⟩ := h
  obtain ⟨blocks', htexts', hrun', hshown'⟩ := h'
  refine ⟨blocks ++ blocks', List.rel_append htexts htexts', ?_, List.rel_append hshown hshown'⟩
  rw [List.flatten_append, State.run_append, hrun, Option.bind_some, hrun', List.flatten_append]
  rfl

theorem ShownAs.flatten {parts showns : List (List (List (List Char)))}
    (h : List.Forall₂ (ShownAs indent) parts showns) :
    ShownAs indent parts.flatten showns.flatten := by
  induction h with
  | nil => exact ⟨[], .nil, rfl, .nil⟩
  | cons hpart _ ih => exact hpart.append ih

end

/-! ## Joined layouts -/

theorem intercalate_append {α : Type} {xs ys : List (List α)} (joint : List α) (hxs : xs ≠ [])
    (hys : ys ≠ []) :
    joint.intercalate (xs ++ ys) = joint.intercalate xs ++ joint ++ joint.intercalate ys := by
  induction xs with
  | nil => exact absurd rfl hxs
  | cons x xs ih =>
      by_cases hnil : xs = []
      · subst hnil
        rw [List.singleton_append, List.intercalate_cons_of_ne_nil hys, List.intercalate_singleton]
      · rw [List.cons_append, List.intercalate_cons_of_ne_nil (by simp [hnil]), ih hnil,
          List.intercalate_cons_of_ne_nil hnil]
        simp only [List.append_assoc]

theorem unlines_append (lines lines' : List (List Char)) :
    unlines (lines ++ lines') = unlines lines ++ unlines lines' :=
  List.flatMap_append

/-- One blank line between all paragraphs is one between the parts that they come from. -/
theorem unlines_intercalate_flatten {showns : List (List (List (List Char)))}
    (h : ∀ shown ∈ showns, shown ≠ []) :
    unlines ([[]].intercalate showns.flatten) =
      ['\n'].intercalate (showns.map fun shown ↦ unlines ([[]].intercalate shown)) := by
  induction showns with
  | nil => rfl
  | cons shown showns ih =>
      obtain ⟨hshown, hshowns⟩ := List.forall_mem_cons.1 h
      by_cases hnil : showns = []
      · subst hnil
        rw [List.flatten_singleton, List.map_singleton, List.intercalate_singleton]
      · have hflatten : showns.flatten ≠ [] := by
          obtain ⟨first, rest, rfl⟩ := List.exists_cons_of_ne_nil hnil
          exact List.append_ne_nil_of_left_ne_nil (hshowns first List.mem_cons_self) _
        rw [List.flatten_cons, intercalate_append [[]] hshown hflatten, unlines_append,
          unlines_append, ih hshowns, List.map_cons,
          List.intercalate_cons_of_ne_nil (by simp [hnil])]
        rfl

theorem ShownAs.eq_nil_iff {indent : Option Int} {source text : String}
    {shown : List (List (List Char))} (h : ShownAs indent (sourceParagraphs source) shown)
    (htext : unlines ([[]].intercalate shown) = text.toList) : shown = [] ↔ text = "" := by
  constructor
  · rintro rfl
    exact String.toList_eq_nil_iff.1 htext.symm
  · rintro rfl
    rw [← intercalate_blank_eq_nil_iff h.ne_nil_of_mem, ← h.splitLines_eq htext]
    rfl

/-- What is shown of each of some sources. -/
theorem exists_shownAs_of_forall₂ {indent : Option Int} {sources texts : List String}
    (h : List.Forall₂ (fun source text ↦ format indent source = .ok text) sources texts) :
    ∃ showns : List (List (List (List Char))),
      List.Forall₂ (fun source shown ↦ ShownAs indent (sourceParagraphs source) shown)
        sources showns ∧
      List.Forall₂ (fun shown text ↦ unlines ([[]].intercalate shown) = text.toList ∧
        (shown = [] ↔ text = "")) showns texts := by
  induction h with
  | nil => exact ⟨[], .nil, .nil⟩
  | cons htext _ ih =>
      obtain ⟨showns, hshowns, htexts⟩ := ih
      obtain ⟨shown, hshown, htext⟩ := format_eq_ok_iff_shownAs.1 htext
      exact ⟨shown :: showns, .cons hshown hshowns, .cons ⟨htext, hshown.eq_nil_iff htext⟩ htexts⟩

/-- Sources that are laid out one by one are laid out together when they are joined with a blank
line between them: what they are laid out to is joined likewise, but for what is empty. -/
theorem format_intercalate (indent : Option Int) {sources texts : List String}
    (h : List.Forall₂ (fun source text ↦ format indent source = .ok text) sources texts) :
    format indent ("\n\n".intercalate sources) =
      .ok ("\n".intercalate (texts.filter (· ≠ ""))) := by
  obtain ⟨showns, hshowns, htexts⟩ := exists_shownAs_of_forall₂ h
  rw [format_eq_ok_iff_shownAs, sourceParagraphs_intercalate]
  refine ⟨showns.flatten, .flatten (List.forall₂_map_left_iff.2 hshowns), ?_⟩
  have hblank (shown : List (List (List Char))) (text : String)
      (hshown : unlines ([[]].intercalate shown) = text.toList ∧ (shown = [] ↔ text = "")) :
      (!shown.isEmpty) = decide (text ≠ "") := by
    rw [Bool.eq_iff_iff, Bool.not_eq_true', List.isEmpty_eq_false_iff, decide_eq_true_iff]
    exact not_congr hshown.2
  have hkept := forall₂_filter htexts hblank
  have hmap : (showns.filter (!·.isEmpty)).map (fun shown ↦ unlines ([[]].intercalate shown)) =
      (texts.filter (· ≠ "")).map String.toList := by
    rw [← List.forall₂_eq_eq_eq, List.forall₂_map_left_iff, List.forall₂_map_right_iff]
    exact hkept.imp fun _ _ hshown ↦ hshown.1
  have hne : ∀ shown ∈ showns.filter (!·.isEmpty), shown ≠ [] := fun shown hshown ↦ by
    simpa using (List.mem_filter.1 hshown).2
  rw [← List.flatten_filter_not_isEmpty, unlines_intercalate_flatten hne, hmap,
    String.toList_intercalate]
  rfl

/-- A source that ends within a line break, one that is blank, and one of two paragraphs. -/
def seamSources : List String := ["f(\nx)\r", " \n\u2028", "\n/* a */ [\n\n\n]"]

theorem seamSources_format :
    List.Forall₂ (fun source text ↦ format (some 4) source = .ok text) seamSources
        ["f(\n    x)\n", "", "/* a */ [\n\n]\n"] ∧
      format (some 4) ("\n\n".intercalate seamSources) =
        .ok "f(\n    x)\n\n/* a */ [\n\n]\n" := by
  have htexts : List.Forall₂ (fun source text ↦ format (some 4) source = .ok text) seamSources
      ["f(\n    x)\n", "", "/* a */ [\n\n]\n"] := .cons rfl (.cons rfl (.cons rfl .nil))
  exact ⟨htexts, format_intercalate (some 4) htexts⟩

end Typings.Layout
