import Typings.Proofs.Outcome
import Typings.Proofs.Scanning
import Typings.Proofs.SourceLines

/-!
# What a laid out text consists of

The lines of a laid out text that are not blank are those of its source, each behind its margin.
-/

namespace Typings.Layout

/-- The lines of a text that are not blank. -/
def contentLines (text : List Char) : List (List Char) :=
  (Text.splitLines text).filter fun line ↦ !(Text.trim line).isEmpty

/-! ## Blank lines -/

theorem squeezeBlank_sublist (lines : List (List Char)) : (squeezeBlank lines).Sublist lines := by
  induction lines with
  | nil => exact .slnil
  | cons line rest ih =>
      unfold squeezeBlank
      split
      · exact List.nil_sublist _
      · next h =>
        rw [← h]
        exact ih.cons _
      · exact ih.cons_cons _

theorem squeezeBlank_of_ne_nil {line : List Char} (h : line ≠ []) (rest : List (List Char)) :
    squeezeBlank (line :: rest) = line :: squeezeBlank rest := by
  obtain ⟨c, cs, rfl⟩ := List.exists_cons_of_ne_nil h
  rw [squeezeBlank]
  · simp
  · simp

theorem squeezeBlank_nil_cons (rest : List (List Char)) :
    squeezeBlank ([] :: rest) = if (squeezeBlank rest).headD [] = [] then squeezeBlank rest
      else [] :: squeezeBlank rest := by
  rw [squeezeBlank.eq_def]
  dsimp only
  cases squeezeBlank rest with
  | nil => rfl
  | cons line more =>
      cases line with
      | nil => rfl
      | cons c cs => rfl

theorem filter_squeezeBlank (lines : List (List Char)) :
    (squeezeBlank lines).filter (!·.isEmpty) = lines.filter (!·.isEmpty) := by
  induction lines with
  | nil => rfl
  | cons line rest ih =>
      unfold squeezeBlank
      split
      · next h =>
        rw [h] at ih
        exact ih
      · next h =>
        rw [h] at ih
        exact ih
      · rw [List.filter_cons, List.filter_cons, ih]

theorem filter_dropWhile_isEmpty (lines : List (List Char)) :
    (lines.dropWhile (·.isEmpty)).filter (!·.isEmpty) = lines.filter (!·.isEmpty) := by
  induction lines with
  | nil => rfl
  | cons line rest ih =>
      cases line with
      | nil => exact ih
      | cons c cs => rfl

/-! ## Rendered lines -/

section

variable {indent : Option Int} {l : PlacedLine} {rendered : List Char}

/-- A line as it stands behind its margin. -/
def PlacedLine.shown (l : PlacedLine) : List Char :=
  if l.inComment ∧ l.text.head? = some '*' then ' ' :: l.text else l.text

theorem PlacedLine.render_of_ne_nil (h : l.text ≠ []) :
    l.render indent = (l.margin indent).map (· ++ l.shown) := by
  obtain ⟨text, depth, inComment⟩ := l
  cases text with
  | nil => exact absurd rfl h
  | cons c rest =>
      by_cases hc : c = '*'
      · subst hc
        cases inComment <;> rfl
      · simp [render, shown, hc]

theorem eq_replicate_of_margin {width : Int} {m : List Char} (h : Text.margin width = .ok m) :
    m = List.replicate width.toNat ' ' := by
  rw [Text.margin] at h
  split at h
  · cases h
  · exact (Except.ok.inj h).symm

theorem PlacedLine.eq_space_of_margin {m : List Char} (h : l.margin indent = .ok m) :
    ∀ c ∈ m, c = ' ' := by
  cases indent with
  | none => cases h
  | some width =>
      rw [eq_replicate_of_margin h]
      exact fun c hc ↦ (List.mem_replicate.1 hc).2

theorem PlacedLine.text_subset_shown (l : PlacedLine) : l.text ⊆ l.shown := by
  rw [shown]
  split
  · exact List.subset_cons_self _ _
  · exact List.Subset.refl _

/-- A line is pushed in by spaces when it is rendered, unless it is blank. -/
theorem PlacedLine.exists_front_of_render (h : l.render indent = .ok rendered) :
    ∃ front, rendered = front ++ l.text ∧ (∀ c ∈ front, c = ' ') ∧ (l.text = [] → front = []) := by
  by_cases hl : l.text = []
  · rw [render, hl] at h
    obtain rfl := Except.ok.inj h
    exact ⟨[], hl.symm, List.forall_mem_nil _, fun _ ↦ rfl⟩
  · rw [render_of_ne_nil hl] at h
    cases hmargin : l.margin indent with
    | error e =>
        rw [hmargin] at h
        cases h
    | ok m =>
        rw [hmargin] at h
        obtain rfl := Except.ok.inj h
        have hspace := eq_space_of_margin hmargin
        rw [shown]
        split
        · refine ⟨m ++ [' '], List.append_cons m ' ' l.text, ?_, fun hnil ↦ absurd hnil hl⟩
          exact List.forall_mem_append.2 ⟨hspace, List.forall_mem_singleton.2 rfl⟩
        · exact ⟨m, rfl, hspace, fun hnil ↦ absurd hnil hl⟩

theorem PlacedLine.isEmpty_of_render (h : l.render indent = .ok rendered) :
    rendered.isEmpty = l.text.isEmpty := by
  obtain ⟨front, rfl, -, hfront⟩ := exists_front_of_render h
  cases hl : l.text with
  | nil => rw [hfront hl, List.nil_append]
  | cons c rest => simp

/-- What is in a line stays, and nothing but spaces comes before it. -/
theorem PlacedLine.trim_of_render {raw : List Char} (htext : l.text = Text.trim raw)
    (h : l.render indent = .ok rendered) : Text.trim rendered = l.text := by
  obtain ⟨front, rfl, hspace, -⟩ := exists_front_of_render h
  have hblank : ∀ c ∈ front, Text.isBlank c = true := fun c hc ↦ hspace c hc ▸ rfl
  rw [Text.trim_append_of_forall_isBlank hblank, htext, Text.trim_trim]

theorem PlacedLine.dropEnd_of_render {raw : List Char} (htext : l.text = Text.trim raw)
    (h : l.render indent = .ok rendered) : Text.dropEnd Text.isBlank rendered = rendered := by
  obtain ⟨front, rfl, -, hfront⟩ := exists_front_of_render h
  cases hl : l.text with
  | nil => rw [hfront hl, List.nil_append, Text.dropEnd]
  | cons c rest =>
      have hc := Text.isBlank_of_trim_eq_cons (htext.symm.trans hl)
      have hend := Text.dropEnd_trim raw
      rw [← htext, hl, Text.dropEnd_cons_of_not hc] at hend
      rw [Text.dropEnd_append_cons hc, (List.cons_eq_cons.1 hend).2]

theorem PlacedLine.isUnbroken_of_render {raw : List Char} (hraw : Text.IsUnbroken raw)
    (htext : l.text = Text.trim raw) (h : l.render indent = .ok rendered) :
    Text.IsUnbroken rendered := by
  obtain ⟨front, rfl, hspace, -⟩ := exists_front_of_render h
  have hfront : Text.IsUnbroken front := fun c hc ↦ hspace c hc ▸ rfl
  exact hfront.append (htext ▸ hraw.of_part (Text.infix_trim raw))

end

/-- The texts of a source are rendered to lines that are as blank as they are. -/
theorem forall₂_rendered {indent : Option Int} {source : List Char} {placed : List PlacedLine}
    {rendered : List (List Char)} (htexts : placed.map PlacedLine.text = sourceTexts source)
    (hrendered : placed.mapM (PlacedLine.render indent) = .ok rendered) :
    List.Forall₂ (fun l r ↦ Text.IsUnbroken r ∧ (Text.trim r).isEmpty = r.isEmpty ∧
      r.isEmpty = l.text.isEmpty) placed rendered := by
  have hraw : ∀ l ∈ placed, ∃ raw, Text.IsUnbroken raw ∧ l.text = Text.trim raw := by
    intro l hl
    have htext : l.text ∈ sourceTexts source := htexts ▸ List.mem_map_of_mem hl
    obtain ⟨raw, hraw, htrim⟩ := List.mem_map.1 htext
    exact ⟨raw, Text.isUnbroken_of_mem_splitLines hraw, htrim.symm⟩
  refine ((List.forall₂_and_left placed rendered).2 ⟨hraw, mapM_eq_ok_iff.1 hrendered⟩).imp ?_
  rintro l r ⟨⟨raw, hunbroken, htext⟩, hr⟩
  have hempty := PlacedLine.isEmpty_of_render hr
  exact ⟨PlacedLine.isUnbroken_of_render hunbroken htext hr,
    (congrArg List.isEmpty (PlacedLine.trim_of_render htext hr)).trans hempty.symm, hempty⟩

/-- As many lines of a source as are not blank are rendered to lines that are not blank. -/
theorem length_filter_rendered {indent : Option Int} {source : List Char}
    {placed : List PlacedLine} {rendered : List (List Char)}
    (htexts : placed.map PlacedLine.text = sourceTexts source)
    (hrendered : placed.mapM (PlacedLine.render indent) = .ok rendered) :
    (rendered.filter (!·.isEmpty)).length = (contentLines source).length := by
  have hblank : (sourceTexts source).map List.isEmpty = rendered.map List.isEmpty := by
    rw [← htexts, List.map_map, ← List.forall₂_eq_eq_eq, List.forall₂_map_left_iff,
      List.forall₂_map_right_iff]
    exact (forall₂_rendered htexts hrendered).imp fun l r h ↦ h.2.2.symm
  calc (rendered.filter (!·.isEmpty)).length
      = ((rendered.map List.isEmpty).filter (!·)).length := by
        rw [List.filter_map, List.length_map]
        rfl
    _ = (((sourceTexts source).map List.isEmpty).filter (!·)).length := by rw [hblank]
    _ = (contentLines source).length := by
        rw [sourceTexts, List.map_map, List.filter_map, List.length_map]
        rfl

/-! ## Laid out texts -/

section

variable {indent : Option Int} {source text : String}

theorem format_eq_ok_iff :
    format indent source = .ok text ↔ ∃ placed rendered, scan source.toList = .ok placed ∧
      placed.mapM (PlacedLine.render indent) = .ok rendered ∧
        unlines (squeezeBlank (rendered.dropWhile (·.isEmpty))) = text.toList := by
  rw [format, formatChars]
  cases scan source.toList with
  | error e => simp [Except.map]
  | ok placed =>
      dsimp only
      cases hrendered : placed.mapM (PlacedLine.render indent) with
      | error e => simp [hrendered, Except.map]
      | ok rendered => simp [hrendered, Except.map, String.ext_iff]

theorem exists_format_eq_ok_iff :
    (∃ text, format indent source = .ok text) ↔ ∃ placed rendered,
      scan source.toList = .ok placed ∧ placed.mapM (PlacedLine.render indent) = .ok rendered := by
  constructor
  · rintro ⟨text, h⟩
    obtain ⟨placed, rendered, hscan, hrendered, -⟩ := format_eq_ok_iff.1 h
    exact ⟨placed, rendered, hscan, hrendered⟩
  · rintro ⟨placed, rendered, hscan, hrendered⟩
    exact ⟨_, format_eq_ok_iff.2 ⟨placed, rendered, hscan, hrendered, String.toList_ofList.symm⟩⟩

theorem exists_format_eq_error_scan_iff :
    (∃ e, format indent source = .error (.scan e)) ↔
      ∀ placed, scan source.toList ≠ .ok placed := by
  rw [format, formatChars]
  cases scan source.toList with
  | error e => simp [Except.map]
  | ok placed =>
      dsimp only
      cases placed.mapM (PlacedLine.render indent) <;> simp [Except.map]

theorem contentLines_unlines {lines : List (List Char)}
    (h : ∀ line ∈ lines, Text.IsUnbroken line ∧ (Text.trim line).isEmpty = line.isEmpty) :
    contentLines (unlines (squeezeBlank (lines.dropWhile (·.isEmpty)))) =
      lines.filter (!·.isEmpty) := by
  have hmem (line : List Char) (hline : line ∈ squeezeBlank (lines.dropWhile (·.isEmpty))) :=
    h line ((List.dropWhile_sublist _).mem ((squeezeBlank_sublist _).mem hline))
  have hsplit := Text.splitLines_unlines_append (fun line hline ↦ (hmem line hline).1) []
  rw [List.append_nil, Text.splitLines, List.append_nil] at hsplit
  rw [contentLines, hsplit, ← filter_dropWhile_isEmpty, ← filter_squeezeBlank]
  exact List.filter_congr fun line hline ↦ congrArg (!·) (hmem line hline).2

theorem contentLines_format {placed : List PlacedLine} {rendered : List (List Char)}
    (h : format indent source = .ok text) (hscan : scan source.toList = .ok placed)
    (hrendered : placed.mapM (PlacedLine.render indent) = .ok rendered) :
    contentLines text.toList = rendered.filter (!·.isEmpty) := by
  obtain ⟨placed', rendered', hscan', hrendered', htext⟩ := format_eq_ok_iff.1 h
  obtain rfl := Except.ok.inj (hscan'.symm.trans hscan)
  obtain rfl := Except.ok.inj (hrendered'.symm.trans hrendered)
  have hall := forall₂_rendered (State.texts_of_run (scan_eq_ok_iff.1 hscan)) hrendered
  rw [← htext]
  refine contentLines_unlines fun r hr ↦ ?_
  obtain ⟨l, hpair⟩ := exists_mem_zip_right hall.length_eq hr
  have hline := List.forall₂_zip hall hpair
  exact ⟨hline.1, hline.2.1⟩

end

end Typings.Layout
