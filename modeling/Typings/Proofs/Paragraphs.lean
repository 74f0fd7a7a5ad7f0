import Typings.Proofs.Rendering

/-!
# Paragraphs

A paragraph is a run of lines between blank ones. The scanner goes through a source as if there were
no blank lines, and then the paragraphs are shown with one blank line between them. So a layout
depends on the paragraphs of its source alone, not on the blank lines that keep them apart.
-/

namespace Typings.Layout

/-! ## Runs of items -/

section Runs

variable {α β : Type} {p : α → Bool} {x : α} {xs : List α}

/-- The runs of items between blank ones. -/
def paragraphs (blank : α → Bool) (xs : List α) : List (List α) :=
  (xs.splitOnP blank).filter (!·.isEmpty)

theorem paragraphs_append_cons (hx : p x = true) (xs ys : List α) :
    paragraphs p (xs ++ x :: ys) = paragraphs p xs ++ paragraphs p ys := by
  rw [paragraphs, List.splitOnP_append_cons xs ys hx, List.filter_append]
  rfl

theorem paragraphs_cons_of_pos (hx : p x = true) (xs : List α) :
    paragraphs p (x :: xs) = paragraphs p xs :=
  paragraphs_append_cons hx [] xs

theorem paragraphs_concat (hx : p x = true) (xs : List α) :
    paragraphs p (xs ++ [x]) = paragraphs p xs := by
  rw [paragraphs_append_cons hx]
  exact List.append_nil _

theorem paragraphs_of_forall_not (hne : xs ≠ []) (h : ∀ x ∈ xs, p x = false) :
    paragraphs p xs = [xs] := by
  rw [paragraphs, List.splitOnP_eq_singleton h]
  simp [hne]

theorem flatten_splitOnP (p : α → Bool) (xs : List α) :
    (xs.splitOnP p).flatten = xs.filter (!p ·) := by
  induction xs with
  | nil => simp
  | cons x xs ih =>
      obtain ⟨run, runs, hruns⟩ := List.exists_cons_of_ne_nil (List.splitOnP_ne_nil p xs)
      rw [hruns, List.flatten_cons] at ih
      rw [List.splitOnP_cons_eq_if_modifyHead, hruns, List.filter_cons, ← ih]
      cases p x <;> rfl

theorem flatten_paragraphs (p : α → Bool) (xs : List α) :
    (paragraphs p xs).flatten = xs.filter (!p ·) := by
  rw [paragraphs, List.flatten_filter_not_isEmpty, flatten_splitOnP]

theorem not_of_mem_splitOnP {run : List α} (h : run ∈ xs.splitOnP p) : ∀ x ∈ run, p x = false := by
  intro x hx
  have hmem : x ∈ (xs.splitOnP p).flatten := List.mem_flatten.2 ⟨run, h, hx⟩
  rw [flatten_splitOnP] at hmem
  simpa using (List.mem_filter.1 hmem).2

theorem of_mem_paragraphs {run : List α} (h : run ∈ paragraphs p xs) :
    run ≠ [] ∧ ∀ x ∈ run, p x = false := by
  obtain ⟨hrun, hne⟩ := List.mem_filter.1 h
  exact ⟨by simpa using hne, not_of_mem_splitOnP hrun⟩

theorem forall₂_filter {R : α → β → Prop} {q : β → Bool} {ys : List β}
    (h : List.Forall₂ R xs ys) (hR : ∀ x y, R x y → p x = q y) :
    List.Forall₂ R (xs.filter p) (ys.filter q) := by
  induction h with
  | nil => exact .nil
  | @cons x y xs ys hxy _ ih =>
      rw [List.filter_cons, List.filter_cons, hR x y hxy]
      split
      · exact .cons hxy ih
      · exact ih

theorem forall₂_of_common {γ : Type} {R : α → β → Prop} {S : α → γ → Prop} {T : β → γ → Prop}
    {ys : List β} {zs : List γ} (h : List.Forall₂ R xs ys) (h' : List.Forall₂ S xs zs)
    (hT : ∀ x y, ∀ z ∈ zs, R x y → S x z → T y z) : List.Forall₂ T ys zs := by
  induction h generalizing zs with
  | nil =>
      cases h'
      exact .nil
  | cons hxy _ ih =>
      cases h' with
      | cons hxz hrest =>
          refine .cons (hT _ _ _ List.mem_cons_self hxy hxz) (ih hrest fun x y z hz ↦ ?_)
          exact hT x y z (List.mem_cons_of_mem _ hz)

/-- Rows whose items correspond, blank ones to blank ones, have runs that correspond. -/
theorem forall₂_paragraphs {R : α → β → Prop} {q : β → Bool} {ys : List β}
    (h : List.Forall₂ R xs ys) (hR : ∀ x y, R x y → p x = q y) :
    List.Forall₂ (List.Forall₂ R) (paragraphs p xs) (paragraphs q ys) := by
  have hruns : List.Forall₂ (List.Forall₂ R) (xs.splitOnP p) (ys.splitOnP q) := by
    induction h with
    | nil =>
        rw [List.splitOnP_nil, List.splitOnP_nil]
        exact .cons .nil .nil
    | @cons x y xs ys hxy _ ih =>
        rw [List.splitOnP_cons_eq_if_modifyHead, List.splitOnP_cons_eq_if_modifyHead, hR x y hxy]
        split
        · exact .cons .nil ih
        · generalize xs.splitOnP p = runs at ih
          generalize ys.splitOnP q = runs' at ih
          cases ih with
          | nil => exact .nil
          | cons hrun hruns => exact .cons (.cons hxy hrun) hruns
  refine forall₂_filter hruns fun run run' hrun ↦ ?_
  cases hrun <;> rfl

/-- Runs with a blank item between them are found again. -/
theorem paragraphs_intercalate (hx : p x = true) {runs : List (List α)}
    (h : ∀ run ∈ runs, run ≠ [] ∧ ∀ y ∈ run, p y = false) :
    paragraphs p ([x].intercalate runs) = runs := by
  induction runs with
  | nil => rfl
  | cons run runs ih =>
      obtain ⟨⟨hne, hrun⟩, hruns⟩ := List.forall_mem_cons.1 h
      by_cases hnil : runs = []
      · subst hnil
        rw [List.intercalate_singleton, paragraphs_of_forall_not hne hrun]
      · rw [List.intercalate_cons_of_ne_nil hnil, List.append_assoc, List.singleton_append,
          paragraphs_append_cons hx, paragraphs_of_forall_not hne hrun, ih hruns,
          List.singleton_append]

end Runs

/-! ## Squeezed lines -/

theorem squeezeBlank_eq_intercalate {lines run : List (List Char)}
    {runs : List (List (List Char))} (h : lines.splitOnP List.isEmpty = run :: runs) :
    squeezeBlank lines = [[]].intercalate (run :: runs.filter (!·.isEmpty)) := by
  induction lines generalizing run runs with
  | nil =>
      obtain ⟨rfl, rfl⟩ := List.cons_eq_cons.1 h
      rfl
  | cons line lines ih =>
      obtain ⟨run', runs', hruns⟩ :=
        List.exists_cons_of_ne_nil (List.splitOnP_ne_nil List.isEmpty lines)
      have ih' := ih hruns
      rw [List.splitOnP_cons_eq_if_modifyHead, hruns] at h
      cases line with
      | nil =>
          obtain ⟨rfl, rfl⟩ := List.cons_eq_cons.1 h
          rw [squeezeBlank_nil_cons, ih']
          cases run' with
          | nil =>
              -- The blank line meets another one, or the end.
              have hskip : ([] :: runs').filter (!·.isEmpty) = runs'.filter (!·.isEmpty) := rfl
              rw [hskip]
              cases runs'.filter (!·.isEmpty) <;> rfl
          | cons first rest =>
              have hmem : first :: rest ∈ lines.splitOnP List.isEmpty := by simp [hruns]
              have hfirst := not_of_mem_splitOnP hmem first List.mem_cons_self
              have hkeep : ((first :: rest) :: runs').filter (!·.isEmpty) =
                  (first :: rest) :: runs'.filter (!·.isEmpty) := rfl
              rw [hkeep, List.intercalate_cons_cons_left, List.headD_cons,
                if_neg (List.isEmpty_eq_false_iff.1 hfirst), List.intercalate_cons_cons,
                List.intercalate_cons_cons_left]
              rfl
      | cons c cs =>
          obtain ⟨rfl, rfl⟩ := List.cons_eq_cons.1 h
          rw [squeezeBlank_of_ne_nil (List.cons_ne_nil c cs), ih', List.intercalate_cons_cons_left]

/-- What is left of blank lines stands between paragraphs, one in each place. -/
theorem squeezeBlank_dropWhile (lines : List (List Char)) :
    squeezeBlank (lines.dropWhile (·.isEmpty)) =
      [[]].intercalate (paragraphs List.isEmpty lines) := by
  induction lines with
  | nil => rfl
  | cons line lines ih =>
      cases line with
      | nil =>
          rw [paragraphs_cons_of_pos rfl, ← ih]
          rfl
      | cons c cs =>
          obtain ⟨run, runs, hruns⟩ :=
            List.exists_cons_of_ne_nil (List.splitOnP_ne_nil List.isEmpty lines)
          have hsplit : ((c :: cs) :: lines).splitOnP List.isEmpty =
              ((c :: cs) :: run) :: runs := by
            rw [List.splitOnP_cons_eq_if_modifyHead, hruns]
            rfl
          rw [List.dropWhile_cons_of_neg (by simp), squeezeBlank_eq_intercalate hsplit, paragraphs,
            hsplit]
          rfl

/-! ## Scanning without blank lines -/

namespace State

variable {s s' : State} {text : List Char}

theorem step_nil (h : s.mode.afterLine = s.mode) : s.step [] = some s := by
  obtain ⟨mode, stack⟩ := s
  cases mode with
  | string quote => cases h
  | _ => rfl

theorem afterLine_of_step (h : s.step text = some s') : s'.mode.afterLine = s'.mode := by
  rw [step] at h
  split at h
  · cases h
  · next lexemes mode hstring hlex =>
    obtain ⟨inner, -, rfl⟩ := Option.map_eq_some_iff.1 h
    cases mode with
    | string quote => exact (hstring _ rfl).elim
    | _ => rfl

/-- Blank lines take the scanner nowhere. -/
theorem run_filter (h : s.mode.afterLine = s.mode) (texts : List (List Char)) :
    s.run (texts.filter (!·.isEmpty)) =
      (s.run texts).map fun p ↦ (p.1.filter (!·.text.isEmpty), p.2) := by
  induction texts generalizing s with
  | nil => rfl
  | cons text texts ih =>
      cases text with
      | nil =>
          have hfilter : ([] :: texts).filter (!·.isEmpty) = texts.filter (!·.isEmpty) := rfl
          rw [hfilter, ih h, run, step_nil h, Option.bind_some, Option.map_map]
          rfl
      | cons c cs =>
          have hfilter : ((c :: cs) :: texts).filter (!·.isEmpty) =
              (c :: cs) :: texts.filter (!·.isEmpty) := rfl
          rw [hfilter, run, run]
          cases hstep : s.step (c :: cs) with
          | none => rfl
          | some next =>
              rw [Option.bind_some, Option.bind_some, ih (afterLine_of_step hstep),
                Option.map_map, Option.map_map]
              rfl

end State

/-! ## The layout of paragraphs -/

/-- The paragraphs of a source, their lines without the blanks around them. -/
def sourceParagraphs (source : String) : List (List (List Char)) :=
  paragraphs List.isEmpty (sourceTexts source.toList)

/-- The lines of some paragraphs are accepted one after the other and rendered as they are shown. -/
def ShownAs (indent : Option Int) (texts shown : List (List (List Char))) : Prop :=
  ∃ blocks : List (List PlacedLine),
    List.Forall₂ (List.Forall₂ fun l text ↦ l.text = text) blocks texts ∧
      State.start.run texts.flatten = some (blocks.flatten, .start) ∧
        List.Forall₂ (List.Forall₂ fun l line ↦ l.render indent = .ok line) blocks shown

section

variable {indent : Option Int} {source text : String}

theorem forall₂_text_of_run {s s' : State} {texts : List (List Char)} {placed : List PlacedLine}
    (h : s.run texts = some (placed, s')) :
    List.Forall₂ (fun l text ↦ l.text = text) placed texts := by
  rw [← State.texts_of_run h, List.forall₂_map_right_iff, List.forall₂_same]
  exact fun _ _ ↦ rfl

theorem forall₂_text_paragraphs {placed : List PlacedLine} {texts : List (List Char)}
    (h : List.Forall₂ (fun l text ↦ l.text = text) placed texts) :
    List.Forall₂ (List.Forall₂ fun l text ↦ l.text = text)
      (paragraphs (·.text.isEmpty) placed) (paragraphs List.isEmpty texts) :=
  forall₂_paragraphs h fun _ _ htext ↦ congrArg List.isEmpty htext

theorem forall₂_render_paragraphs {placed : List PlacedLine} {rendered : List (List Char)}
    (h : placed.mapM (PlacedLine.render indent) = .ok rendered) :
    List.Forall₂ (List.Forall₂ fun l line ↦ l.render indent = .ok line)
      (paragraphs (·.text.isEmpty) placed) (paragraphs List.isEmpty rendered) :=
  forall₂_paragraphs (mapM_eq_ok_iff.1 h) fun _ _ hr ↦ (PlacedLine.isEmpty_of_render hr).symm

/-- Rows of rows of the same shape and with the same items are the same. -/
theorem eq_of_forall₂_text {blocks blocks' : List (List PlacedLine)}
    {texts : List (List (List Char))}
    (h : List.Forall₂ (List.Forall₂ fun l text ↦ l.text = text) blocks texts)
    (h' : List.Forall₂ (List.Forall₂ fun l text ↦ l.text = text) blocks' texts)
    (hflatten : blocks.flatten = blocks'.flatten) : blocks = blocks' := by
  have hlength {bs : List (List PlacedLine)}
      (hbs : List.Forall₂ (List.Forall₂ fun l text ↦ l.text = text) bs texts) :
      bs.map List.length = texts.map List.length := by
    rw [← List.forall₂_eq_eq_eq, List.forall₂_map_left_iff, List.forall₂_map_right_iff]
    exact hbs.imp fun _ _ hrow ↦ hrow.length_eq
  exact List.eq_iff_flatten_eq.2 ⟨hflatten, (hlength h).trans (hlength h').symm⟩

theorem shownAs_of_format (h : format indent source = .ok text) :
    ∃ shown, ShownAs indent (sourceParagraphs source) shown ∧
      unlines ([[]].intercalate shown) = text.toList := by
  obtain ⟨placed, rendered, hscan, hrendered, htext⟩ := format_eq_ok_iff.1 h
  have hrun := scan_eq_ok_iff.1 hscan
  refine ⟨paragraphs List.isEmpty rendered, ⟨paragraphs (·.text.isEmpty) placed,
    forall₂_text_paragraphs (forall₂_text_of_run hrun), ?_,
      forall₂_render_paragraphs hrendered⟩, ?_⟩
  · rw [sourceParagraphs, flatten_paragraphs, flatten_paragraphs, State.run_filter rfl, hrun]
    rfl
  · rw [← squeezeBlank_dropWhile, htext]

theorem format_of_shownAs {shown : List (List (List Char))}
    (h : ShownAs indent (sourceParagraphs source) shown) :
    format indent source = .ok (String.ofList (unlines ([[]].intercalate shown))) := by
  obtain ⟨blocks, htexts, hrun, hshown⟩ := h
  rw [sourceParagraphs, flatten_paragraphs, State.run_filter rfl] at hrun
  obtain ⟨⟨placed, final⟩, hplaced, hpair⟩ := Option.map_eq_some_iff.1 hrun
  obtain ⟨hfilter, rfl⟩ := Prod.mk.inj hpair
  have htexts' := forall₂_text_paragraphs (forall₂_text_of_run hplaced)
  rw [← flatten_paragraphs] at hfilter
  obtain rfl := eq_of_forall₂_text htexts' htexts hfilter
  have hrender : ∀ l ∈ placed, ∃ line, l.render indent = .ok line := by
    intro l hl
    by_cases hblank : l.text = []
    · exact ⟨[], by rw [PlacedLine.render, hblank]⟩
    · have hmem : l ∈ (paragraphs (·.text.isEmpty) placed).flatten := by
        rw [flatten_paragraphs]
        exact List.mem_filter.2 ⟨hl, by simpa using hblank⟩
      obtain ⟨block, hblock, hl⟩ := List.mem_flatten.1 hmem
      obtain ⟨lines, hpair⟩ := exists_mem_zip_left hshown.length_eq hblock
      have hlines := List.forall₂_zip hshown hpair
      obtain ⟨line, hpair⟩ := exists_mem_zip_left hlines.length_eq hl
      exact ⟨line, List.forall₂_zip hlines hpair⟩
  obtain ⟨rendered, hrendered⟩ := exists_mapM_eq_ok_iff.2 hrender
  have hline : Relator.RightUnique fun (l : PlacedLine) line ↦ l.render indent = .ok line :=
    fun _ _ _ hx hy ↦ Except.ok.inj (hx.symm.trans hy)
  have hlines : Relator.RightUnique
      (List.Forall₂ fun (l : PlacedLine) line ↦ l.render indent = .ok line) :=
    fun _ _ _ hx hy ↦ List.right_unique_forall₂' hline hx hy
  obtain rfl := List.right_unique_forall₂' hlines (forall₂_render_paragraphs hrendered) hshown
  rw [format_eq_ok_iff]
  refine ⟨placed, rendered, scan_eq_ok_iff.2 hplaced, hrendered, ?_⟩
  rw [squeezeBlank_dropWhile, String.toList_ofList]

/-- A source is laid out by its paragraphs, with one blank line between them. -/
theorem format_eq_ok_iff_shownAs :
    format indent source = .ok text ↔ ∃ shown, ShownAs indent (sourceParagraphs source) shown ∧
      unlines ([[]].intercalate shown) = text.toList := by
  refine ⟨shownAs_of_format, ?_⟩
  rintro ⟨shown, hshown, htext⟩
  rw [format_of_shownAs hshown, htext, String.ofList_toList]

end

end Typings.Layout
