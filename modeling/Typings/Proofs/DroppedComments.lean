import Typings.Proofs.CommentedSource

/-!
# Deleting comments

A source with comments is laid out like the code alone, with the lines of the comments in between.
So what is left when these are deleted is the layout of the code.
-/

namespace Typings.Layout

open Comment Text

/-! ## Deletion -/

/-- The lines that are left when comments are deleted, each from a line `/**` to the next line `*/`,
blanks aside. A comment may be open at the start. -/
def dropComments : Bool → List (List Char) → List (List Char)
  | _, [] => []
  | true, line :: rest => dropComments (trim line != "*/".toList) rest
  | false, line :: rest =>
    if trim line = "/**".toList then dropComments true rest else line :: dropComments false rest

/-- A text without the lines of its comments. -/
def withoutComments (text : String) : String :=
  String.ofList (['\n'].intercalate (dropComments false (text.toList.splitOn '\n')))

/-! ## Rendering the lines -/

/-- The lines of a comment behind a margin before a line that is not empty, or none. -/
def RenderedBlock (block : List (List Char)) (line : List Char) : Prop :=
  '/' ∉ line ∧ (block = [] ∨ line ≠ [] ∧ ∃ (note : Note) (margin : List Char),
    (∀ c ∈ margin, isBlank c = true) ∧ block = note.laidOut.map (margin ++ ·))

section

variable {indent : Option Int} {l : PlacedLine} {margin rendered : List Char}

theorem isBlank_of_marginAt {depth : Nat} (h : marginAt indent depth = .ok margin) :
    ∀ c ∈ margin, isBlank c = true := by
  cases indent with
  | none => cases h
  | some width =>
      rw [eq_replicate_of_margin h]
      intro c hc
      rw [(List.mem_replicate.1 hc).2]
      rfl

theorem notMem_of_forall_isBlank {c : Char} (hc : isBlank c = false)
    (h : ∀ d ∈ margin, isBlank d = true) : c ∉ margin := by
  intro hmem
  cases hc.symm.trans (h c hmem)

theorem PlacedLine.slash_notMem_shown (htext : '/' ∉ l.text) {depth : Nat}
    (hmargin : marginAt indent depth = .ok margin) : '/' ∉ margin ++ l.shown := by
  rw [List.mem_append, not_or]
  refine ⟨notMem_of_forall_isBlank rfl (isBlank_of_marginAt hmargin), ?_⟩
  rw [shown]
  split
  · simpa using htext
  · exact htext

theorem PlacedLine.slash_notMem_render (htext : '/' ∉ l.text)
    (h : l.render indent = .ok rendered) : '/' ∉ rendered := by
  by_cases hl : l.text = []
  · rw [render, hl] at h
    obtain rfl := Except.ok.inj h
    exact List.not_mem_nil
  · rw [render_of_ne_nil hl, margin_eq] at h
    cases hmargin : marginAt indent l.depth with
    | error e =>
        rw [hmargin] at h
        cases h
    | ok margin =>
        rw [hmargin] at h
        obtain rfl := Except.ok.inj h
        exact slash_notMem_shown htext hmargin

/-- A comment has the margin of the line that it stands before, so it fails or not with it. -/
theorem agree_render (indent : Option Int) {ps qs : List PlacedLine}
    (h : Interleaved PlacedBlock ps qs) :
    Agree Eq (Interleaved RenderedBlock) (ps.mapM (PlacedLine.render indent))
      (qs.mapM (PlacedLine.render indent)) := by
  induction h with
  | nil => exact .ok .nil
  | @cons block l ps qs hl _ ih =>
      obtain ⟨hslash, rfl | ⟨note, rfl, htext⟩⟩ := hl
      · rw [List.nil_append, List.mapM_cons, List.mapM_cons]
        cases hrender : l.render indent with
        | error e => exact .error rfl
        | ok line =>
            refine ih.bind fun lines lines' hlines ↦ .ok ?_
            exact .cons ⟨PlacedLine.slash_notMem_render hslash hrender, .inl rfl⟩ hlines
      · rw [List.mapM_append, mapM_render_placedComment, List.mapM_cons, List.mapM_cons,
          PlacedLine.render_of_ne_nil htext, PlacedLine.margin_eq]
        cases hmargin : marginAt indent l.depth with
        | error e => exact .error rfl
        | ok margin =>
            change Agree Eq _ ((ps.mapM _ >>= fun lines ↦ pure ((margin ++ l.shown) :: lines)) >>=
              fun lines ↦ pure (note.laidOut.map (margin ++ ·) ++ lines)) _
            rw [bind_assoc]
            refine ih.bind fun lines lines' hlines ↦ .ok ?_
            -- Behind its margin the line is not empty either.
            have hne : margin ++ l.shown ≠ [] := by
              intro hnil
              obtain ⟨c, rest, hc⟩ := List.exists_cons_of_ne_nil htext
              have hmem : c ∈ l.shown := l.text_subset_shown (hc ▸ List.mem_cons_self)
              rw [(List.append_eq_nil_iff.1 hnil).2] at hmem
              cases hmem
            refine .cons ⟨PlacedLine.slash_notMem_shown hslash hmargin, .inr ⟨hne, ?_⟩⟩ hlines
            exact ⟨note, margin, isBlank_of_marginAt hmargin, rfl⟩

end

/-! ## Deleting the comments -/

section

variable {note : Note} {margin : List Char} {xs ys : List (List Char)}

theorem dropComments_inside {block : List (List Char)}
    (h : ∀ line ∈ block, trim line ≠ "*/".toList) (rest : List (List Char)) :
    dropComments true (block ++ rest) = dropComments true rest := by
  induction block with
  | nil => rfl
  | cons line block ih =>
      obtain ⟨hline, hblock⟩ := List.forall_mem_cons.1 h
      rw [List.cons_append, dropComments, bne_iff_ne.2 hline, ih hblock]

theorem dropComments_laidOut (hmargin : ∀ c ∈ margin, isBlank c = true)
    (rest : List (List Char)) :
    dropComments false (note.laidOut.map (margin ++ ·) ++ rest) = dropComments false rest := by
  have hopen : trim (margin ++ "/**".toList) = "/**".toList :=
    trim_append_of_forall_isBlank hmargin _
  have hclose : (trim (margin ++ " */".toList) != "*/".toList) = false := by
    rw [trim_append_of_forall_isBlank hmargin]
    decide
  rw [Note.laidOut, List.cons_append, List.map_cons, List.cons_append, dropComments, if_pos hopen,
    List.map_append, List.append_assoc, dropComments_inside, List.map_singleton,
    List.singleton_append, dropComments, hclose]
  intro line hline htrim
  obtain ⟨shown, hshown, rfl⟩ := List.mem_map.1 hline
  have hlaid : shown ∈ note.laidOut.dropLast := by
    rw [Note.laidOut, List.dropLast_concat]
    exact List.mem_cons_of_mem _ hshown
  have hbody := not_holdsEnd_of_mem_laidOut hlaid
  apply not_holdsEnd_append (notMem_of_forall_isBlank rfl hmargin) hbody
  have hinfix := infix_trim (margin ++ shown)
  rw [htrim] at hinfix
  exact hinfix

theorem ne_nil_of_mem_margin_laidOut {line : List Char}
    (h : line ∈ note.laidOut.map (margin ++ ·)) : line ≠ [] := by
  obtain ⟨shown, hshown, rfl⟩ := List.mem_map.1 h
  exact List.append_ne_nil_of_right_ne_nil _ (ne_nil_of_mem_laidOut hshown)

theorem dropComments_append (h : Interleaved RenderedBlock xs ys) (rest : List (List Char)) :
    dropComments false (xs ++ rest) = ys ++ dropComments false rest := by
  induction h with
  | nil => rfl
  | @cons block line xs ys hline _ ih =>
      obtain ⟨hslash, hblock⟩ := hline
      -- A line of code holds no slash, so no deletion begins with it.
      have hcode : trim line ≠ "/**".toList := by
        intro htrim
        apply notMem_trim hslash
        rw [htrim]
        exact List.mem_cons_self
      have hrest : dropComments false (line :: xs ++ rest) =
          line :: ys ++ dropComments false rest := by
        rw [List.cons_append, dropComments, if_neg hcode, ih, List.cons_append]
      rw [List.append_assoc]
      rcases hblock with rfl | ⟨-, note, margin, hmargin, rfl⟩
      · exact hrest
      · rw [dropComments_laidOut hmargin, hrest]

theorem Interleaved.dropWhile_isEmpty (h : Interleaved RenderedBlock xs ys) :
    Interleaved RenderedBlock (xs.dropWhile (·.isEmpty)) (ys.dropWhile (·.isEmpty)) := by
  induction h with
  | nil => exact .nil
  | @cons block line xs ys hline h ih =>
      have hkeep := Interleaved.cons hline h
      obtain ⟨hslash, rfl | ⟨hne, note, margin, hmargin, rfl⟩⟩ := hline
      · cases line with
        | nil => exact ih
        | cons c cs => exact hkeep
      · rw [List.dropWhile_cons_of_neg (by simpa using hne)]
        rw [Note.laidOut, List.cons_append, List.map_cons, List.cons_append,
          List.dropWhile_cons_of_neg (by simp)]
        exact hkeep

theorem squeezeBlank_append {block : List (List Char)} (h : ∀ line ∈ block, line ≠ [])
    (rest : List (List Char)) : squeezeBlank (block ++ rest) = block ++ squeezeBlank rest := by
  induction block with
  | nil => rfl
  | cons line block ih =>
      obtain ⟨hline, hblock⟩ := List.forall_mem_cons.1 h
      rw [List.cons_append, squeezeBlank_of_ne_nil hline, ih hblock, List.cons_append]

theorem Interleaved.headD_eq_nil_iff (h : Interleaved RenderedBlock xs ys) :
    xs.headD [] = [] ↔ ys.headD [] = [] := by
  cases h with
  | nil => exact Iff.rfl
  | cons hline _ =>
      obtain ⟨-, rfl | ⟨hne, note, margin, -, rfl⟩⟩ := hline
      · exact Iff.rfl
      · simp [Note.laidOut, hne]

theorem Interleaved.squeezeBlank (h : Interleaved RenderedBlock xs ys) :
    Interleaved RenderedBlock (squeezeBlank xs) (squeezeBlank ys) := by
  induction h with
  | nil => exact .nil
  | @cons block line xs ys hline _ ih =>
      have hblock : ∀ line ∈ block, line ≠ [] := by
        obtain ⟨-, rfl | ⟨-, note, margin, -, rfl⟩⟩ := hline
        · exact List.forall_mem_nil _
        · exact fun line ↦ ne_nil_of_mem_margin_laidOut
      rw [squeezeBlank_append hblock]
      by_cases hne : line = []
      · -- No comment stands before a blank line.
        subst hne
        obtain ⟨-, rfl | ⟨hnil, -⟩⟩ := hline
        · rw [squeezeBlank_nil_cons, squeezeBlank_nil_cons, List.nil_append]
          by_cases hhead : (Layout.squeezeBlank xs).headD [] = []
          · rw [if_pos hhead, if_pos (ih.headD_eq_nil_iff.1 hhead)]
            exact ih
          · rw [if_neg hhead, if_neg (mt ih.headD_eq_nil_iff.2 hhead)]
            exact .cons ⟨List.not_mem_nil, .inl rfl⟩ ih
        · exact (hnil rfl).elim
      · rw [squeezeBlank_of_ne_nil hne, squeezeBlank_of_ne_nil hne]
        exact .cons hline ih

end

theorem splitOn_unlines {lines : List (List Char)} (h : ∀ line ∈ lines, IsUnbroken line) :
    (unlines lines).splitOn '\n' = lines ++ [[]] := by
  have hjoin := intercalate_concat lines []
  rw [List.append_nil] at hjoin
  rw [← hjoin, List.splitOn_intercalate]
  · intro line hline hmem
    rcases List.mem_append.1 hline with hline | hline
    · cases h line hline _ hmem
    · rw [List.mem_singleton.1 hline] at hmem
      cases hmem
  · simp

theorem isUnbroken_of_mem_squeezeBlank {source : List Char} {placed : List PlacedLine}
    {indent : Option Int} {rendered : List (List Char)} (hscan : scan source = .ok placed)
    (hrendered : placed.mapM (PlacedLine.render indent) = .ok rendered) :
    ∀ line ∈ squeezeBlank (rendered.dropWhile (·.isEmpty)), IsUnbroken line := by
  have hall := forall₂_rendered (State.texts_of_run (scan_eq_ok_iff.1 hscan)) hrendered
  intro line hline
  have hmem := (List.dropWhile_sublist _).mem ((squeezeBlank_sublist _).mem hline)
  obtain ⟨l, hpair⟩ := exists_mem_zip_right hall.length_eq hmem
  exact (List.forall₂_zip hall hpair).1

/-- A text with comments is laid out like the one without them, which is what is left when they are
deleted, or fails like it. -/
theorem Commented.agree_format {source plain : String}
    (h : Commented ('\n' :: source.toList) ('\n' :: plain.toList))
    (hplain : ∃ placed, scan plain.toList = .ok placed) (indent : Option Int) :
    Agree Eq (fun text text' ↦ withoutComments text = text') (format indent source)
      (format indent plain) := by
  obtain ⟨placed, hscan⟩ := hplain
  obtain ⟨placed', hrun', hplaced⟩ :=
    exists_run_of_interleaved h.interleaved_sourceTexts (scan_eq_ok_iff.1 hscan)
  have hscan' : scan source.toList = .ok placed' := scan_eq_ok_iff.2 hrun'
  have hrendered := agree_render indent hplaced
  rw [format, format, formatChars, formatChars, hscan, hscan']
  dsimp only
  generalize hx : placed'.mapM (PlacedLine.render indent) = x at hrendered
  generalize hy : placed.mapM (PlacedLine.render indent) = y at hrendered
  cases hrendered with
  | error he => exact .error (congrArg LayoutError.margin he)
  | @ok lines lines' hlines =>
      refine .ok ?_
      have hunbroken := isUnbroken_of_mem_squeezeBlank hscan' hx
      have hdrop := dropComments_append hlines.dropWhile_isEmpty.squeezeBlank [[]]
      have hlast : dropComments false [[]] = [[]] := rfl
      rw [withoutComments, String.toList_ofList, splitOn_unlines hunbroken, hdrop, hlast,
        intercalate_concat, List.append_nil]

end Typings.Layout
