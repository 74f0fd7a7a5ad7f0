import Typings.Proofs.CommentLines
import Typings.Proofs.Rendering

/-!
# Comments in laid out sources

Whatever the texts of a comment hold, its lines lead the scanner from code into a comment and back
to code, with the same brackets open. So a comment can be put before any line of code without a
change to how the lines around it are laid out.
-/

namespace Typings.Layout

open Comment

/-! ## Scanning a comment -/

theorem lex_of_not_holdsEnd {number opened : Nat} {cs : List Char} (h : ¬ HoldsEnd cs) :
    lex number (.comment opened) cs = (List.replicate cs.length .solid, .comment opened) := by
  induction cs with
  | nil => rfl
  | cons c cs ih =>
      rw [holdsEnd_cons, not_or] at h
      rw [lex, ih h.2]
      · rfl
      · rintro rest rfl rfl
        exact h.1 ⟨rfl, rfl⟩

theorem foldlM_nest_solid (stack : List Bracket) (n : Nat) :
    (List.replicate n Lexeme.solid).foldlM nest stack = some stack := by
  induction n with
  | zero => rfl
  | succ n ih => rw [List.replicate_succ, List.foldlM_cons]; exact ih

theorem run_of_not_holdsEnd {texts : List (List Char)} (h : ∀ text ∈ texts, ¬ HoldsEnd text)
    (stack : List Bracket) :
    (State.mk (.comment 0) stack).run texts =
      some (texts.map (⟨·, stack.length, true⟩), ⟨.comment 0, stack⟩) := by
  induction texts with
  | nil => rfl
  | cons text rest ih =>
      obtain ⟨htext, hrest⟩ := List.forall_mem_cons.1 h
      have hlex : lex 0 (.comment 0) text = _ := lex_of_not_holdsEnd htext
      have hstep : (State.mk (.comment 0) stack).step text = some ⟨.comment 0, stack⟩ := by
        rw [State.step, hlex]
        dsimp only
        rw [foldlM_nest_solid]
        rfl
      have hplace : (State.mk (.comment 0) stack).place text = ⟨text, stack.length, true⟩ := by
        rw [State.place, hlex]
        cases text <;> rfl
      rw [State.run, hstep, Option.bind_some, ih hrest, hplace]
      rfl

/-- The lines of a comment, where brackets are open to some depth. -/
def placedComment (note : Note) (depth : Nat) : List PlacedLine :=
  ⟨"/**".toList, depth, false⟩ :: note.starredLines.map (⟨·, depth, true⟩) ++
    [⟨"*/".toList, depth, true⟩]

theorem run_comment (note : Note) (stack : List Bracket) :
    (State.mk .code stack).run ("/**".toList :: note.starredLines ++ ["*/".toList]) =
      some (placedComment note stack.length, ⟨.code, stack⟩) := by
  have hopen : (State.mk .code stack).step "/**".toList = some ⟨.comment 0, stack⟩ := rfl
  have hclose : (State.mk (.comment 0) stack).run ["*/".toList] =
      some ([⟨"*/".toList, stack.length, true⟩], ⟨.code, stack⟩) := rfl
  have hstarred := run_of_not_holdsEnd (fun _ ↦ note.not_holdsEnd_of_mem_starredLines) stack
  rw [List.cons_append, State.run, hopen, Option.bind_some, State.run_append, hstarred,
    Option.bind_some, hclose, Option.map_some, Option.map_some]
  rfl

section

variable {pre : String} (post : String) {note : Note}

theorem scan_append_iff {rest : String} {placed : List PlacedLine}
    (hpre : pre = "" ∨ pre.toList.getLast? = some '\n') :
    scan (pre ++ rest).toList = .ok placed ↔
      ∃ p s q, State.start.run (sourceTexts pre.toList) = some (p, s) ∧
        s.run (sourceTexts rest.toList) = some (q, .start) ∧ p ++ q = placed := by
  have hpre' : pre.toList = [] ∨ pre.toList.getLast? = some '\n' := by simpa using hpre
  have htexts : sourceTexts (pre ++ rest).toList =
      sourceTexts pre.toList ++ sourceTexts rest.toList := by
    rw [sourceTexts, String.toList_append, Text.splitLines_append hpre', List.map_append]
    rfl
  rw [scan_eq_ok_iff, htexts, State.run_append]
  simp [Option.bind_eq_some_iff]

/-- A comment keeps the state of the scanner, and the lines after it stay where they are. -/
theorem run_attach (hnote : note.isEmpty = false) (stack : List Bracket) :
    (State.mk .code stack).run (sourceTexts (note.attach post).toList) =
      ((State.mk .code stack).run (sourceTexts post.toList)).map fun q ↦
        (placedComment note stack.length ++ q.1, q.2) := by
  rw [note.sourceTexts_attach hnote, State.run_append, run_comment, Option.bind_some]

variable (hpre : pre = "" ∨ pre.toList.getLast? = some '\n')
  (hmode : ∀ opened, endMode pre.toList ≠ .comment opened) (hnote : note.isEmpty = false)

include hpre hmode

theorem exists_of_scan_append {placed : List PlacedLine}
    (h : scan (pre ++ post).toList = .ok placed) :
    ∃ p q stack, p ++ q = placed ∧ p.map PlacedLine.text = sourceTexts pre.toList ∧
      openBrackets pre.toList = .ok stack := by
  obtain ⟨p, s, q, hp, -, rfl⟩ := (scan_append_iff hpre).1 h
  obtain ⟨stack, hstack, -⟩ := exists_openBrackets hp hmode
  exact ⟨p, q, stack, rfl, State.texts_of_run hp, hstack⟩

include hnote

/-- Where a text is accepted with a comment put in, it is accepted without it, and nothing but the
lines of the comment is put in. -/
theorem scan_attach_iff {placed : List PlacedLine} :
    scan (pre ++ note.attach post).toList = .ok placed ↔
      ∃ p q stack, scan (pre ++ post).toList = .ok (p ++ q) ∧
        p.map PlacedLine.text = sourceTexts pre.toList ∧ openBrackets pre.toList = .ok stack ∧
          p ++ placedComment note stack.length ++ q = placed := by
  simp only [scan_append_iff hpre]
  constructor
  · rintro ⟨p, s, q, hp, hq, rfl⟩
    obtain ⟨stack, hstack, rfl⟩ := exists_openBrackets hp hmode
    rw [run_attach post hnote] at hq
    obtain ⟨⟨q', final⟩, hq', hpair⟩ := Option.map_eq_some_iff.1 hq
    obtain ⟨rfl, rfl⟩ := Prod.mk.inj hpair
    refine ⟨p, q', stack, ⟨p, _, q', hp, hq', rfl⟩, State.texts_of_run hp, hstack, ?_⟩
    rw [List.append_assoc, List.length_map]
  · rintro ⟨p, q, stack, ⟨p', s, q', hp, hq, heq⟩, htexts, hstack, rfl⟩
    obtain ⟨stack', hstack', rfl⟩ := exists_openBrackets hp hmode
    obtain rfl := Except.ok.inj (hstack'.symm.trans hstack)
    -- Both rows of placed lines end with the last line of the text before the comment.
    have hlength : p'.length = p.length := by
      have htexts' := State.texts_of_run hp
      rw [← htexts] at htexts'
      simpa using congrArg List.length htexts'
    obtain ⟨rfl, rfl⟩ := List.append_inj heq hlength
    refine ⟨p', _, placedComment note stack'.length ++ q', hp, ?_, (List.append_assoc _ _ _).symm⟩
    rw [run_attach post hnote, hq, Option.map_some, List.length_map]

theorem exists_scan_attach_iff :
    (∃ placed, scan (pre ++ note.attach post).toList = .ok placed) ↔
      ∃ placed, scan (pre ++ post).toList = .ok placed := by
  constructor
  · rintro ⟨placed, h⟩
    obtain ⟨p, q, -, hplain, -⟩ := (scan_attach_iff post hpre hmode hnote).1 h
    exact ⟨p ++ q, hplain⟩
  · rintro ⟨placed, h⟩
    obtain ⟨p, q, stack, rfl, htexts, hstack⟩ := exists_of_scan_append post hpre hmode h
    exact ⟨_, (scan_attach_iff post hpre hmode hnote).2 ⟨p, q, stack, h, htexts, hstack, rfl⟩⟩

end

/-! ## Laying out a comment -/

/-- The margin of a line at some depth. -/
def marginAt (indent : Option Int) (depth : Nat) : Except Text.MarginError (List Char) :=
  match indent with
  | some width => Text.margin (width * depth)
  | none => .error .noWidth

theorem PlacedLine.margin_eq (indent : Option Int) (l : PlacedLine) :
    l.margin indent = marginAt indent l.depth := by
  cases indent <;> rfl

section

variable {indent : Option Int} {note : Note}

theorem text_and_depth_of_mem_placedComment {depth : Nat} {l : PlacedLine}
    (h : l ∈ placedComment note depth) : l.text ≠ [] ∧ l.depth = depth := by
  have hopen : "/**".toList ≠ [] := by decide
  have hclose : "*/".toList ≠ [] := by decide
  rcases List.mem_append.1 h with h | h
  · rcases List.mem_cons.1 h with rfl | h
    · exact ⟨hopen, rfl⟩
    · obtain ⟨line, hline, rfl⟩ := List.mem_map.1 h
      obtain ⟨spoken, -, rfl⟩ := List.mem_map.1 hline
      exact ⟨List.cons_ne_nil _ _, rfl⟩
  · rw [List.mem_singleton.1 h]
    exact ⟨hclose, rfl⟩

theorem render_placedComment {depth : Nat} {l : PlacedLine} (h : l ∈ placedComment note depth) :
    l.render indent = (marginAt indent depth).map (· ++ l.shown) := by
  obtain ⟨htext, hdepth⟩ := text_and_depth_of_mem_placedComment h
  rw [PlacedLine.render_of_ne_nil htext, PlacedLine.margin_eq, hdepth]

theorem shown_placedComment (note : Note) (depth : Nat) :
    (placedComment note depth).map PlacedLine.shown = note.laidOut := by
  have hstarred (line : List Char) :
      PlacedLine.shown ⟨'*' :: Text.dropEnd Text.isBlank (' ' :: line), depth, true⟩ =
        Text.dropEnd Text.isBlank (" * ".toList ++ line) := by
    have hstar : Text.dropEnd Text.isBlank ('*' :: ' ' :: line) =
        '*' :: Text.dropEnd Text.isBlank (' ' :: line) :=
      Text.dropEnd_cons_of_not (by decide)
    have hne : Text.dropEnd Text.isBlank ('*' :: ' ' :: line) ≠ [] := by
      rw [hstar]
      exact List.cons_ne_nil _ _
    change _ = Text.dropEnd Text.isBlank (' ' :: '*' :: ' ' :: line)
    rw [Text.dropEnd_cons_of_ne_nil hne, hstar]
    rfl
  rw [placedComment, Note.laidOut, Note.starredLines, List.map_append, List.map_cons, List.map_map,
    List.map_map]
  refine congrArg₂ (· ++ ·) (congrArg₂ (· :: ·) rfl ?_) rfl
  exact List.map_congr_left fun line _ ↦ hstarred line

theorem mapM_render_placedComment (note : Note) (depth : Nat) :
    (placedComment note depth).mapM (PlacedLine.render indent) =
      (marginAt indent depth).map fun margin ↦ note.laidOut.map (margin ++ ·) := by
  cases hmargin : marginAt indent depth with
  | error e =>
      have hmem : ⟨"/**".toList, depth, false⟩ ∈ placedComment note depth := List.mem_cons_self
      have hfirst : PlacedLine.render indent ⟨"/**".toList, depth, false⟩ = .error e := by
        rw [render_placedComment hmem, hmargin]
        rfl
      rw [placedComment, List.cons_append, List.mapM_cons, hfirst]
      rfl
  | ok margin =>
      have hall : (placedComment note depth).mapM (PlacedLine.render indent) =
          .ok ((placedComment note depth).map fun l ↦ margin ++ l.shown) :=
        mapM_eq_ok_map fun l hl ↦ by rw [render_placedComment hl, hmargin]; rfl
      have hlines : ((placedComment note depth).map fun l ↦ margin ++ l.shown) =
          note.laidOut.map (margin ++ ·) := by
        rw [← shown_placedComment note depth, List.map_map]
        rfl
      rw [hall, hlines]
      rfl

theorem mapM_render_placedComment_eq_ok_iff {depth : Nat} {rendered : List (List Char)} :
    (placedComment note depth).mapM (PlacedLine.render indent) = .ok rendered ↔
      ∃ margin, marginAt indent depth = .ok margin ∧
        note.laidOut.map (margin ++ ·) = rendered := by
  rw [mapM_render_placedComment]
  cases marginAt indent depth with
  | error e => simp [Except.map]
  | ok margin => simp [Except.map]

theorem mapM_render_attach {p q : List PlacedLine} {depth : Nat} {rendered : List (List Char)} :
    (p ++ placedComment note depth ++ q).mapM (PlacedLine.render indent) = .ok rendered ↔
      ∃ rp rq margin, p.mapM (PlacedLine.render indent) = .ok rp ∧
        q.mapM (PlacedLine.render indent) = .ok rq ∧ marginAt indent depth = .ok margin ∧
          rp ++ note.laidOut.map (margin ++ ·) ++ rq = rendered := by
  rw [mapM_append_eq_ok_iff]
  constructor
  · rintro ⟨front, rq, hfront, hq, rfl⟩
    obtain ⟨rp, rc, hp, hc, rfl⟩ := mapM_append_eq_ok_iff.1 hfront
    obtain ⟨margin, hmargin, rfl⟩ := mapM_render_placedComment_eq_ok_iff.1 hc
    exact ⟨rp, rq, margin, hp, hq, hmargin, rfl⟩
  · rintro ⟨rp, rq, margin, hp, hq, hmargin, rfl⟩
    have hc : (placedComment note depth).mapM (PlacedLine.render indent) =
        .ok (note.laidOut.map (margin ++ ·)) :=
      mapM_render_placedComment_eq_ok_iff.2 ⟨margin, hmargin, rfl⟩
    exact ⟨_, rq, mapM_append_eq_ok_iff.2 ⟨rp, _, hp, hc, rfl⟩, hq, rfl⟩

theorem not_holdsEnd_of_mem_laidOut {line : List Char} (h : line ∈ note.laidOut.dropLast) :
    ¬ HoldsEnd line := by
  rw [Note.laidOut, List.dropLast_concat] at h
  rcases List.mem_cons.1 h with rfl | h
  · have hopen : ¬ ['*', '/'] <:+: "/**".toList := by decide
    exact hopen
  · obtain ⟨spoken, hspoken, rfl⟩ := List.mem_map.1 h
    have hstarred : ¬ HoldsEnd (" * ".toList ++ spoken) := by
      simp [holdsEnd_cons, note.not_holdsEnd_of_mem_spokenLines hspoken]
    exact fun hend ↦ hstarred (hend.trans (Text.prefix_dropEnd _ _).isInfix)

theorem ne_nil_of_mem_laidOut {line : List Char} (h : line ∈ note.laidOut) : line ≠ [] := by
  rw [← shown_placedComment note 0] at h
  obtain ⟨l, hl, rfl⟩ := List.mem_map.1 h
  have htext := (text_and_depth_of_mem_placedComment hl).1
  rw [PlacedLine.shown]
  split
  · exact List.cons_ne_nil _ _
  · exact htext

end

/-! ## The layout of a source with a comment -/

section

variable {indent : Option Int} {pre : String} {post : String} {note : Note}
  (hpre : pre = "" ∨ pre.toList.getLast? = some '\n')
  (hmode : ∀ opened, endMode pre.toList ≠ .comment opened) (hnote : note.isEmpty = false)

include hpre hmode hnote

/-- The margin of the comment is all that can be at fault with it. -/
theorem exists_format_attach_iff :
    (∃ text, format indent (pre ++ note.attach post) = .ok text) ↔
      (∃ text, format indent (pre ++ post) = .ok text) ∧ ∃ stack margin,
        openBrackets pre.toList = .ok stack ∧ marginAt indent stack.length = .ok margin := by
  rw [exists_format_eq_ok_iff, exists_format_eq_ok_iff]
  constructor
  · rintro ⟨placed, rendered, h, hrendered⟩
    obtain ⟨p, q, stack, hplain, -, hstack, rfl⟩ := (scan_attach_iff post hpre hmode hnote).1 h
    obtain ⟨rp, rq, margin, hp, hq, hmargin, -⟩ := mapM_render_attach.1 hrendered
    have hrendered' := mapM_append_eq_ok_iff.2 ⟨rp, rq, hp, hq, rfl⟩
    exact ⟨⟨p ++ q, rp ++ rq, hplain, hrendered'⟩, stack, margin, hstack, hmargin⟩
  · rintro ⟨⟨placed, rendered, h, hrendered⟩, stack, margin, hstack, hmargin⟩
    obtain ⟨p, q, stack', rfl, htexts, hstack'⟩ := exists_of_scan_append post hpre hmode h
    obtain rfl := Except.ok.inj (hstack'.symm.trans hstack)
    obtain ⟨rp, rq, hp, hq, -⟩ := mapM_append_eq_ok_iff.1 hrendered
    have hattach := (scan_attach_iff post hpre hmode hnote).2 ⟨p, q, _, h, htexts, hstack, rfl⟩
    exact ⟨_, _, hattach, mapM_render_attach.2 ⟨rp, rq, margin, hp, hq, hmargin, rfl⟩⟩

/-- The lines of the comment are put between those of the two texts, and no other line changes. -/
theorem contentLines_attach {text text' : String}
    (h : format indent (pre ++ post) = .ok text)
    (h' : format indent (pre ++ note.attach post) = .ok text') :
    ∃ stack margin before after, openBrackets pre.toList = .ok stack ∧
      marginAt indent stack.length = .ok margin ∧
        before.length = (contentLines pre.toList).length ∧
        contentLines text.toList = before ++ after ∧
        contentLines text'.toList = before ++ note.laidOut.map (margin ++ ·) ++ after := by
  obtain ⟨placed, rendered, hattach, hrendered, -⟩ := format_eq_ok_iff.1 h'
  obtain ⟨p, q, stack, hplain, htexts, hstack, rfl⟩ :=
    (scan_attach_iff post hpre hmode hnote).1 hattach
  obtain ⟨rp, rq, margin, hp, hq, hmargin, rfl⟩ := mapM_render_attach.1 hrendered
  have hrendered' := mapM_append_eq_ok_iff.2 ⟨rp, rq, hp, hq, rfl⟩
  have hlaidOut : ∀ line ∈ note.laidOut.map (margin ++ ·), (!line.isEmpty) = true := by
    intro line hline
    obtain ⟨shown, hshown, rfl⟩ := List.mem_map.1 hline
    simp [ne_nil_of_mem_laidOut hshown]
  refine ⟨stack, margin, rp.filter (!·.isEmpty), rq.filter (!·.isEmpty), hstack, hmargin,
    length_filter_rendered htexts hp, ?_, ?_⟩
  · rw [contentLines_format h hplain hrendered', List.filter_append]
  · rw [contentLines_format h' hattach hrendered, List.filter_append, List.filter_append,
      List.filter_eq_self.2 hlaidOut]

end

/-- A comment before a text that begins a line of code changes neither whether the scanner refuses
the whole nor how any other line is laid out. -/
theorem format_attach (indent : Option Int) {pre : String} (post : String) {note : Note}
    (hpre : pre = "" ∨ pre.toList.getLast? = some '\n')
    (hmode : ∀ opened, endMode pre.toList ≠ .comment opened) (hnote : note.isEmpty = false) :
    ((∃ e, format indent (pre ++ note.attach post) = .error (.scan e)) ↔
      ∃ e, format indent (pre ++ post) = .error (.scan e)) ∧
    ((∃ text, format indent (pre ++ note.attach post) = .ok text) ↔
      (∃ text, format indent (pre ++ post) = .ok text) ∧ ∃ stack margin,
        openBrackets pre.toList = .ok stack ∧ marginAt indent stack.length = .ok margin) ∧
    (∀ text text', format indent (pre ++ post) = .ok text →
      format indent (pre ++ note.attach post) = .ok text' → ∃ stack margin before after,
        openBrackets pre.toList = .ok stack ∧ marginAt indent stack.length = .ok margin ∧
          before.length = (contentLines pre.toList).length ∧
          contentLines text.toList = before ++ after ∧
          contentLines text'.toList = before ++ note.laidOut.map (margin ++ ·) ++ after) ∧
    (∀ line ∈ note.laidOut.dropLast, ¬ HoldsEnd line) ∧ EscapesEnd escapeEnd := by
  refine ⟨?_, exists_format_attach_iff hpre hmode hnote,
    fun text text' h h' ↦ contentLines_attach hpre hmode hnote h h',
    fun line hline ↦ not_holdsEnd_of_mem_laidOut hline, escapesEnd_escapeEnd⟩
  rw [exists_format_eq_error_scan_iff, exists_format_eq_error_scan_iff, ← not_exists,
    ← not_exists, exists_scan_attach_iff post hpre hmode hnote]

def earlyEnd : Note := ⟨some "x */ y\n/z", none⟩

theorem earlyEnd_format_attach :
    format (some 2) ("\x7b\n" ++ "a: 1\n\x7d") = .ok "\x7b\n  a: 1\n\x7d\n" ∧
      format (some 2) ("\x7b\n" ++ earlyEnd.attach "a: 1\n\x7d") = .ok
        "\x7b\n  /**\n   * @remarks x *\\/ y\n   * /z\n   */\n  a: 1\n\x7d\n" ∧
      ∃ stack margin before after, openBrackets "\x7b\n".toList = .ok stack ∧
        marginAt (some 2) stack.length = .ok margin ∧
        before.length = (contentLines "\x7b\n".toList).length ∧
        contentLines "\x7b\n  a: 1\n\x7d\n".toList = before ++ after ∧
        contentLines "\x7b\n  /**\n   * @remarks x *\\/ y\n   * /z\n   */\n  a: 1\n\x7d\n".toList =
          before ++ earlyEnd.laidOut.map (margin ++ ·) ++ after := by
  have hplain : format (some 2) ("\x7b\n" ++ "a: 1\n\x7d") = .ok "\x7b\n  a: 1\n\x7d\n" := rfl
  have hcomment : format (some 2) ("\x7b\n" ++ earlyEnd.attach "a: 1\n\x7d") = .ok
      "\x7b\n  /**\n   * @remarks x *\\/ y\n   * /z\n   */\n  a: 1\n\x7d\n" := rfl
  have hcode : endMode "\x7b\n".toList = .code := rfl
  have hmode : ∀ opened, endMode "\x7b\n".toList ≠ .comment opened := by
    intro opened h
    cases hcode.symm.trans h
  obtain ⟨-, -, h, -⟩ :=
    @format_attach (some 2) "\x7b\n" "a: 1\n\x7d" earlyEnd (.inr rfl) hmode rfl
  exact ⟨hplain, hcomment, h _ _ hplain hcomment⟩

/-- A margin that is too wide for any line shows only where a comment is indented by it. -/
theorem wideMargin_format_attach :
    endMode "\x7b\n".toList = .code ∧
      format (some (-9223372036854775809)) ("\x7b\n" ++ "\x7d") = .ok "\x7b\n\x7d\n" ∧
      ∀ text, format (some (-9223372036854775809))
        ("\x7b\n" ++ (Note.mk (some "x") none).attach "\x7d") ≠ .ok text := by
  refine ⟨rfl, rfl, fun text h ↦ ?_⟩
  have hmargin : format (some (-9223372036854775809))
      ("\x7b\n" ++ (Note.mk (some "x") none).attach "\x7d") = .error (.margin .outOfRange) := rfl
  cases hmargin.symm.trans h

end Typings.Layout
