import Typings.Proofs.ClosedText

/-!
# Sources with comments

Comments are put before lines of code that hold no slash and begin with nothing that closes a
bracket. So the scanner is in code where they begin and as deep as at the line that they stand
before, and places every other line as it does without them.
-/

namespace Typings.Layout

open Comment Text

/-! ## Comments at the beginning of lines -/

/-- The first line of a text begins with something that is neither blank nor a mark. -/
def StartsPlain (cs : List Char) : Prop :=
  ∃ front rest, cs = front ++ rest ∧ (∀ c ∈ front, IsPlain c) ∧ ∃ c ∈ front, isBlank c = false

/-- A text without slashes that has comments put in, and that text: they stand at the beginning of
lines that are not blank. -/
inductive Commented : List Char → List Char → Prop
  | nil : Commented [] []
  | char {c : Char} {cs ds : List Char} (hslash : c ≠ '/')
      (hbreak : c = '\n' ∨ isLineBreak c = false) (h : Commented cs ds) :
      Commented (c :: cs) (c :: ds)
  | comment {note : Note} (hnote : note.isEmpty = false) {text : String} {ds : List Char}
      (hstart : StartsPlain text.toList) (h : Commented text.toList ds) :
      Commented ('\n' :: (note.attach text).toList) ('\n' :: ds)

/-- Two rows, of which the first has blocks put in before items of the second. -/
inductive Interleaved {α : Type} (Block : List α → α → Prop) : List α → List α → Prop
  | nil : Interleaved Block [] []
  | cons {block : List α} {x : α} {xs ys : List α} (hx : Block block x)
      (h : Interleaved Block xs ys) : Interleaved Block (block ++ x :: xs) (x :: ys)

/-- The lines of a comment before a line, or none. -/
def TextBlock (block : List (List Char)) (line : List Char) : Prop :=
  '/' ∉ line ∧ (block = [] ∨ ∃ note : Note,
    block = "/**".toList :: note.starredLines ++ ["*/".toList] ∧
      ∃ c rest, line = c :: rest ∧ IsPlain c ∧ isBlank c = false)

theorem notMem_trim {c : Char} {line : List Char} (h : c ∉ line) : c ∉ trim line :=
  fun hc ↦ h ((infix_trim line).subset hc)

theorem exists_trim_append {front : List Char} (h : ∃ c ∈ front, isBlank c = false)
    (more : List Char) : ∃ c rest, trim (front ++ more) = c :: rest ∧ c ∈ front ∧
      isBlank c = false := by
  induction front with
  | nil =>
      obtain ⟨c, hc, -⟩ := h
      cases hc
  | cons c front ih =>
      cases hblank : isBlank c with
      | false => exact ⟨c, _, trim_cons hblank _, List.mem_cons_self, hblank⟩
      | true =>
          have hrest : ∃ d ∈ front, isBlank d = false := by
            obtain ⟨d, hd, hd'⟩ := h
            rcases List.mem_cons.1 hd with rfl | hd
            · cases hblank.symm.trans hd'
            · exact ⟨d, hd, hd'⟩
          have htrim : trim (c :: (front ++ more)) = trim (front ++ more) :=
            trim_append_of_forall_isBlank (List.forall_mem_singleton.2 hblank) (front ++ more)
          obtain ⟨d, rest, heq, hd, hd'⟩ := ih hrest
          exact ⟨d, rest, htrim.trans heq, List.mem_cons_of_mem c hd, hd'⟩

theorem StartsPlain.exists_cons {cs : List Char} (h : StartsPlain cs) :
    ∃ c rest, trim ((splitLines cs).headD []) = c :: rest ∧ IsPlain c ∧ isBlank c = false := by
  obtain ⟨front, rest, rfl, hplain, hsolid⟩ := h
  have hne : front ≠ [] := by
    rintro rfl
    obtain ⟨c, hc, -⟩ := hsolid
    cases hc
  rw [splitLines_append_of_isUnbroken (fun c hc ↦ (hplain c hc).2) hne]
  obtain ⟨c, tail, heq, hc, hblank⟩ := exists_trim_append hsolid ((splitLines rest).headD [])
  exact ⟨c, tail, heq, hplain c hc, hblank⟩

theorem StartsPlain.append {cs : List Char} (h : StartsPlain cs) (ds : List Char) :
    StartsPlain (cs ++ ds) := by
  obtain ⟨front, rest, rfl, hfront⟩ := h
  exact ⟨front, rest ++ ds, List.append_assoc _ _ _, hfront⟩

theorem StartsPlain.ne_nil {cs : List Char} (h : StartsPlain cs) : cs ≠ [] := by
  rintro rfl
  obtain ⟨c, rest, heq, -⟩ := h.exists_cons
  cases heq

namespace Commented

variable {cs ds : List Char}

theorem append {cs' ds' : List Char} (h : Commented cs ds) (h' : Commented cs' ds') :
    Commented (cs ++ cs') (ds ++ ds') := by
  induction h with
  | nil => exact h'
  | char hslash hbreak _ ih => exact .char hslash hbreak ih
  | @comment note hnote text ds hstart _ ih =>
      -- What follows belongs to the text that the comment stands before.
      have hjoin : (note.attach text).toList ++ cs' =
          (note.attach (text ++ String.ofList cs')).toList := by
        simp [Note.attach_append]
      rw [List.cons_append, List.cons_append, hjoin]
      apply Commented.comment hnote
      · rw [String.toList_append]
        exact hstart.append _
      · rw [String.toList_append, String.toList_ofList]
        exact ih

theorem lineFeed (h : Commented cs ds) : Commented ('\n' :: cs) ('\n' :: ds) :=
  .char (by decide) (.inl rfl) h

theorem eq_nil_iff (h : Commented cs ds) : cs = [] ↔ ds = [] := by
  cases h with
  | nil => simp
  | char => simp
  | comment => simp

/-- A text that may have a comment put before it, on a line of its own. -/
theorem attach {text text' : String} (hstart : StartsPlain text.toList)
    (h : Commented text.toList text'.toList) (note : Note) :
    Commented ('\n' :: (note.attach text).toList) ('\n' :: text'.toList) := by
  cases hnote : note.isEmpty with
  | false => exact .comment hnote hstart h
  | true =>
      rw [Note.attach_of_isEmpty hnote]
      exact h.lineFeed

theorem sourceTexts_eq (hcs : cs ≠ []) :
    sourceTexts cs = trim ((splitLines cs).headD []) :: (splitLines cs).tail.map trim := by
  obtain ⟨line, lines, hlines⟩ := List.exists_cons_of_ne_nil (splitLines_ne_nil hcs)
  rw [sourceTexts, hlines]
  rfl

/-- The two texts begin with the same line, and after it comments stand between the same lines. -/
theorem interleaved (h : Commented cs ds) :
    (splitLines cs).headD [] = (splitLines ds).headD [] ∧ '/' ∉ (splitLines cs).headD [] ∧
      Interleaved TextBlock ((splitLines cs).tail.map trim) ((splitLines ds).tail.map trim) := by
  induction h with
  | nil => exact ⟨rfl, List.not_mem_nil, .nil⟩
  | @char c cs ds hslash hbreak h ih =>
      obtain ⟨hhead, hfirst, htail⟩ := ih
      rcases hbreak with rfl | hbreak
      · refine ⟨rfl, List.not_mem_nil, ?_⟩
        change Interleaved TextBlock (sourceTexts cs) (sourceTexts ds)
        by_cases hcs : cs = []
        · rw [hcs, h.eq_nil_iff.1 hcs]
          exact .nil
        · rw [sourceTexts_eq hcs, sourceTexts_eq (mt h.eq_nil_iff.2 hcs), ← hhead]
          exact .cons ⟨notMem_trim hfirst, .inl rfl⟩ htail
      · have hreturn (rest : List Char) : ∀ tail, c = '\r' → rest = '\n' :: tail → False := by
          rintro _ rfl
          cases hbreak
        rw [splitLines_cons (hreturn cs), splitLines_cons (hreturn ds), if_neg (by simp [hbreak]),
          if_neg (by simp [hbreak]), ← hhead]
        refine ⟨rfl, ?_, htail⟩
        exact List.mem_cons.not.2 (not_or.2 ⟨hslash.symm, hfirst⟩)
  | @comment note hnote text ds hstart h ih =>
      obtain ⟨hhead, hfirst, htail⟩ := ih
      refine ⟨rfl, List.not_mem_nil, ?_⟩
      change Interleaved TextBlock (sourceTexts (note.attach text).toList) (sourceTexts ds)
      rw [note.sourceTexts_attach hnote, sourceTexts_eq hstart.ne_nil,
        sourceTexts_eq (mt h.eq_nil_iff.2 hstart.ne_nil), ← hhead]
      exact .cons ⟨notMem_trim hfirst, .inr ⟨note, rfl, hstart.exists_cons⟩⟩ htail

theorem interleaved_sourceTexts (h : Commented ('\n' :: cs) ('\n' :: ds)) :
    Interleaved TextBlock (sourceTexts cs) (sourceTexts ds) :=
  h.interleaved.2.2

end Commented

/-! ## Placing the lines -/

/-- The placed lines of a comment at the depth of a line, or none. -/
def PlacedBlock (block : List PlacedLine) (l : PlacedLine) : Prop :=
  '/' ∉ l.text ∧ (block = [] ∨ ∃ note, block = placedComment note l.depth ∧ l.text ≠ [])

theorem code_ne_comment (opened : Nat) : Mode.code ≠ .comment opened := by
  intro h
  cases h

theorem string_ne_comment (quote : Char) (opened : Nat) : Mode.string quote ≠ .comment opened := by
  intro h
  cases h

/-- Without slashes there is no way into a comment. -/
theorem lex_ne_comment {number : Nat} {mode : Mode} {text : List Char}
    (hmode : ∀ opened, mode ≠ .comment opened) (h : '/' ∉ text) (opened : Nat) :
    (lex number mode text).2 ≠ .comment opened := by
  fun_induction lex number mode text with
  | case1 mode => exact hmode opened
  | case2 n | case3 n => exact (hmode n rfl).elim
  | case4 quote c rest ih =>
      apply ih (string_ne_comment quote)
      intro hrest
      exact h (List.mem_cons_of_mem _ (List.mem_cons_of_mem c hrest))
  | case5 quote => exact string_ne_comment quote opened
  | case6 quote c rest _ _ ih =>
      apply ih _ (mt (List.mem_cons_of_mem c) h)
      split
      · exact code_ne_comment
      · exact string_ne_comment quote
  -- Both ways into a comment begin with a slash.
  | case7 | case8 => simp at h
  | case9 c rest _ _ _ ih => exact ih (string_ne_comment c) (mt (List.mem_cons_of_mem c) h)
  | case10 c rest _ _ _ ih => exact ih code_ne_comment (mt (List.mem_cons_of_mem c) h)

namespace State

variable {stack : List Bracket} {s : State} {text : List Char}

theorem mode_of_step (htext : '/' ∉ text) (h : (State.mk .code stack).step text = some s) :
    s = ⟨.code, s.stack⟩ := by
  have hmode := @lex_ne_comment 0 .code text code_ne_comment htext
  rw [step] at h
  split at h
  · cases h
  · next lexemes mode hstring hlex =>
    rw [hlex] at hmode
    obtain ⟨after, -, rfl⟩ := Option.map_eq_some_iff.1 h
    cases mode with
    | code => rfl
    | comment opened => exact (hmode opened rfl).elim
    | string quote => exact (hstring _ rfl).elim

/-- No bracket is closed before a character that is neither blank nor a mark. -/
theorem depth_place_of_isPlain {c : Char} (hc : IsPlain c) (hblank : isBlank c = false)
    (rest : List Char) : ((State.mk .code stack).place (c :: rest)).depth = stack.length := by
  obtain ⟨hquote, hslash, hbracket⟩ := of_notMem_marks hc.1
  obtain ⟨hopener, hcloser⟩ := not_isBracket_iff.1 hbracket
  have hsolid : Lexeme.ofChar c = .solid := by
    rw [Lexeme.ofChar, hopener, hcloser]
    simp [hblank]
  rw [place, lex_code_cons hquote fun heq ↦ (hslash heq).elim, hsolid]
  rfl

end State

/-- Comments do not change how the lines around them are placed. -/
theorem exists_run_of_interleaved {xs ys : List (List Char)} (h : Interleaved TextBlock xs ys)
    {stack : List Bracket} {placed : List PlacedLine} {s : State}
    (hrun : (State.mk .code stack).run ys = some (placed, s)) :
    ∃ placed', (State.mk .code stack).run xs = some (placed', s) ∧
      Interleaved PlacedBlock placed' placed := by
  induction h generalizing stack placed with
  | nil =>
      obtain ⟨rfl, rfl⟩ := Prod.mk.inj (Option.some.inj hrun)
      exact ⟨[], rfl, .nil⟩
  | @cons block x xs ys hx _ ih =>
      obtain ⟨hslash, hblock⟩ := hx
      rw [State.run] at hrun
      obtain ⟨next, hstep, hrest⟩ := Option.bind_eq_some_iff.1 hrun
      obtain ⟨⟨more, final⟩, hmore, hpair⟩ := Option.map_eq_some_iff.1 hrest
      obtain ⟨rfl, rfl⟩ := Prod.mk.inj hpair
      -- The line leaves the scanner in code, so the induction goes on from there.
      rw [State.mode_of_step hslash hstep] at hmore
      obtain ⟨more', hmore', hinter⟩ := ih hmore
      rw [← State.mode_of_step hslash hstep] at hmore'
      have hline : (State.mk .code stack).run (x :: xs) =
          some ((State.mk .code stack).place x :: more', final) := by
        rw [State.run, hstep, Option.bind_some, hmore']
        rfl
      rcases hblock with rfl | ⟨note, rfl, c, rest, rfl, hc, hblank⟩
      · exact ⟨_, hline, .cons ⟨hslash, .inl rfl⟩ hinter⟩
      · refine ⟨placedComment note stack.length ++
          (State.mk .code stack).place (c :: rest) :: more', ?_, ?_⟩
        · rw [State.run_append, run_comment, Option.bind_some, hline]
          rfl
        · apply Interleaved.cons _ hinter
          refine ⟨hslash, .inr ⟨note, ?_, List.cons_ne_nil _ _⟩⟩
          rw [State.depth_place_of_isPlain hc hblank]

end Typings.Layout
