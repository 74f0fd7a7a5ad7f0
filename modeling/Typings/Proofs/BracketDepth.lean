import Typings.Proofs.BalancedSource
import Typings.Proofs.Paragraphs

/-!
# Bracket depth

How far a line is pushed in is said here by the brackets before it: those that are opened and not
yet closed, less those that the line closes at its head. The rules that read sources know what
these are; a comment that runs on into the line is ended for them.
-/

namespace Typings.Layout

open Text

/-! ## Depth of words -/

def IsCloser (c : Char) : Bool := (Bracket.ofCloser? c).isSome

/-- How many more brackets are open after a character. -/
def weight (c : Char) : Int :=
  if (Bracket.ofOpener? c).isSome then 1 else if IsCloser c then -1 else 0

/-- The number of brackets that a word opens and does not close. -/
def wordDepth : List Char → Int
  | [] => 0
  | c :: word => weight c + wordDepth word

theorem length_eq_of_nest {stack stack' : List Bracket} {c : Char}
    (h : nest stack (.ofChar c) = some stack') :
    (stack'.length : Int) = stack.length + weight c := by
  by_cases hc : IsBracket c
  · obtain ⟨b, rfl | rfl⟩ := hc
    · have hweight : weight b.opener = 1 := by cases b <;> rfl
      rw [nest_opener] at h
      obtain rfl := Option.some.inj h
      rw [hweight, List.length_cons]
      rfl
    · have hweight : weight b.closer = -1 := by cases b <;> rfl
      obtain rfl := exists_of_nest_closer h
      rw [hweight, List.length_cons]
      omega
  · obtain ⟨hopener, hcloser⟩ := not_isBracket_iff.1 hc
    have hweight : weight c = 0 := by simp [weight, IsCloser, hopener, hcloser]
    rw [nest_ofChar_of_not_isBracket hc] at h
    obtain rfl := Option.some.inj h
    rw [hweight, Int.add_zero]

theorem length_eq_of_nestWord {stack stack' : List Bracket} {word : List Char}
    (h : nestWord stack word = some stack') :
    (stack'.length : Int) = stack.length + wordDepth word := by
  induction word generalizing stack with
  | nil =>
      obtain rfl := Option.some.inj h
      exact (Int.add_zero _).symm
  | cons c word ih =>
      rw [nestWord_cons] at h
      obtain ⟨inner, hinner, hafter⟩ := Option.bind_eq_some_iff.1 h
      rw [ih hafter, length_eq_of_nest hinner, wordDepth, Int.add_assoc]

/-! ## Lines before a line -/

/-- The brackets of the lines before a line, in order. If the line begins within a comment, this
is ended for them. -/
def ReadsBefore (lines : List (List Char)) (word : List Char) : Prop :=
  Reads (lines ++ [['*', '/']]) word

/-- Some lines run on into a comment: they can be read only if it is ended after them. -/
def EndWithinComment (lines : List (List Char)) : Prop :=
  (∃ word, ReadsBefore lines word) ∧ ¬ ∃ word, Reads lines word

namespace State

variable {s s' : State} {texts : List (List Char)} {placed : List PlacedLine}

theorem after_of_run (h : s.run texts = some (placed, s')) : s.after texts = some s' := by
  rw [← map_snd_run, h]
  rfl

theorem afterLine_of_run (hs : s.mode.afterLine = s.mode) (h : s.run texts = some (placed, s')) :
    s'.mode.afterLine = s'.mode := by
  induction texts generalizing s placed with
  | nil =>
      obtain ⟨-, rfl⟩ := Prod.mk.inj (Option.some.inj h)
      exact hs
  | cons text texts ih =>
      obtain ⟨next, hstep, h⟩ := Option.bind_eq_some_iff.1 h
      obtain ⟨⟨more, final⟩, hrun, hpair⟩ := Option.map_eq_some_iff.1 h
      obtain ⟨-, rfl⟩ := Prod.mk.inj hpair
      exact ih (afterLine_of_step hstep) hrun

/-- Blank lines at the beginning leave the scanner where it starts. -/
theorem eq_start_of_run (hblank : ∀ text ∈ texts, text = [])
    (h : start.run texts = some (placed, s)) : s = start := by
  have hnone : texts.filter (!·.isEmpty) = [] := by
    rw [List.filter_eq_nil_iff]
    intro text htext
    simp [hblank text htext]
  have hrun := run_filter (s := start) rfl texts
  rw [hnone, h] at hrun
  exact (Prod.mk.inj (Option.some.inj hrun)).2.symm

/-- An end of a comment leads from any line to code, and through no bracket. -/
theorem after_concat_end (hs : s.mode.afterLine = s.mode) (h : start.after texts = some s) :
    start.after (texts ++ [['*', '/']]) = some ⟨.code, s.stack⟩ := by
  have hstep : s.step ['*', '/'] = some ⟨.code, s.stack⟩ := by
    obtain ⟨mode, stack⟩ := s
    cases mode with
    | string quote => cases hs
    | _ => cases stack <;> rfl
  rw [after] at h ⊢
  rw [List.foldlM_append, h]
  change (s.step ['*', '/']).bind some = _
  rw [hstep]
  rfl

end State

section

variable {s : State} {texts : List (List Char)} {placed : List PlacedLine}

theorem exists_readsBefore (h : State.start.run texts = some (placed, s)) :
    ∃ word, ReadsBefore texts word :=
  exists_reads (State.after_concat_end (State.afterLine_of_run rfl h) (State.after_of_run h))

/-- The open brackets after some lines are as many as these open and do not close. -/
theorem ReadsBefore.length_eq {word : List Char} (hword : ReadsBefore texts word)
    (h : State.start.run texts = some (placed, s)) : (s.stack.length : Int) = wordDepth word := by
  have hafter := State.after_concat_end (State.afterLine_of_run rfl h) (State.after_of_run h)
  have hnest := (hword.after_eq []).symm.trans hafter
  obtain ⟨stack, hstack, hs⟩ := Option.map_eq_some_iff.1 hnest
  obtain rfl : stack = s.stack := congrArg State.stack hs
  rw [length_eq_of_nestWord hstack, List.length_nil]
  exact Int.zero_add _

theorem endWithinComment_iff (h : State.start.run texts = some (placed, s)) :
    EndWithinComment texts ↔ s.mode ≠ .code := by
  have hafter := State.after_of_run h
  constructor
  · rintro ⟨-, hreads⟩ hmode
    obtain ⟨mode, stack⟩ := s
    obtain rfl : mode = .code := hmode
    exact hreads (exists_reads hafter)
  · intro hmode
    refine ⟨exists_readsBefore h, ?_⟩
    rintro ⟨word, hword⟩
    have hnest := (hword.after_eq []).symm.trans hafter
    obtain ⟨stack, -, rfl⟩ := Option.map_eq_some_iff.1 hnest
    exact hmode rfl

end

/-! ## The head of a line -/

def isLeading (c : Char) : Bool := isBlank c || IsCloser c

/-- The brackets that a line closes before anything else stands in it: at its beginning, or after
the end of the comment if it begins within one and with this end. -/
def leadingClosers : Bool → List Char → Nat
  | false, line => (line.takeWhile isLeading).countP IsCloser
  | true, '*' :: '/' :: line => (line.takeWhile isLeading).countP IsCloser
  | true, _ => 0

/-- A character of code is seen as a lexeme of its kind. -/
theorem kind_ofChar (c : Char) :
    (Lexeme.ofChar c).isLeading = isLeading c ∧ (Lexeme.ofChar c).isCloser = IsCloser c := by
  by_cases hc : IsBracket c
  · obtain ⟨b, rfl | rfl⟩ := hc
    · rw [ofChar_opener]
      cases b <;> exact ⟨rfl, rfl⟩
    · rw [ofChar_closer]
      cases b <;> exact ⟨rfl, rfl⟩
  · obtain ⟨hopener, hcloser⟩ := not_isBracket_iff.1 hc
    rw [Lexeme.ofChar, isLeading, IsCloser, hopener, hcloser]
    cases isBlank c <;> exact ⟨rfl, rfl⟩

theorem countP_leading_code (line : List Char) :
    ((lex 0 .code line).1.takeWhile Lexeme.isLeading).countP Lexeme.isCloser =
      leadingClosers false line := by
  induction line with
  | nil => rfl
  | cons c line ih =>
      by_cases hquote : isQuote c = true
      · have hleading : isLeading c = false := by
          simp only [isQuote, Bool.or_eq_true, decide_eq_true_eq] at hquote
          rcases hquote with (rfl | rfl) | rfl <;> rfl
        rw [lex_code_quote hquote, leadingClosers, List.takeWhile_cons, List.takeWhile_cons,
          hleading]
        rfl
      by_cases hslash : c = '/' ∧ (line.head? = some '/' ∨ line.head? = some '*')
      · obtain ⟨rfl, hhead⟩ := hslash
        rcases hhead with hhead | hhead
        · obtain ⟨tail, rfl⟩ := List.head?_eq_some_iff.1 hhead
          rfl
        · obtain ⟨tail, rfl⟩ := List.head?_eq_some_iff.1 hhead
          rfl
      have hplain : c = '/' → line.head? ≠ some '/' ∧ line.head? ≠ some '*' :=
        fun hc ↦ not_or.1 fun hhead ↦ hslash ⟨hc, hhead⟩
      obtain ⟨hleading, hcloser⟩ := kind_ofChar c
      rw [lex_code_cons (by simpa using hquote) hplain, leadingClosers, List.takeWhile_cons,
        List.takeWhile_cons, hleading]
      cases isLeading c with
      | false => rfl
      | true =>
          rw [if_pos rfl, if_pos rfl, List.countP_cons, List.countP_cons, ih, hcloser,
            leadingClosers]

theorem countP_leading_comment (opened : Nat) (line : List Char) :
    ((lex 0 (.comment opened) line).1.takeWhile Lexeme.isLeading).countP Lexeme.isCloser =
      leadingClosers true line := by
  by_cases hend : ∃ rest, line = '*' :: '/' :: rest
  · obtain ⟨rest, rfl⟩ := hend
    exact countP_leading_code rest
  · cases line with
    | nil => rfl
    | cons c rest =>
        have hsolid : ∀ more, c = '*' → rest = '/' :: more → False := by
          rintro more rfl rfl
          exact hend ⟨more, rfl⟩
        rw [lex.eq_3 _ _ _ _ hsolid, leadingClosers.eq_3]
        · rfl
        · rintro more hline
          exact hend ⟨more, hline⟩

theorem countP_leading_le {lexemes : List Lexeme} {stack stack' : List Bracket}
    (h : lexemes.foldlM nest stack = some stack') :
    (lexemes.takeWhile Lexeme.isLeading).countP Lexeme.isCloser ≤ stack.length := by
  induction lexemes generalizing stack with
  | nil => exact Nat.zero_le _
  | cons x lexemes ih =>
      rw [List.foldlM_cons] at h
      obtain ⟨inner, hinner, hafter⟩ := Option.bind_eq_some_iff.1 h
      have hrest := ih hafter
      cases x with
      | opener b => exact Nat.zero_le _
      | solid => exact Nat.zero_le _
      | closer b =>
          cases stack with
          | nil => cases hinner
          | cons b' stack =>
              rw [nest] at hinner
              split at hinner
              · obtain rfl := Option.some.inj hinner
                rw [List.takeWhile_cons_of_pos rfl, List.countP_cons_of_pos rfl, List.length_cons]
                exact Nat.succ_le_succ hrest
              · cases hinner
      | _ =>
          obtain rfl : stack = inner := by
            cases stack <;> exact Option.some.inj hinner
          exact hrest

/-! ## The margin of a line -/

namespace State

variable {s s' next : State} {before after : List (List Char)} {line : List Char}
  {placed : List PlacedLine}

theorem exists_of_run_append_cons (h : s.run (before ++ line :: after) = some (placed, s')) :
    ∃ front inner next back, s.run before = some (front, inner) ∧ inner.step line = some next ∧
      placed = front ++ inner.place line :: back := by
  rw [run_append] at h
  obtain ⟨⟨front, inner⟩, hfront, h⟩ := Option.bind_eq_some_iff.1 h
  obtain ⟨⟨rest, final⟩, hrest, hpair⟩ := Option.map_eq_some_iff.1 h
  obtain ⟨rfl, rfl⟩ := Prod.mk.inj hpair
  obtain ⟨next, hstep, hrest⟩ := Option.bind_eq_some_iff.1 hrest
  obtain ⟨⟨back, final⟩, -, hpair⟩ := Option.map_eq_some_iff.1 hrest
  obtain ⟨rfl, -⟩ := Prod.mk.inj hpair
  exact ⟨front, inner, next, back, hfront, hstep, rfl⟩

theorem inComment_iff (hs : s.mode.afterLine = s.mode) :
    (s.place line).inComment = true ↔ s.mode ≠ .code := by
  obtain ⟨mode, stack⟩ := s
  cases mode with
  | string quote => cases hs
  | _ => simp [place]

theorem countP_leading (hs : s.mode.afterLine = s.mode) (line : List Char) :
    ((lex 0 s.mode line).1.takeWhile Lexeme.isLeading).countP Lexeme.isCloser =
      leadingClosers (s.place line).inComment line := by
  obtain ⟨mode, stack⟩ := s
  cases mode with
  | string quote => cases hs
  | code => exact countP_leading_code line
  | comment opened => exact countP_leading_comment opened line

/-- A line closes no more brackets at its head than are open. -/
theorem depth_place (hs : s.mode.afterLine = s.mode) (h : s.step line = some next) :
    ((s.place line).depth : Int) =
      s.stack.length - leadingClosers (s.place line).inComment line := by
  rw [step] at h
  split at h
  · cases h
  · next lexemes mode _ hlex =>
    obtain ⟨inner, hinner, -⟩ := Option.map_eq_some_iff.1 h
    have hle := countP_leading_le hinner
    have hcount : (lexemes.takeWhile Lexeme.isLeading).countP Lexeme.isCloser =
        leadingClosers (s.place line).inComment line := by
      rw [← countP_leading hs, hlex]
    have hdepth : (s.place line).depth =
        s.stack.length - leadingClosers (s.place line).inComment line := by
      rw [← hcount, place, hlex]
    omega

end State

/-- A line that is not blank is rendered after as many such lines as come before it. -/
theorem exists_getElem?_rendered {indent : Option Int} {front back : List PlacedLine}
    {l : PlacedLine} {s : State} {before : List (List Char)} {rendered : List (List Char)}
    (hfront : State.start.run before = some (front, s)) (hl : l.text ≠ [])
    (h : (front ++ l :: back).mapM (PlacedLine.render indent) = .ok rendered) :
    ∃ r, l.render indent = .ok r ∧
      (rendered.filter (!·.isEmpty))[(before.filter (!·.isEmpty)).length]? = some r := by
  obtain ⟨us, rest, hus, hrest, rfl⟩ := mapM_append_eq_ok_iff.1 h
  obtain ⟨r, vs, hr, -, rfl⟩ := List.forall₂_cons_left_iff.1 (mapM_eq_ok_iff.1 hrest)
  refine ⟨r, hr, ?_⟩
  have htexts := forall₂_filter (p := fun l ↦ !l.text.isEmpty) (q := (!·.isEmpty))
    (forall₂_text_of_run hfront) fun l text htext ↦ by rw [htext]
  have hrendered := forall₂_filter (p := fun l ↦ !l.text.isEmpty) (q := (!·.isEmpty))
    (mapM_eq_ok_iff.1 hus) fun l r hr ↦ by rw [PlacedLine.isEmpty_of_render hr]
  have hne : (!r.isEmpty) = true := by
    rw [PlacedLine.isEmpty_of_render hr, List.isEmpty_eq_false_iff.2 hl]
    rfl
  rw [List.filter_append, List.filter_cons, if_pos hne, ← htexts.length_eq, hrendered.length_eq]
  rw [List.getElem?_append_right (Nat.le_refl _), Nat.sub_self]
  rfl

/-- How a line that is not blank stands among the lines that are shown: after as many of them as
the lines before it that are not blank, and behind the margin of its depth. -/
structure StandsAt (indent : Int) (shown : List (List Char)) (before : List (List Char))
    (line : List Char) (inComment : Bool) (depth : Nat) : Prop where
  comment : inComment = true ↔ EndWithinComment before
  readable : ∃ word, ReadsBefore before word
  depth_eq : ∀ word, ReadsBefore before word →
    (depth : Int) = wordDepth word - leadingClosers inComment line
  first : (∀ text ∈ before, text = []) → depth = 0
  shown_eq : shown[(before.filter (!·.isEmpty)).length]? =
    some (List.replicate (indent * depth).toNat ' ' ++
      if inComment ∧ line.head? = some '*' then ' ' :: line else line)

/-- Every line that is not blank is shown behind a margin as wide as the indent times its depth,
where the depth is never negative, and the lines of a comment that begin with a star one further;
and nothing else is shown that is not blank. -/
theorem format_depth {indent : Int} {source text : String}
    (h : format (some indent) source = .ok text) :
    (contentLines text.toList).length = (contentLines source.toList).length ∧
      ∀ before line after, sourceTexts source.toList = before ++ line :: after → line ≠ [] →
        ∃ inComment depth,
          StandsAt indent (contentLines text.toList) before line inComment depth := by
  obtain ⟨placed, rendered, hscan, hrendered, -⟩ := format_eq_ok_iff.1 h
  have hrun := scan_eq_ok_iff.1 hscan
  rw [contentLines_format h hscan hrendered]
  refine ⟨length_filter_rendered (State.texts_of_run hrun) hrendered, ?_⟩
  intro before line after hlines hline
  rw [hlines] at hrun
  obtain ⟨front, s, next, back, hfront, hstep, rfl⟩ := State.exists_of_run_append_cons hrun
  have hs := State.afterLine_of_run rfl hfront
  have hdepth := State.depth_place hs hstep
  obtain ⟨r, hr, hshown⟩ := exists_getElem?_rendered (l := s.place line) hfront hline hrendered
  refine ⟨(s.place line).inComment, (s.place line).depth, ?_, exists_readsBefore hfront, ?_, ?_, ?_⟩
  · rw [endWithinComment_iff hfront, State.inComment_iff hs]
  · intro word hword
    rw [hdepth, hword.length_eq hfront]
  · intro hblank
    obtain rfl := State.eq_start_of_run hblank hfront
    exact Nat.zero_sub _
  · rw [PlacedLine.render_of_ne_nil hline] at hr
    cases hmargin : (s.place line).margin (some indent) with
    | error e =>
        rw [hmargin] at hr
        cases hr
    | ok m =>
        rw [hmargin] at hr
        obtain rfl := Except.ok.inj hr
        rw [hshown, eq_replicate_of_margin hmargin]
        rfl

/-- Brackets that close at the head of a line, one after the end of a comment, and others that do
not count or come too late. -/
def nestedSource : String := "f([\x7b /* (\n * x\n*/ \x7d]) // (\n\x7b\n\x7d \x7b\n'\x7d' \x7d"

def nestedLayout : String :=
  "f([\x7b /* (\n       * x\n */ \x7d]) // (\n\x7b\n\x7d \x7b\n  '\x7d' \x7d\n"

theorem nestedSource_depth :
    format (some 2) nestedSource = .ok nestedLayout ∧
      sourceTexts nestedSource.toList = ["f([\x7b /* (".toList, "* x".toList] ++
        "*/ \x7d]) // (".toList :: ["\x7b".toList, "\x7d \x7b".toList, "'\x7d' \x7d".toList] ∧
      "*/ \x7d]) // (".toList ≠ [] ∧
      ∃ inComment depth, StandsAt 2 (contentLines nestedLayout.toList)
        ["f([\x7b /* (".toList, "* x".toList] "*/ \x7d]) // (".toList inComment depth := by
  have hlayout : format (some 2) nestedSource = .ok nestedLayout := rfl
  have hlines : sourceTexts nestedSource.toList = ["f([\x7b /* (".toList, "* x".toList] ++
      "*/ \x7d]) // (".toList :: ["\x7b".toList, "\x7d \x7b".toList, "'\x7d' \x7d".toList] := rfl
  have hline : "*/ \x7d]) // (".toList ≠ [] := by simp
  obtain ⟨-, hstands⟩ := format_depth hlayout
  exact ⟨hlayout, hlines, hline, hstands _ _ _ hlines hline⟩

end Typings.Layout
