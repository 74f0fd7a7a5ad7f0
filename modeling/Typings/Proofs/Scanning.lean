import Typings.Layout.Scan

/-!
# The scanner as a machine

Line numbers serve the messages of the scanner and nothing else. Without them it is a machine whose
state is a mode and the open brackets: each line takes it to a next state or stops it, and a source
is accepted if its lines lead from code outside all brackets back to there.
-/

namespace Typings.Layout

/-! ## Line numbers -/

/-- A mode without the line that it began on. -/
def Mode.unnumbered : Mode → Mode
  | .comment _ => .comment 0
  | mode => mode

@[simp]
theorem Mode.unnumbered_code : Mode.unnumbered .code = .code := rfl

@[simp]
theorem Mode.unnumbered_comment (opened : Nat) : Mode.unnumbered (.comment opened) = .comment 0 :=
  rfl

@[simp]
theorem Mode.unnumbered_string (quote : Char) : Mode.unnumbered (.string quote) = .string quote :=
  rfl

theorem lex_unnumbered (number : Nat) (mode : Mode) (text : List Char) :
    lex 0 mode.unnumbered text =
      ((lex number mode text).1, (lex number mode text).2.unnumbered) := by
  fun_induction lex number mode text with
  | case1 mode => exact lex.eq_1 0 mode.unnumbered
  | case2 opened rest ih =>
      simp only [Mode.unnumbered_comment, Mode.unnumbered_code] at ih ⊢
      rw [lex, ih]
      rfl
  | case3 opened c rest hend ih =>
      simp only [Mode.unnumbered_comment] at ih ⊢
      rw [lex, ih]
      · rfl
      · exact hend
  | case4 quote c rest ih =>
      simp only [Mode.unnumbered_string] at ih ⊢
      rw [lex, ih]
  | case5 quote => rfl
  | case6 quote c rest hescape hlast ih =>
      have hmode : (if c = quote then Mode.code else .string quote).unnumbered =
          if c = quote then Mode.code else .string quote := by
        split <;> rfl
      rw [hmode] at ih
      rw [Mode.unnumbered_string, lex, ih]
      · exact hescape
      · exact hlast
  | case7 rest => rfl
  | case8 rest ih =>
      simp only [Mode.unnumbered_comment, Mode.unnumbered_code] at ih ⊢
      rw [lex, ih]
      rfl
  | case9 c rest hline hblock hquote ih =>
      simp only [Mode.unnumbered_string, Mode.unnumbered_code] at ih ⊢
      rw [lex, if_pos hquote, ih]
      · rfl
      · exact hline
      · exact hblock
  | case10 c rest hline hblock hquote ih =>
      simp only [Mode.unnumbered_code] at ih ⊢
      rw [lex, if_neg hquote, ih]
      · rfl
      · exact hline
      · exact hblock

/-! ## States -/

/-- The open brackets after a lexeme, innermost first. -/
def nest : List Bracket → Lexeme → Option (List Bracket)
  | stack, .opener b => some (b :: stack)
  | b' :: stack, .closer b => if b' = b then some stack else none
  | [], .closer _ => none
  | stack, .blank | stack, .commentEnd | stack, .solid => some stack

/-- Where the scanner stands between two lines. -/
structure State where
  mode : Mode
  stack : List Bracket
deriving DecidableEq

namespace State

def start : State := ⟨.code, []⟩

/-- The state after a line; none if a bracket does not match or a string is not closed. -/
def step (s : State) (text : List Char) : Option State :=
  match lex 0 s.mode text with
  | (_, .string _) => none
  | (lexemes, mode) => (lexemes.foldlM nest s.stack).map (State.mk mode)

def place (s : State) (text : List Char) : PlacedLine where
  text := text
  depth := s.stack.length -
    ((lex 0 s.mode text).1.takeWhile Lexeme.isLeading).countP Lexeme.isCloser
  inComment :=
    match s.mode with
    | .comment _ => true
    | _ => false

/-- Places lines one after the other, and gives the state after them. -/
def run (s : State) : List (List Char) → Option (List PlacedLine × State)
  | [] => some ([], s)
  | text :: rest => (s.step text).bind fun s' ↦
      (s'.run rest).map fun p ↦ (s.place text :: p.1, p.2)

theorem run_append (s : State) (xs ys : List (List Char)) :
    s.run (xs ++ ys) = (s.run xs).bind fun p ↦
      (p.2.run ys).map fun q ↦ (p.1 ++ q.1, q.2) := by
  induction xs generalizing s with
  | nil => simp [run]
  | cons text xs ih =>
      rw [List.cons_append, run, run]
      cases s.step text with
      | none => rfl
      | some s' =>
          rw [Option.bind_some, Option.bind_some, ih]
          cases s'.run xs with
          | none => rfl
          | some p =>
              rw [Option.bind_some, Option.map_map, Option.map_some, Option.bind_some]
              rfl

theorem texts_of_run {s s' : State} {texts : List (List Char)} {placed : List PlacedLine}
    (h : s.run texts = some (placed, s')) : placed.map PlacedLine.text = texts := by
  induction texts generalizing s placed with
  | nil =>
      obtain ⟨rfl, -⟩ := Prod.mk.inj (Option.some.inj h)
      rfl
  | cons text rest ih =>
      obtain ⟨next, -, h⟩ := Option.bind_eq_some_iff.1 h
      obtain ⟨⟨more, final⟩, hrun, hpair⟩ := Option.map_eq_some_iff.1 h
      obtain ⟨rfl, rfl⟩ := Prod.mk.inj hpair
      rw [List.map_cons, ih hrun]
      rfl

end State

/-! ## The scanner -/

/-- A line as the scanner reads it. -/
def readLine (number : Nat) (start : Mode) (text : List Char) : Line where
  number := number
  text := text
  lexemes := (lex number start text).1
  start := start
  finish := (lex number start text).2

theorem readLines_cons (number : Nat) (start : Mode) (text : List Char) (rest : List (List Char)) :
    readLines number start (text :: rest) = readLine number start text ::
      readLines (number + 1) (readLine number start text).finish.afterLine rest :=
  rfl

theorem toOption_balance (number : Nat) (text : List Char) (stack : OpenBrackets)
    (lexemes : List Lexeme) :
    (balance number text stack lexemes).toOption.map (List.map Prod.fst) =
      lexemes.foldlM nest (stack.map Prod.fst) := by
  induction lexemes generalizing stack with
  | nil => rfl
  | cons x rest ih =>
      rw [List.foldlM_cons]
      cases x with
      | opener b => exact ih _
      | closer b =>
          cases stack with
          | nil => rfl
          | cons p outer =>
              by_cases hb : p.1 = b
              · simp [balance, nest, hb, ih]
              · simp [balance, nest, hb, Except.toOption]
      | _ => exact ih _

/-- The state in which the scanner goes on. -/
def State.of (mode : Mode) (stack : OpenBrackets) : State := ⟨mode.unnumbered, stack.map Prod.fst⟩

theorem step_of (number : Nat) (mode : Mode) (stack : OpenBrackets) (text : List Char) :
    (State.of mode stack).step text =
      ((readLine number mode text).balance stack).toOption.map
        (State.of (readLine number mode text).finish) := by
  rw [State.step, State.of, lex_unnumbered number, Line.balance]
  have hbalance := toOption_balance number text stack (lex number mode text).1
  dsimp only [readLine]
  generalize balance number text stack (lex number mode text).1 = outcome at hbalance ⊢
  cases (lex number mode text).2 with
  | string quote => cases outcome <;> rfl
  | _ =>
      change Option.map _ _ = _
      rw [← hbalance]
      cases outcome <;> rfl

theorem place_of (number : Nat) (mode : Mode) (stack : OpenBrackets) (text : List Char) :
    (State.of mode stack).place text = (readLine number mode text).place stack := by
  rw [State.place, Line.place, Line.leadingClosers, Line.inComment, State.of,
    lex_unnumbered number, List.length_map]
  cases mode <;> rfl

theorem afterLine_of_balance {l : Line} {stack after : OpenBrackets}
    (h : l.balance stack = .ok after) : l.finish.afterLine = l.finish := by
  rw [Line.balance] at h
  split at h
  · cases h
  · split at h
    · cases h
    · next hfinish =>
      cases hmode : l.finish with
      | string quote => exact absurd hmode (hfinish quote)
      | _ => rfl

theorem placeLines_eq_ok_iff {number : Nat} {mode : Mode} {stack : OpenBrackets}
    {texts : List (List Char)} {placed : List PlacedLine} (hmode : mode.afterLine = mode) :
    placeLines mode stack (readLines number mode texts) = .ok placed ↔
      (State.of mode stack).run texts = some (placed, .start) := by
  induction texts generalizing number mode stack placed with
  | nil =>
      rw [readLines, State.run, State.of, State.start]
      -- No line begins in a string, so what can be left open is a comment or a bracket.
      cases mode with
      | string quote => cases hmode
      | comment opened => simp [placeLines]
      | code => cases stack <;> simp [placeLines]
  | cons text rest ih =>
      rw [readLines_cons, placeLines, State.run, step_of number, place_of number]
      cases hbalance : (readLine number mode text).balance stack with
      | error e => simp [Except.toOption]
      | ok after =>
          have hafter := afterLine_of_balance hbalance
          have ih' (more : List PlacedLine) :=
            @ih (number + 1) (readLine number mode text).finish after more hafter
          rw [hafter]
          dsimp only [Except.toOption, Option.map_some, Option.bind_some]
          constructor
          · intro h
            split at h
            · cases h
            · next more hmore =>
              obtain rfl := Except.ok.inj h
              rw [(ih' more).1 hmore]
              rfl
          · intro h
            obtain ⟨⟨more, final⟩, hrun, hpair⟩ := Option.map_eq_some_iff.1 h
            obtain ⟨rfl, rfl⟩ := Prod.mk.inj hpair
            rw [(ih' more).2 hrun]

/-- The lines of a source without the blanks around them. -/
def sourceTexts (source : List Char) : List (List Char) :=
  (Text.splitLines source).map Text.trim

/-- A source is accepted if its lines lead back to code outside all brackets. -/
theorem scan_eq_ok_iff {source : List Char} {placed : List PlacedLine} :
    scan source = .ok placed ↔ State.start.run (sourceTexts source) = some (placed, .start) :=
  placeLines_eq_ok_iff rfl

/-- The mode at the end of some lines. -/
def finalMode (mode : Mode) (lines : List Line) : Mode :=
  (lines.getLast?.map Line.finish).getD mode

theorem finalMode_cons (mode : Mode) (l : Line) (lines : List Line) :
    finalMode mode (l :: lines) = finalMode l.finish lines := by
  rw [finalMode, finalMode, List.getLast?_cons]
  cases lines.getLast? <;> rfl

theorem exists_of_run (number : Nat) {mode : Mode} {stack : OpenBrackets}
    {texts : List (List Char)} {placed : List PlacedLine} {s : State}
    (h : (State.of mode stack).run texts = some (placed, s)) (hmode : mode.afterLine = mode) :
    ∃ after, (readLines number mode texts).foldlM (fun stack l ↦ l.balance stack) stack =
      .ok after ∧ s = .of (finalMode mode (readLines number mode texts)) after ∧
        (finalMode mode (readLines number mode texts)).afterLine =
          finalMode mode (readLines number mode texts) := by
  induction texts generalizing number mode stack placed with
  | nil =>
      obtain ⟨-, rfl⟩ := Prod.mk.inj (Option.some.inj h)
      exact ⟨stack, rfl, rfl, hmode⟩
  | cons text rest ih =>
      rw [State.run, step_of number] at h
      rw [readLines_cons, List.foldlM_cons, finalMode_cons]
      cases hbalance : (readLine number mode text).balance stack with
      | error e =>
          rw [hbalance] at h
          cases h
      | ok after =>
          rw [hbalance] at h
          obtain ⟨⟨more, final⟩, hrun, hpair⟩ := Option.map_eq_some_iff.1 h
          obtain ⟨-, rfl⟩ := Prod.mk.inj hpair
          have hafter := afterLine_of_balance hbalance
          rw [hafter]
          exact ih _ hrun hafter

/-- The brackets that are open at the end of a source. -/
def openBrackets (source : List Char) : Except ScanError OpenBrackets :=
  (sourceLines source).foldlM (fun stack l ↦ l.balance stack) []

/-- The mode at the end of a source. -/
def endMode (source : List Char) : Mode := finalMode .code (sourceLines source)

theorem exists_openBrackets {source : List Char} {placed : List PlacedLine} {s : State}
    (hrun : State.start.run (sourceTexts source) = some (placed, s))
    (hmode : ∀ opened, endMode source ≠ .comment opened) :
    ∃ stack, openBrackets source = .ok stack ∧ s = ⟨.code, stack.map Prod.fst⟩ := by
  have hstart : State.start = .of .code [] := rfl
  rw [hstart] at hrun
  obtain ⟨stack, hstack, rfl, hafter⟩ := exists_of_run 1 hrun rfl
  refine ⟨stack, hstack, ?_⟩
  change (endMode source).afterLine = endMode source at hafter
  change State.of (endMode source) stack = _
  cases hend : endMode source with
  | code => rfl
  | comment opened => exact absurd hend (hmode opened)
  | string quote =>
      rw [hend] at hafter
      cases hafter

end Typings.Layout
