import Typings.Proofs.BalancedSource

/-!
# Where a source goes wrong

The refusal of a source names a point of it, and what it says of that point is so. What stands
before the point is told by the rules that read sources: a bracket there closes nothing or another
bracket, a string is not closed on its line, a comment is never ended, or all of the source can be
read and the bracket there is the last one left open. A source that is not balanced goes wrong at
some point, and the scanner refuses it for no other.
-/

namespace Typings.Layout

open Comment

/-! ## Reading up to a point -/

/-- The brackets of some lines outside strings and comments up to a point of code, and what is left
from there on. -/
inductive ReadsUpTo (lines : List (List Char)) : List Char → List (List Char) → Prop
  | start : ReadsUpTo lines [] lines
  | skip {word : List Char} {left after : List (List Char)} (h : ReadsUpTo lines word left)
      (hskips : Skips left after) : ReadsUpTo lines word after
  | bracket {word : List Char} {c : Char} {text : List Char} {rest : List (List Char)}
      (h : ReadsUpTo lines word ((c :: text) :: rest)) (hc : IsBracket c) :
      ReadsUpTo lines (word ++ [c]) (text :: rest)

namespace ReadsUpTo

variable {lines left : List (List Char)} {word : List Char}

theorem finish (h : ReadsUpTo lines word left) {more : List Char} (hleft : Reads left more) :
    Reads lines (word ++ more) := by
  induction h generalizing more with
  | start => exact hleft
  | skip _ hskips ih => exact ih (hskips.reads hleft)
  | bracket _ hc ih =>
      rw [List.append_assoc]
      exact ih (.bracket hc hleft)

theorem of_reads (h : ReadsUpTo lines word left) {more : List Char} (hleft : Reads left more) :
    ReadsUpTo lines (word ++ more) [] := by
  induction hleft generalizing word with
  | nil => rwa [List.append_nil]
  | newline _ ih => exact ih (h.skip (.newline _))
  | remark text _ ih => exact ih (h.skip (.remark text _))
  | comment hend _ ih => exact ih (h.skip (.comment hend))
  | string hquote hinside _ ih => exact ih (h.skip (.string hquote hinside _ _))
  | bracket hc _ ih =>
      rw [List.append_cons]
      exact ih (h.bracket hc)
  | other hbracket hquote hslash _ ih => exact ih (h.skip (.other hbracket hquote hslash _))

theorem nil_iff : ReadsUpTo lines word [] ↔ Reads lines word := by
  constructor
  · intro h
    rw [← List.append_nil word]
    exact h.finish .nil
  · intro h
    exact of_reads .start h

theorem isBracket (h : ReadsUpTo lines word left) : ∀ c ∈ word, IsBracket c := by
  induction h with
  | start => exact List.forall_mem_nil _
  | skip _ _ ih => exact ih
  | bracket _ hc ih => exact List.forall_mem_append.2 ⟨ih, List.forall_mem_singleton.2 hc⟩

/-- Before each bracket that is read there is a point from which the rest is read. -/
theorem split {before after : List Char} {c : Char}
    (h : ReadsUpTo lines (before ++ c :: after) left) :
    ∃ text rest, ReadsUpTo lines before ((c :: text) :: rest) ∧
      ReadsUpTo (text :: rest) after left := by
  generalize hword : before ++ c :: after = word at h
  induction h generalizing after with
  | start => simp at hword
  | skip _ hskips ih =>
      obtain ⟨text, rest, hbefore, hafter⟩ := ih hword
      exact ⟨text, rest, hbefore, hafter.skip hskips⟩
  | @bracket word last text rest h hc ih =>
      rcases List.eq_nil_or_concat after with rfl | ⟨after, c', rfl⟩
      · obtain ⟨rfl, hlast⟩ := List.append_inj' hword rfl
        obtain rfl := List.singleton_inj.1 hlast
        exact ⟨text, rest, h, .start⟩
      · rw [List.concat_eq_append, ← List.cons_append, ← List.append_assoc] at hword
        obtain ⟨rfl, hlast⟩ := List.append_inj' hword rfl
        obtain rfl := List.singleton_inj.1 hlast
        obtain ⟨text', rest', hbefore, hafter⟩ := ih rfl
        refine ⟨text', rest', hbefore, ?_⟩
        rw [List.concat_eq_append]
        exact hafter.bracket hc

end ReadsUpTo

/-! ## Words that can be completed -/

/-- Every closing bracket of a word closes the innermost open one. -/
def StartsNested (word : List Char) : Prop := ∃ tail, WellNested (word ++ tail)

/-- A bracket is the innermost one that a word leaves open. -/
def LeavesOpen (word : List Char) (b : Bracket) : Prop :=
  ∃ before inside, word = before ++ b.opener :: inside ∧ WellNested inside

theorem WellNested.append {word more : List Char} (h : WellNested word) (hmore : WellNested more) :
    WellNested (word ++ more) := by
  induction h with
  | nil => exact hmore
  | pair b hinside _ _ ih =>
      rw [List.cons_append, List.append_assoc, List.cons_append]
      exact .pair b hinside ih

theorem nestWord_concat (stack : List Bracket) (word : List Char) (c : Char) :
    nestWord stack (word ++ [c]) = (nestWord stack word).bind (nest · (.ofChar c)) := by
  rw [nestWord_append]
  refine Option.bind_congr fun inner _ ↦ ?_
  rw [nestWord_cons]
  exact Option.bind_fun_some _

theorem nestWord_closers (stack : List Bracket) :
    nestWord stack (stack.map Bracket.closer) = some [] := by
  induction stack with
  | nil => rfl
  | cons b stack ih => rw [List.map_cons, nestWord_cons, nest_closer, Option.bind_some, ih]

theorem wellNested_iff {word : List Char} (hword : ∀ c ∈ word, IsBracket c) :
    WellNested word ↔ nestWord [] word = some [] :=
  ⟨fun h ↦ h.nestWord_eq [], fun h ↦ closes_of_nestWord hword h⟩

theorem StartsNested.exists_nestWord {word : List Char} (h : StartsNested word) :
    ∃ stack, nestWord [] word = some stack := by
  obtain ⟨tail, htail⟩ := h
  have hnest := htail.nestWord_eq []
  rw [nestWord_append] at hnest
  obtain ⟨stack, hstack, -⟩ := Option.bind_eq_some_iff.1 hnest
  exact ⟨stack, hstack⟩

theorem startsNested_of_nestWord {word : List Char} (hword : ∀ c ∈ word, IsBracket c)
    {stack : List Bracket} (h : nestWord [] word = some stack) : StartsNested word := by
  refine ⟨stack.map Bracket.closer, (wellNested_iff ?_).2 ?_⟩
  · refine List.forall_mem_append.2 ⟨hword, fun c hc ↦ ?_⟩
    obtain ⟨b, -, rfl⟩ := List.mem_map.1 hc
    exact ⟨b, .inr rfl⟩
  · rw [nestWord_append, h]
    exact nestWord_closers stack

/-- The innermost open bracket has nothing but closed brackets after it. -/
theorem exists_innermost {word : List Char} (hword : ∀ c ∈ word, IsBracket c) {b : Bracket}
    {stack : List Bracket} (h : nestWord [] word = some (b :: stack)) :
    ∃ before inside, word = before ++ b.opener :: inside ∧ nestWord [] before = some stack ∧
      WellNested inside := by
  -- A closing bracket at the end takes the word back to before the bracket that it closes.
  induction hn : word.length using Nat.strongRecOn generalizing word b stack with
  | ind n ih =>
      rcases List.eq_nil_or_concat word with rfl | ⟨word, c, rfl⟩
      · cases h
      rw [List.concat_eq_append] at hword h hn ⊢
      rw [List.length_append, List.length_singleton] at hn
      obtain ⟨hinit, hc⟩ := List.forall_mem_append.1 hword
      rw [nestWord_concat] at h
      obtain ⟨inner, hinner, hlast⟩ := Option.bind_eq_some_iff.1 h
      obtain ⟨b', rfl | rfl⟩ := List.forall_mem_singleton.1 hc
      · rw [nest_opener] at hlast
        obtain ⟨rfl, rfl⟩ := List.cons_eq_cons.1 (Option.some.inj hlast)
        exact ⟨word, [], rfl, hinner, .nil⟩
      · obtain rfl := exists_of_nest_closer hlast
        obtain ⟨front, pair, rfl, hfront, hpair⟩ := ih word.length (by omega) hinit hinner rfl
        rw [List.length_append] at hn
        obtain ⟨before, inside, rfl, hbefore, hinside⟩ :=
          ih front.length (by omega) (List.forall_mem_append.1 hinit).1 hfront rfl
        refine ⟨before, inside ++ b'.opener :: (pair ++ b'.closer :: []), ?_, hbefore,
          hinside.append (.pair b' hpair .nil)⟩
        simp

/-! ## What a refusal says -/

/-- A line, with its number and the lines after it. -/
def IsLine (lines : List (List Char)) (number : Nat) (line : List Char)
    (rest : List (List Char)) : Prop :=
  ∃ before, lines = before ++ line :: rest ∧ number = before.length + 1

/-- What is said of some lines is so. In each case the source is read up to a point of the line
that is named, with no bracket before it that closes nothing or another one. The lines before are
read to their ends, and no string runs on over the end of one of them. -/
inductive ScanError.IsTrueOf (lines : List (List Char)) : ScanError → Prop
  | unexpectedCloser {word : List Char} {b : Bracket} {number : Nat} {line text : List Char}
      {rest : List (List Char)} (hread : ReadsUpTo lines word ((b.closer :: text) :: rest))
      (hline : IsLine lines number line rest) (hword : StartsNested word)
      (hopen : WellNested word ∨ ∃ b', LeavesOpen word b' ∧ b' ≠ b) :
      IsTrueOf lines (.unexpectedCloser b number line)
  | unterminatedString {word : List Char} {quote : Char} {number : Nat} {line text : List Char}
      {rest : List (List Char)} (hread : ReadsUpTo lines word ((quote :: text) :: rest))
      (hquote : isQuote quote = true)
      (hstring : ∀ inside after, Quoted quote inside → text ≠ inside ++ quote :: after)
      (hline : IsLine lines number line rest) (hword : StartsNested word) :
      IsTrueOf lines (.unterminatedString number line)
  | unterminatedComment {word : List Char} {number : Nat} {line text : List Char}
      {rest : List (List Char)} (hread : ReadsUpTo lines word (('/' :: '*' :: text) :: rest))
      (hcomment : ∀ after, ¬ EndsComment (text :: rest) after)
      (hline : IsLine lines number line rest) (hword : StartsNested word) :
      IsTrueOf lines (.unterminatedComment number)
  | unclosed {word inside : List Char} {b : Bracket} {number : Nat} {line text : List Char}
      {rest : List (List Char)} (hread : ReadsUpTo lines word ((b.opener :: text) :: rest))
      (hrest : Reads (text :: rest) inside) (hinside : WellNested inside)
      (hline : IsLine lines number line rest) (hword : StartsNested word) :
      IsTrueOf lines (.unclosed b number)

theorem IsLine.unique {lines rest : List (List Char)} {number number' : Nat}
    {line line' : List Char} (h : IsLine lines number line rest)
    (h' : IsLine lines number' line' rest) : number = number' ∧ line = line' := by
  obtain ⟨before, hlines, rfl⟩ := h
  obtain ⟨before', hlines', rfl⟩ := h'
  have heq : before ++ [line] ++ rest = before' ++ [line'] ++ rest := by
    simp [← hlines, ← hlines']
  obtain ⟨rfl, hline⟩ := List.append_inj' (List.append_cancel_right heq) rfl
  exact ⟨rfl, List.singleton_inj.1 hline⟩

theorem IsLine.next {lines rest : List (List Char)} {number : Nat} {line line' : List Char}
    (h : IsLine lines number line (line' :: rest)) : IsLine lines (number + 1) line' rest := by
  obtain ⟨before, rfl, rfl⟩ := h
  exact ⟨before ++ [line], List.append_cons _ _ _, by simp⟩

/-! ## The scanner from a point on -/

theorem placeLines_cons_eq_error_iff {mode : Mode} {stack : OpenBrackets} {l : Line}
    {lines : List Line} {e : ScanError} :
    placeLines mode stack (l :: lines) = .error e ↔ l.balance stack = .error e ∨
      ∃ inner, l.balance stack = .ok inner ∧ placeLines l.finish inner lines = .error e := by
  rw [placeLines]
  cases l.balance stack with
  | error e' => simp
  | ok inner =>
      dsimp only
      cases hplaced : placeLines l.finish inner lines <;> simp [hplaced]

theorem lex_bracket {number : Nat} {c : Char} (hc : IsBracket c) (text : List Char) :
    lex number .code (c :: text) =
      ([.ofChar c] ++ (lex number .code text).1, (lex number .code text).2) := by
  obtain ⟨hquote, hslash⟩ := isQuote_of_isBracket hc
  exact lex_code_cons hquote fun heq ↦ absurd heq hslash

section

variable (number : Nat) (line : List Char) (stack : OpenBrackets)

theorem balance_append (xs ys : List Lexeme) : balance number line stack (xs ++ ys) =
    (balance number line stack xs).bind fun inner ↦ balance number line inner ys := by
  induction xs generalizing stack with
  | nil => rfl
  | cons x xs ih =>
      cases x with
      | closer b =>
          cases stack with
          | nil => rfl
          | cons top outer =>
              by_cases hb : top.1 = b
              · simp [balance, hb, ih]
              · simp [balance, hb, Except.bind]
      | _ => exact ih _

theorem balance_solid (n : Nat) :
    balance number line stack (List.replicate n .solid) = .ok stack := by
  induction n with
  | zero => rfl
  | succ n ih => exact ih

theorem balance_ofChar_of_not_isBracket {c : Char} (h : ¬ IsBracket c) :
    balance number line stack [.ofChar c] = .ok stack := by
  obtain ⟨hopener, hcloser⟩ := not_isBracket_iff.1 h
  rw [Lexeme.ofChar, hopener, hcloser]
  dsimp only
  split <;> rfl

end

/-- The line in which a point lies. -/
structure Cursor where
  number : Nat
  line : List Char

namespace Cursor

/-- What is left of the line of a point has the number and the text of all of it. -/
def linesFrom (p : Cursor) (mode : Mode) : List (List Char) → List Line
  | [] => []
  | text :: rest =>
    { readLine p.number mode text with text := p.line } ::
      readLines (p.number + 1) (readLine p.number mode text).finish.afterLine rest

/-- The scanner goes on from a point and refuses what is left. -/
def Refuses (p : Cursor) (mode : Mode) (stack : OpenBrackets) (left : List (List Char))
    (e : ScanError) : Prop :=
  placeLines mode stack (p.linesFrom mode left) = .error e

def next (p : Cursor) (rest : List (List Char)) : Cursor := ⟨p.number + 1, rest.headD []⟩

/-- What is left begins in the line of the point. -/
def IsIn (p : Cursor) (lines : List (List Char)) : List (List Char) → Prop
  | [] => True
  | _ :: rest => IsLine lines p.number p.line rest

variable {p : Cursor} {stack : OpenBrackets} {lines left after rest : List (List Char)}
  {text : List Char} {e : ScanError}

theorem IsIn.next (h : p.IsIn lines (text :: rest)) : (p.next rest).IsIn lines rest := by
  cases rest with
  | nil => trivial
  | cons line rest => exact IsLine.next h

theorem linesFrom_next (mode : Mode) (rest : List (List Char)) :
    (p.next rest).linesFrom mode rest = readLines (p.number + 1) mode rest := by
  cases rest <;> rfl

/-- Where the rest of a line begins with whole lexemes, the scanner goes on after these. -/
theorem refuses_iff_of_lex {mode mode' : Mode} {text' : List Char} (lexemes : List Lexeme)
    (hlex : lex p.number mode text =
      (lexemes ++ (lex p.number mode' text').1, (lex p.number mode' text').2))
    {inner : OpenBrackets} (hinner : balance p.number p.line stack lexemes = .ok inner) :
    p.Refuses mode stack (text :: rest) e ↔ p.Refuses mode' inner (text' :: rest) e := by
  simp only [Refuses, linesFrom, placeLines_cons_eq_error_iff, Line.balance, readLine, hlex,
    balance_append, hinner, Except.bind]

/-- Where the rest of a line ends in no string, the scanner goes on with the next line. -/
theorem refuses_iff_next {mode finish : Mode} {lexemes : List Lexeme}
    (hlex : lex p.number mode text = (lexemes, finish))
    (hlexemes : balance p.number p.line stack lexemes = .ok stack)
    (hfinish : finish.afterLine = finish) :
    p.Refuses mode stack (text :: rest) e ↔ (p.next rest).Refuses finish stack rest e := by
  rw [Refuses, linesFrom, placeLines_cons_eq_error_iff, Refuses, linesFrom_next]
  simp only [Line.balance, readLine, hlex, hlexemes, hfinish]
  cases finish with
  | string quote => cases hfinish
  | _ => simp

theorem refuses_iff_next_of_not_holdsEnd {opened : Nat} (h : ¬ HoldsEnd text) :
    p.Refuses (.comment opened) stack (text :: rest) e ↔
      (p.next rest).Refuses (.comment opened) stack rest e :=
  refuses_iff_next (lex_of_not_holdsEnd h) (balance_solid _ _ _ _) rfl

theorem exists_of_endsComment (h : EndsComment left after) (hp : p.IsIn lines left)
    (opened : Nat) (stack : OpenBrackets) : ∃ q : Cursor, q.IsIn lines after ∧
      ∀ e, p.Refuses (.comment opened) stack left e ↔ q.Refuses .code stack after e := by
  induction h generalizing p with
  | @here inside text rest hinside =>
      have hlex : lex p.number (.comment opened) (inside ++ '*' :: '/' :: text) =
          ((List.replicate inside.length .solid ++ [.commentEnd]) ++ (lex p.number .code text).1,
            (lex p.number .code text).2) := by
        rw [lex_comment_end hinside, List.append_assoc]
        rfl
      refine ⟨p, hp, fun e ↦ refuses_iff_of_lex _ hlex ?_⟩
      rw [balance_append, balance_solid]
      rfl
  | later hline _ ih =>
      obtain ⟨q, hq, hrefuses⟩ := ih hp.next
      exact ⟨q, hq, fun e ↦ (refuses_iff_next_of_not_holdsEnd hline).trans (hrefuses e)⟩

theorem refuses_of_forall_not_endsComment (h : ∀ after, ¬ EndsComment left after) (opened : Nat)
    (stack : OpenBrackets) :
    p.Refuses (.comment opened) stack left (.unterminatedComment opened) := by
  induction left generalizing p with
  | nil => rfl
  | cons line rest ih =>
      by_cases hline : HoldsEnd line
      · obtain ⟨inside, text, rfl, hinside⟩ := exists_first_end hline
        exact absurd (.here hinside) (h _)
      · rw [refuses_iff_next_of_not_holdsEnd hline]
        exact ih fun after hafter ↦ h after (.later hline hafter)

/-- A piece that is no bracket changes nothing for the scanner. -/
theorem exists_of_skips (h : Skips left after) (hp : p.IsIn lines left) (stack : OpenBrackets) :
    ∃ q : Cursor, q.IsIn lines after ∧
      ∀ e, p.Refuses .code stack left e ↔ q.Refuses .code stack after e := by
  cases h with
  | newline => exact ⟨_, hp.next, fun e ↦ refuses_iff_next rfl rfl rfl⟩
  | remark => exact ⟨_, hp.next, fun e ↦ refuses_iff_next rfl rfl rfl⟩
  | comment hend =>
      obtain ⟨q, hq, hrefuses⟩ := exists_of_endsComment hend hp p.number stack
      exact ⟨q, hq, fun e ↦ (refuses_iff_of_lex [.solid] rfl rfl).trans (hrefuses e)⟩
  | string hquote hinside text rest =>
      refine ⟨p, hp, fun e ↦ refuses_iff_of_lex [.solid] ?_ rfl⟩
      rw [lex_code_quote hquote, lex_string_end hquote hinside]
      rfl
  | other hbracket hquote hslash rest =>
      exact ⟨p, hp, fun e ↦ refuses_iff_of_lex [_] (lex_code_cons hquote hslash)
        (balance_ofChar_of_not_isBracket _ _ _ hbracket)⟩

theorem refuses_opener_iff (b : Bracket) :
    p.Refuses .code stack ((b.opener :: text) :: rest) e ↔
      p.Refuses .code ((b, p.number) :: stack) (text :: rest) e := by
  refine refuses_iff_of_lex _ (lex_bracket ⟨b, .inl rfl⟩ text) ?_
  rw [ofChar_opener]
  rfl

theorem refuses_closer_iff (b : Bracket) (number : Nat) :
    p.Refuses .code ((b, number) :: stack) ((b.closer :: text) :: rest) e ↔
      p.Refuses .code stack (text :: rest) e := by
  refine refuses_iff_of_lex _ (lex_bracket ⟨b, .inr rfl⟩ text) ?_
  rw [ofChar_closer, balance, if_pos rfl]
  rfl

/-- The scanner reaches a point with the brackets open that are left open before it, and the ones
that were open at its start stay where they are. -/
theorem exists_of_readsUpTo {word : List Char} (h : ReadsUpTo left word after)
    (hp : p.IsIn lines left) (stack : OpenBrackets) {inner : List Bracket}
    (hword : nestWord [] word = some inner) :
    ∃ (q : Cursor) (top : OpenBrackets), q.IsIn lines after ∧ top.map Prod.fst = inner ∧
      ∀ e, p.Refuses .code stack left e ↔ q.Refuses .code (top ++ stack) after e := by
  induction h generalizing inner with
  | start =>
      obtain rfl := Option.some.inj hword
      exact ⟨p, [], hp, rfl, fun e ↦ Iff.rfl⟩
  | skip _ hskips ih =>
      obtain ⟨q, top, hq, htop, hrefuses⟩ := ih hword
      obtain ⟨q', hq', hskip⟩ := exists_of_skips hskips hq (top ++ stack)
      exact ⟨q', top, hq', htop, fun e ↦ (hrefuses e).trans (hskip e)⟩
  | bracket _ hc ih =>
      rw [nestWord_concat] at hword
      obtain ⟨before, hbefore, hlast⟩ := Option.bind_eq_some_iff.1 hword
      obtain ⟨q, top, hq, htop, hrefuses⟩ := ih hbefore
      obtain ⟨b, rfl | rfl⟩ := hc
      · rw [nest_opener, ← htop] at hlast
        obtain rfl := Option.some.inj hlast
        exact ⟨q, (b, q.number) :: top, hq, rfl,
          fun e ↦ (hrefuses e).trans (refuses_opener_iff b)⟩
      · obtain rfl := exists_of_nest_closer hlast
        obtain ⟨⟨b', number⟩, outer, rfl, hb, houter⟩ := List.map_eq_cons_iff.1 htop
        obtain rfl : b' = b := hb
        exact ⟨q, outer, hq, houter,
          fun e ↦ (hrefuses e).trans (refuses_closer_iff b' number)⟩

/-- The first line of some lines. -/
def first (lines : List (List Char)) : Cursor := ⟨1, lines.headD []⟩

theorem isIn_first (lines : List (List Char)) : (first lines).IsIn lines lines := by
  cases lines with
  | nil => trivial
  | cons line rest => exact ⟨[], rfl, rfl⟩

theorem refuses_first_iff {lines : List (List Char)} :
    (first lines).Refuses .code [] lines e ↔
      placeLines .code [] (readLines 1 .code lines) = .error e := by
  cases lines <;> rfl

theorem IsIn.eq_of_isLine {number : Nat} {line : List Char} (hp : p.IsIn lines (text :: rest))
    (hline : IsLine lines number line rest) : p = ⟨number, line⟩ := by
  obtain ⟨hnumber, hline⟩ := IsLine.unique hp hline
  exact congrArg₂ mk hnumber hline

/-- The scanner comes to a point of a line unless a bracket before it closes nothing or another. -/
theorem exists_of_startsNested {word : List Char} {number : Nat} {line : List Char}
    (hread : ReadsUpTo lines word (text :: rest)) (hline : IsLine lines number line rest)
    (hword : StartsNested word) : ∃ top : OpenBrackets,
      nestWord [] word = some (top.map Prod.fst) ∧ ∀ e, (first lines).Refuses .code [] lines e ↔
        (mk number line).Refuses .code top (text :: rest) e := by
  obtain ⟨inner, hinner⟩ := hword.exists_nestWord
  obtain ⟨q, top, hq, rfl, hrefuses⟩ := exists_of_readsUpTo hread (isIn_first lines) [] hinner
  obtain rfl := hq.eq_of_isLine hline
  rw [List.append_nil] at hrefuses
  exact ⟨top, hinner, hrefuses⟩

theorem refuses_unexpectedCloser {b : Bracket} (h : ∀ outer, stack.map Prod.fst ≠ b :: outer) :
    p.Refuses .code stack ((b.closer :: text) :: rest) (.unexpectedCloser b p.number p.line) := by
  rw [Refuses, linesFrom, placeLines_cons_eq_error_iff]
  have hbalance (lexemes : List Lexeme) :
      balance p.number p.line stack (.closer b :: lexemes) =
        .error (.unexpectedCloser b p.number p.line) := by
    cases stack with
    | nil => rfl
    | cons top outer => rw [balance, if_neg fun hb ↦ h (outer.map Prod.fst) (by rw [← hb]; rfl)]
  refine .inl ?_
  simp only [Line.balance, readLine, lex_bracket ⟨b, .inr rfl⟩, ofChar_closer,
    List.singleton_append, hbalance]

theorem refuses_unterminatedString {quote : Char} (hquote : isQuote quote = true)
    (h : ∀ inside after, Quoted quote inside → text ≠ inside ++ quote :: after) :
    p.Refuses .code stack ((quote :: text) :: rest) (.unterminatedString p.number p.line) := by
  have hlex : lex p.number (.string quote) text = ([], .string quote) := by
    refine (exists_quoted_or_lex p.number quote text).resolve_left ?_
    rintro ⟨inside, after, htext, hinside⟩
    exact h inside after hinside htext
  rw [Refuses, linesFrom, placeLines_cons_eq_error_iff]
  refine .inl ?_
  simp only [Line.balance, readLine, lex_code_quote hquote, hlex, balance]

/-- The scanner refuses a source for what is true of it. -/
theorem refuses_of_isTrueOf (h : e.IsTrueOf lines) : (first lines).Refuses .code [] lines e := by
  cases h with
  | unexpectedCloser hread hline hword hopen =>
      obtain ⟨top, htop, hrefuses⟩ := exists_of_startsNested hread hline hword
      rw [hrefuses]
      refine refuses_unexpectedCloser fun outer houter ↦ ?_
      rw [houter] at htop
      rcases hopen with hnested | ⟨b', ⟨before, inside, rfl, hinside⟩, hb⟩
      · cases (hnested.nestWord_eq []).symm.trans htop
      · rw [nestWord_append] at htop
        obtain ⟨stack, -, hafter⟩ := Option.bind_eq_some_iff.1 htop
        rw [nestWord_cons, nest_opener, Option.bind_some, hinside.nestWord_eq] at hafter
        exact hb (List.cons_eq_cons.1 (Option.some.inj hafter)).1
  | unterminatedString hread hquote hstring hline hword =>
      obtain ⟨top, -, hrefuses⟩ := exists_of_startsNested hread hline hword
      rw [hrefuses]
      exact refuses_unterminatedString hquote hstring
  | @unterminatedComment _ number line text rest hread hcomment hline hword =>
      obtain ⟨top, -, hrefuses⟩ := exists_of_startsNested hread hline hword
      rw [hrefuses, refuses_iff_of_lex [.solid] rfl rfl]
      exact refuses_of_forall_not_endsComment hcomment number top
  | @unclosed _ inside b number line text rest hread hrest hinside hline hword =>
      obtain ⟨top, -, hrefuses⟩ := exists_of_startsNested hread hline hword
      obtain ⟨q, more, -, hmore, hend⟩ := exists_of_readsUpTo (ReadsUpTo.nil_iff.2 hrest)
        (p := mk number line) hline ((b, number) :: top) (hinside.nestWord_eq [])
      obtain rfl := List.map_eq_nil_iff.1 hmore
      rw [hrefuses, refuses_opener_iff, hend]
      rfl

end Cursor

/-! ## Every refusal has its reason -/

theorem ReadsUpTo.exists_isLine {lines rest : List (List Char)} {text word : List Char}
    (h : ReadsUpTo lines word (text :: rest)) {stack : List Bracket}
    (hword : nestWord [] word = some stack) : ∃ number line, IsLine lines number line rest := by
  obtain ⟨q, -, hq, -⟩ := Cursor.exists_of_readsUpTo h (Cursor.isIn_first lines) [] hword
  exact ⟨q.number, q.line, hq⟩

/-- A bracket can be read on, or is where the source goes wrong. -/
theorem ReadsUpTo.exists_nestWord_or {lines rest : List (List Char)} {c : Char}
    {text word : List Char} (h : ReadsUpTo lines word ((c :: text) :: rest)) (hc : IsBracket c)
    {stack : List Bracket} (hword : nestWord [] word = some stack) :
    (∃ inner, nestWord [] (word ++ [c]) = some inner) ∨ ∃ e : ScanError, e.IsTrueOf lines := by
  have hstart := startsNested_of_nestWord h.isBracket hword
  obtain ⟨number, line, hline⟩ := h.exists_isLine hword
  rw [nestWord_concat, hword, Option.bind_some]
  obtain ⟨b, rfl | rfl⟩ := hc
  · exact .inl ⟨b :: stack, nest_opener stack b⟩
  cases stack with
  | nil =>
      have hnested := (wellNested_iff h.isBracket).2 hword
      exact .inr ⟨_, .unexpectedCloser h hline hstart (.inl hnested)⟩
  | cons b' outer =>
      by_cases hb : b' = b
      · exact .inl ⟨outer, by rw [hb, nest_closer]⟩
      · obtain ⟨before, inside, hsplit, -, hinside⟩ := exists_innermost h.isBracket hword
        have hopen : LeavesOpen word b' := ⟨before, inside, hsplit, hinside⟩
        exact .inr ⟨_, .unexpectedCloser h hline hstart (.inr ⟨b', hopen, hb⟩)⟩

/-- What has been read so far is the beginning of a balanced source or of one that goes wrong. -/
theorem ReadsUpTo.exists_wellNested_or_isTrueOf {lines left : List (List Char)} {word : List Char}
    (h : ReadsUpTo lines word left) {stack : List Bracket} (hword : nestWord [] word = some stack) :
    (∃ word, Reads lines word ∧ WellNested word) ∨ ∃ e : ScanError, e.IsTrueOf lines := by
  -- A comment may take whole lines with it, so that the induction is on the length of what is left.
  induction hn : (unlines left).length using Nat.strongRecOn generalizing left word stack with
  | ind n ih =>
      have hstart := startsNested_of_nestWord h.isBracket hword
      cases left with
      | nil =>
          cases stack with
          | nil => exact .inl ⟨word, nil_iff.1 h, (wellNested_iff h.isBracket).2 hword⟩
          | cons b outer =>
              obtain ⟨before, inside, rfl, hbefore, hinside⟩ := exists_innermost h.isBracket hword
              obtain ⟨text, rest, hread, hrest⟩ := h.split
              obtain ⟨number, line, hline⟩ := hread.exists_isLine hbefore
              have hfront := startsNested_of_nestWord hread.isBracket hbefore
              exact .inr ⟨_, .unclosed hread (nil_iff.1 hrest) hinside hline hfront⟩
      | cons text rest =>
          obtain ⟨number, line, hline⟩ := h.exists_isLine hword
          cases text with
          | nil =>
              have hskips : Skips ([] :: rest) rest := .newline rest
              exact ih _ (hn ▸ hskips.length_lt) (h.skip hskips) hword rfl
          | cons c text =>
              rcases exists_skips_or c text rest with
                hc | ⟨after, hskips⟩ | ⟨hquote, hstring⟩ | ⟨tail, htext, hcomment⟩
              · rcases h.exists_nestWord_or hc hword with ⟨inner, hinner⟩ | hfault
                · have hlength : (unlines (text :: rest)).length < n := by
                    rw [← hn, length_unlines_cons, length_unlines_cons, List.length_cons]
                    omega
                  exact ih _ hlength (h.bracket hc) hinner rfl
                · exact .inr hfault
              · exact ih _ (hn ▸ hskips.length_lt) (h.skip hskips) hword rfl
              · exact .inr ⟨_, .unterminatedString h hquote hstring hline hstart⟩
              · rw [htext] at h
                exact .inr ⟨_, .unterminatedComment h hcomment hline hstart⟩

/-- The scanner refuses a source exactly for what is true of it. -/
theorem scan_eq_error_iff {source : List Char} {e : ScanError} :
    scan source = .error e ↔ e.IsTrueOf (sourceTexts source) := by
  have hrefuses {e : ScanError} (h : e.IsTrueOf (sourceTexts source)) : scan source = .error e :=
    Cursor.refuses_first_iff.1 (Cursor.refuses_of_isTrueOf h)
  constructor
  · intro h
    -- What is refused is not balanced. So something is true of it, and it is refused for that.
    rcases ReadsUpTo.start.exists_wellNested_or_isTrueOf rfl with hbalanced | ⟨e', he'⟩
    · obtain ⟨placed, hplaced⟩ := exists_scan_iff_balanced.2 hbalanced
      cases h.symm.trans hplaced
    · obtain rfl := Except.error.inj (h.symm.trans (hrefuses he'))
      exact he'
  · exact hrefuses

end Typings.Layout

namespace Typings.Formatter

open Layout

/-- The layout refuses a source exactly for what is true of it, so that no source goes wrong in two
ways. -/
theorem layout_refused_iff (indent : Option Int) (source : String) (r : Refusal) :
    layout indent source = .error (.refused r) ↔
      ∃ e, r = .layout e ∧ e.IsTrueOf (sourceTexts source.toList) := by
  simp only [← scan_eq_error_iff]
  rw [layout, format, formatChars]
  cases scan source.toList with
  | error e => simp [Except.map, eq_comm]
  | ok placed =>
      dsimp only
      cases placed.mapM (PlacedLine.render indent) <;> simp [Except.map]

/-- Blank lines count, and what stands in a comment does not. -/
example : layout (some 2) "f(\n\n/* [ */ x]" =
    .error (.refused (.layout (.unexpectedCloser .square 3 "/* [ */ x]".toList))) :=
  rfl

end Typings.Formatter
