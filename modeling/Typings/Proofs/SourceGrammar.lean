import Typings.Proofs.Comments

/-!
# The grammar of sources

What the brackets of a source are is said here by rules that know of no mode: a line is read from
left to right, a string or a comment is one piece of it, and a comment may take whole lines with it.
Where the rules read some lines, the scanner goes through the same brackets; and lines that lead the
scanner from code to code can be read.
-/

namespace Typings.Layout

open Comment

/-! ## Rules -/

def IsBracket (c : Char) : Prop := ∃ b : Bracket, c = b.opener ∨ c = b.closer

/-- The inside of a string: no quote of its own kind stands in it unless a backslash escapes it. -/
inductive Quoted (quote : Char) : List Char → Prop
  | nil : Quoted quote []
  | escape (c : Char) {cs : List Char} (h : Quoted quote cs) : Quoted quote ('\\' :: c :: cs)
  | char {c : Char} {cs : List Char} (hquote : c ≠ quote) (hescape : c ≠ '\\')
      (h : Quoted quote cs) : Quoted quote (c :: cs)

/-- Some lines begin inside a comment, and these are left after its end. -/
inductive EndsComment : List (List Char) → List (List Char) → Prop
  | here {inside text : List Char} {rest : List (List Char)} (h : ¬ HoldsEnd (inside ++ ['*'])) :
      EndsComment ((inside ++ '*' :: '/' :: text) :: rest) (text :: rest)
  | later {line : List Char} {rest after : List (List Char)} (hline : ¬ HoldsEnd line)
      (h : EndsComment rest after) : EndsComment (line :: rest) after

/-- The brackets of some lines outside strings and comments, in order. -/
inductive Reads : List (List Char) → List Char → Prop
  | nil : Reads [] []
  | newline {rest : List (List Char)} {word : List Char} (h : Reads rest word) :
      Reads ([] :: rest) word
  | remark (text : List Char) {rest : List (List Char)} {word : List Char} (h : Reads rest word) :
      Reads (('/' :: '/' :: text) :: rest) word
  | comment {text : List Char} {rest after : List (List Char)} {word : List Char}
      (hend : EndsComment (text :: rest) after) (h : Reads after word) :
      Reads (('/' :: '*' :: text) :: rest) word
  | string {quote : Char} {inside text : List Char} {rest : List (List Char)} {word : List Char}
      (hquote : isQuote quote = true) (hinside : Quoted quote inside)
      (h : Reads (text :: rest) word) :
      Reads ((quote :: (inside ++ quote :: text)) :: rest) word
  | bracket {c : Char} {text : List Char} {rest : List (List Char)} {word : List Char}
      (hc : IsBracket c) (h : Reads (text :: rest) word) : Reads ((c :: text) :: rest) (c :: word)
  | other {c : Char} {text : List Char} {rest : List (List Char)} {word : List Char}
      (hbracket : ¬ IsBracket c) (hquote : isQuote c = false)
      (hslash : c = '/' → text.head? ≠ some '/' ∧ text.head? ≠ some '*')
      (h : Reads (text :: rest) word) : Reads ((c :: text) :: rest) word

/-- Some lines begin with a piece that is no bracket, and these are left after it. -/
inductive Skips : List (List Char) → List (List Char) → Prop
  | newline (rest : List (List Char)) : Skips ([] :: rest) rest
  | remark (text : List Char) (rest : List (List Char)) : Skips (('/' :: '/' :: text) :: rest) rest
  | comment {text : List Char} {rest after : List (List Char)}
      (hend : EndsComment (text :: rest) after) : Skips (('/' :: '*' :: text) :: rest) after
  | string {quote : Char} {inside : List Char} (hquote : isQuote quote = true)
      (hinside : Quoted quote inside) (text : List Char) (rest : List (List Char)) :
      Skips ((quote :: (inside ++ quote :: text)) :: rest) (text :: rest)
  | other {c : Char} {text : List Char} (hbracket : ¬ IsBracket c) (hquote : isQuote c = false)
      (hslash : c = '/' → text.head? ≠ some '/' ∧ text.head? ≠ some '*')
      (rest : List (List Char)) : Skips ((c :: text) :: rest) (text :: rest)

theorem Skips.reads {left after : List (List Char)} {word : List Char} (h : Skips left after)
    (hafter : Reads after word) : Reads left word := by
  cases h with
  | newline => exact .newline hafter
  | remark text => exact .remark text hafter
  | comment hend => exact .comment hend hafter
  | string hquote hinside => exact .string hquote hinside hafter
  | other hbracket hquote hslash => exact .other hbracket hquote hslash hafter

/-! ## Lexemes -/

theorem not_isBracket_iff {c : Char} :
    ¬ IsBracket c ↔ Bracket.ofOpener? c = none ∧ Bracket.ofCloser? c = none := by
  unfold IsBracket Bracket.ofOpener? Bracket.ofCloser?
  constructor
  · intro h
    constructor
    · split
      · exact absurd ⟨.brace, .inl rfl⟩ h
      · exact absurd ⟨.square, .inl rfl⟩ h
      · exact absurd ⟨.round, .inl rfl⟩ h
      · rfl
    · split
      · exact absurd ⟨.brace, .inr rfl⟩ h
      · exact absurd ⟨.square, .inr rfl⟩ h
      · exact absurd ⟨.round, .inr rfl⟩ h
      · rfl
  · rintro ⟨hopener, hcloser⟩ ⟨b, rfl | rfl⟩
    · cases b <;> cases hopener
    · cases b <;> cases hcloser

theorem ofChar_opener (b : Bracket) : Lexeme.ofChar b.opener = .opener b := by
  cases b <;> rfl

theorem ofChar_closer (b : Bracket) : Lexeme.ofChar b.closer = .closer b := by
  cases b <;> rfl

theorem nest_ofChar_of_not_isBracket {c : Char} (h : ¬ IsBracket c) (stack : List Bracket) :
    nest stack (.ofChar c) = some stack := by
  obtain ⟨hopener, hcloser⟩ := not_isBracket_iff.1 h
  rw [Lexeme.ofChar, hopener, hcloser]
  dsimp only
  split <;> cases stack <;> rfl

theorem lex_comment_end {number opened : Nat} {inside text : List Char}
    (h : ¬ HoldsEnd (inside ++ ['*'])) :
    lex number (.comment opened) (inside ++ '*' :: '/' :: text) =
      (List.replicate inside.length .solid ++ .commentEnd :: (lex number .code text).1,
        (lex number .code text).2) := by
  induction inside with
  | nil => rfl
  | cons c inside ih =>
      rw [List.cons_append, holdsEnd_cons, not_or] at h
      have hend : ∀ rest, c = '*' → inside ++ '*' :: '/' :: text = '/' :: rest → False := by
        intro rest hc hrest
        cases inside with
        | nil => cases hrest
        | cons d ds => exact h.1 ⟨hc, by rw [(List.cons_eq_cons.1 hrest).1]; rfl⟩
      rw [List.cons_append, lex.eq_3 _ _ _ _ hend, ih h.2]
      rfl

theorem lex_string_end {number : Nat} {quote : Char} {inside : List Char}
    (hquote : isQuote quote = true) (h : Quoted quote inside) (text : List Char) :
    lex number (.string quote) (inside ++ quote :: text) = lex number .code text := by
  induction h with
  | nil =>
      have hescape : quote ≠ '\\' := by
        rintro rfl
        cases hquote
      rw [List.nil_append, lex.eq_6 _ _ _ _ (fun _ _ hc _ ↦ hescape hc) fun hc _ ↦ hescape hc,
        if_pos rfl]
  | escape c _ ih => exact ih
  | char hne hescape _ ih =>
      rw [List.cons_append, lex.eq_6 _ _ _ _ (fun _ _ hc _ ↦ hescape hc) fun hc _ ↦ hescape hc,
        if_neg hne, ih]

theorem lex_code_cons {number : Nat} {c : Char} {text : List Char} (hquote : isQuote c = false)
    (hslash : c = '/' → text.head? ≠ some '/' ∧ text.head? ≠ some '*') :
    lex number .code (c :: text) =
      (.ofChar c :: (lex number .code text).1, (lex number .code text).2) := by
  have hremark : ∀ tail, c = '/' → text = '/' :: tail → False := by
    rintro tail hc rfl
    exact (hslash hc).1 rfl
  have hcomment : ∀ rest, c = '/' → text = '*' :: rest → False := by
    rintro rest hc rfl
    exact (hslash hc).2 rfl
  rw [lex.eq_9 _ _ _ hremark hcomment, if_neg (by simp [hquote])]
  rfl

theorem lex_code_quote {number : Nat} {quote : Char} (hquote : isQuote quote = true)
    (text : List Char) :
    lex number .code (quote :: text) =
      (.solid :: (lex number (.string quote) text).1, (lex number (.string quote) text).2) := by
  have hslash : quote ≠ '/' := by
    rintro rfl
    cases hquote
  rw [lex.eq_9 _ _ _ (fun _ hc _ ↦ hslash hc) fun _ hc _ ↦ hslash hc, if_pos hquote]
  rfl

/-! ## Steps of the scanner -/

namespace State

/-- The state after some lines. -/
def after (s : State) (lines : List (List Char)) : Option State := lines.foldlM step s

theorem map_snd_run (s : State) (lines : List (List Char)) :
    (s.run lines).map Prod.snd = s.after lines := by
  induction lines generalizing s with
  | nil => rfl
  | cons text rest ih =>
      rw [run, after, List.foldlM_cons]
      cases s.step text with
      | none => rfl
      | some s' =>
          change Option.map _ (Option.map _ _) = s'.after rest
          rw [Option.map_map, ← ih s']
          rfl

/-- Where a line begins with whole lexemes, the scanner goes through these first. -/
theorem after_cons_of_lex {mode mode' : Mode} {text text' : List Char} (lexemes : List Lexeme)
    (h : lex 0 mode text = (lexemes ++ (lex 0 mode' text').1, (lex 0 mode' text').2))
    (stack : List Bracket) (rest : List (List Char)) :
    (State.mk mode stack).after (text :: rest) = (lexemes.foldlM nest stack).bind fun inner ↦
      (State.mk mode' inner).after (text' :: rest) := by
  have hstep : (State.mk mode stack).step text = (lexemes.foldlM nest stack).bind fun inner ↦
      (State.mk mode' inner).step text' := by
    simp only [step, h]
    obtain ⟨more, finish⟩ := lex 0 mode' text'
    cases finish with
    | string quote =>
        symm
        rw [Option.bind_eq_none_iff]
        exact fun _ _ ↦ rfl
    | _ =>
        simp only [List.foldlM_append]
        cases lexemes.foldlM nest stack <;> rfl
  simp only [after, List.foldlM_cons, hstep]
  cases lexemes.foldlM nest stack <;> rfl

variable (stack : List Bracket) {text : List Char} (rest : List (List Char))

theorem after_code_nil : (State.mk .code stack).after ([] :: rest) =
    (State.mk .code stack).after rest :=
  rfl

theorem after_comment : (State.mk .code stack).after (('/' :: '*' :: text) :: rest) =
    (State.mk (.comment 0) stack).after (text :: rest) :=
  after_cons_of_lex [.solid] rfl stack rest

theorem after_quote {quote : Char} (hquote : isQuote quote = true) :
    (State.mk .code stack).after ((quote :: text) :: rest) =
      (State.mk (.string quote) stack).after (text :: rest) := by
  have hsolid : [Lexeme.solid].foldlM nest stack = some stack := foldlM_nest_solid stack 1
  rw [after_cons_of_lex [.solid] (lex_code_quote hquote text), hsolid]
  rfl

theorem after_string_end {quote : Char} {inside : List Char} (hquote : isQuote quote = true)
    (h : Quoted quote inside) : (State.mk (.string quote) stack).after
      ((inside ++ quote :: text) :: rest) = (State.mk .code stack).after (text :: rest) :=
  after_cons_of_lex [] (lex_string_end hquote h text) stack rest

theorem after_char {c : Char} (hquote : isQuote c = false)
    (hslash : c = '/' → text.head? ≠ some '/' ∧ text.head? ≠ some '*') :
    (State.mk .code stack).after ((c :: text) :: rest) =
      (nest stack (.ofChar c)).bind fun inner ↦ (State.mk .code inner).after (text :: rest) := by
  rw [after_cons_of_lex [.ofChar c] (lex_code_cons hquote hslash)]
  cases h : nest stack (.ofChar c) <;> simp [h]

theorem after_comment_end {inside : List Char} (h : ¬ HoldsEnd (inside ++ ['*'])) :
    (State.mk (.comment 0) stack).after ((inside ++ '*' :: '/' :: text) :: rest) =
      (State.mk .code stack).after (text :: rest) := by
  have hlex : lex 0 (.comment 0) (inside ++ '*' :: '/' :: text) =
      ((List.replicate inside.length .solid ++ [.commentEnd]) ++ (lex 0 .code text).1,
        (lex 0 .code text).2) := by
    rw [lex_comment_end h, List.append_assoc]
    rfl
  rw [after_cons_of_lex _ hlex, List.foldlM_append, foldlM_nest_solid]
  cases stack <;> rfl

theorem after_comment_line (h : ¬ HoldsEnd text) :
    (State.mk (.comment 0) stack).after (text :: rest) =
      (State.mk (.comment 0) stack).after rest := by
  have hstep : (State.mk (.comment 0) stack).step text = some ⟨.comment 0, stack⟩ := by
    rw [step, lex_of_not_holdsEnd h]
    dsimp only
    rw [foldlM_nest_solid]
    rfl
  rw [after, List.foldlM_cons, hstep]
  rfl

end State

/-! ## The scanner goes through what is read -/

theorem EndsComment.after_eq {lines after : List (List Char)} (h : EndsComment lines after)
    (stack : List Bracket) :
    (State.mk (.comment 0) stack).after lines = (State.mk .code stack).after after := by
  induction h with
  | here h => exact State.after_comment_end stack _ h
  | later hline _ ih => exact (State.after_comment_line stack _ hline).trans ih

theorem Skips.after_eq {left after : List (List Char)} (h : Skips left after)
    (stack : List Bracket) :
    (State.mk .code stack).after left = (State.mk .code stack).after after := by
  cases h with
  | newline => rfl
  | remark => rfl
  | comment hend => rw [State.after_comment, hend.after_eq]
  | string hquote hinside =>
      rw [State.after_quote _ _ hquote, State.after_string_end _ _ hquote hinside]
  | other hbracket hquote hslash =>
      rw [State.after_char _ _ hquote hslash, nest_ofChar_of_not_isBracket hbracket,
        Option.bind_some]

/-- The open brackets after a word of brackets. -/
def nestWord (stack : List Bracket) (word : List Char) : Option (List Bracket) :=
  word.foldlM (fun stack c ↦ nest stack (.ofChar c)) stack

theorem nestWord_cons (stack : List Bracket) (c : Char) (word : List Char) :
    nestWord stack (c :: word) = (nest stack (.ofChar c)).bind (nestWord · word) :=
  rfl

theorem isQuote_of_isBracket {c : Char} (h : IsBracket c) : isQuote c = false ∧ c ≠ '/' := by
  obtain ⟨b, rfl | rfl⟩ := h
  · cases b <;> decide
  · cases b <;> decide

theorem State.after_bracket {c : Char} (hc : IsBracket c) (stack : List Bracket)
    (text : List Char) (rest : List (List Char)) :
    (State.mk .code stack).after ((c :: text) :: rest) =
      (nest stack (.ofChar c)).bind fun inner ↦ (State.mk .code inner).after (text :: rest) := by
  obtain ⟨hquote, hslash⟩ := isQuote_of_isBracket hc
  exact State.after_char _ _ hquote fun heq ↦ absurd heq hslash

theorem Reads.after_eq {lines : List (List Char)} {word : List Char} (h : Reads lines word)
    (stack : List Bracket) :
    (State.mk .code stack).after lines = (nestWord stack word).map (State.mk .code) := by
  induction h generalizing stack with
  | nil => rfl
  | newline _ ih => exact ih stack
  | remark text _ ih => exact ih stack
  | comment hend _ ih => exact ((Skips.comment hend).after_eq stack).trans (ih stack)
  | string hquote hinside _ ih =>
      exact ((Skips.string hquote hinside _ _).after_eq stack).trans (ih stack)
  | bracket hc _ ih =>
      rw [State.after_bracket hc, nestWord_cons, Option.map_bind]
      exact Option.bind_congr fun inner _ ↦ ih inner
  | other hbracket hquote hslash _ ih =>
      exact ((Skips.other hbracket hquote hslash _).after_eq stack).trans (ih stack)

theorem Reads.isBracket {lines : List (List Char)} {word : List Char} (h : Reads lines word) :
    ∀ c ∈ word, IsBracket c := by
  induction h with
  | nil => exact List.forall_mem_nil _
  | bracket hc _ ih => exact List.forall_mem_cons.2 ⟨hc, ih⟩
  | newline _ ih | remark _ _ ih | comment _ _ ih | string _ _ _ ih | other _ _ _ _ ih => exact ih

/-! ## What the scanner goes through can be read -/

/-- A string is closed by a quote of its own kind, or takes the rest of its line. -/
theorem exists_quoted_or_lex (number : Nat) (quote : Char) (cs : List Char) :
    (∃ inside text, cs = inside ++ quote :: text ∧ Quoted quote inside) ∨
      lex number (.string quote) cs = ([], .string quote) := by
  match cs with
  | [] => exact .inr rfl
  | ['\\'] => exact .inr rfl
  | '\\' :: c :: rest =>
      refine (exists_quoted_or_lex number quote rest).imp ?_ id
      rintro ⟨inside, text, rfl, hinside⟩
      exact ⟨'\\' :: c :: inside, text, rfl, .escape c hinside⟩
  | c :: rest =>
      by_cases hescape : c = '\\'
      · subst hescape
        cases rest with
        | nil => exact .inr rfl
        | cons d rest =>
            refine (exists_quoted_or_lex number quote rest).imp ?_ id
            rintro ⟨inside, text, rfl, hinside⟩
            exact ⟨'\\' :: d :: inside, text, rfl, .escape d hinside⟩
      · by_cases hquote : c = quote
        · exact .inl ⟨[], rest, by rw [hquote]; rfl, .nil⟩
        · rw [lex.eq_6 _ _ _ _ (fun _ _ hc _ ↦ hescape hc) fun hc _ ↦ hescape hc,
            if_neg hquote]
          refine (exists_quoted_or_lex number quote rest).imp_left ?_
          rintro ⟨inside, text, rfl, hinside⟩
          exact ⟨c :: inside, text, rfl, .char hquote hescape hinside⟩

/-- A text that holds an end of a comment can be cut at the first one. -/
theorem exists_first_end {cs : List Char} (h : HoldsEnd cs) :
    ∃ inside text, cs = inside ++ '*' :: '/' :: text ∧ ¬ HoldsEnd (inside ++ ['*']) := by
  induction cs with
  | nil => simp [HoldsEnd] at h
  | cons c cs ih =>
      by_cases hfirst : c = '*' ∧ cs.head? = some '/'
      · obtain ⟨rfl, hhead⟩ := hfirst
        obtain ⟨text, rfl⟩ := List.head?_eq_some_iff.1 hhead
        have hstar : ¬ HoldsEnd ([] ++ ['*']) := by
          rw [List.nil_append, holdsEnd_cons]
          simp [HoldsEnd]
        exact ⟨[], text, rfl, hstar⟩
      · obtain ⟨inside, text, rfl, hinside⟩ := ih ((holdsEnd_cons.1 h).resolve_left hfirst)
        refine ⟨c :: inside, text, rfl, ?_⟩
        rw [List.cons_append, holdsEnd_cons]
        rintro (⟨hc, hhead⟩ | hend)
        · refine hfirst ⟨hc, ?_⟩
          cases inside with
          | nil => cases hhead
          | cons d ds => exact hhead
        · exact hinside hend

theorem length_unlines_cons (line : List Char) (rest : List (List Char)) :
    (unlines (line :: rest)).length = line.length + 1 + (unlines rest).length := by
  rw [unlines, List.flatMap_cons, List.length_append, List.length_append]
  rfl

theorem EndsComment.length_le {lines after : List (List Char)} (h : EndsComment lines after) :
    (unlines after).length ≤ (unlines lines).length := by
  induction h with
  | here =>
      rw [length_unlines_cons, length_unlines_cons, List.length_append, List.length_cons,
        List.length_cons]
      omega
  | later _ _ ih =>
      rw [length_unlines_cons]
      omega

theorem Skips.length_lt {left after : List (List Char)} (h : Skips left after) :
    (unlines after).length < (unlines left).length := by
  cases h with
  | newline =>
      rw [length_unlines_cons]
      omega
  | remark =>
      rw [length_unlines_cons]
      omega
  | comment hend =>
      have hlength := hend.length_le
      rw [length_unlines_cons] at hlength ⊢
      rw [List.length_cons, List.length_cons]
      omega
  | string =>
      rw [length_unlines_cons, length_unlines_cons, List.length_cons, List.length_append,
        List.length_cons]
      omega
  | other =>
      rw [length_unlines_cons, length_unlines_cons, List.length_cons]
      omega

theorem exists_endsComment {lines : List (List Char)} {stack stack' : List Bracket}
    (h : (State.mk (.comment 0) stack).after lines = some ⟨.code, stack'⟩) :
    ∃ after, EndsComment lines after := by
  induction lines with
  | nil => cases h
  | cons line rest ih =>
      by_cases hline : HoldsEnd line
      · obtain ⟨inside, text, rfl, hinside⟩ := exists_first_end hline
        exact ⟨text :: rest, .here hinside⟩
      · rw [State.after_comment_line stack rest hline] at h
        obtain ⟨after, hend⟩ := ih h
        exact ⟨after, .later hline hend⟩

theorem exists_quoted_of_after {quote : Char} {stack : List Bracket} {text : List Char}
    {rest : List (List Char)} {s : State}
    (h : (State.mk (.string quote) stack).after (text :: rest) = some s) :
    ∃ inside text', text = inside ++ quote :: text' ∧ Quoted quote inside := by
  refine (exists_quoted_or_lex 0 quote text).resolve_right fun hlex ↦ ?_
  have hstep : (State.mk (.string quote) stack).step text = none := by
    simp only [State.step, hlex]
  rw [State.after, List.foldlM_cons, hstep] at h
  cases h

/-- What a line goes on with is a bracket, or a piece that is none, or a piece without its end. -/
theorem exists_skips_or (c : Char) (text : List Char) (rest : List (List Char)) :
    IsBracket c ∨ (∃ after, Skips ((c :: text) :: rest) after) ∨
      (isQuote c = true ∧
        ∀ inside after, Quoted c inside → text ≠ inside ++ c :: after) ∨
      ∃ tail, c :: text = '/' :: '*' :: tail ∧ ∀ after, ¬ EndsComment (tail :: rest) after := by
  by_cases hbracket : IsBracket c
  · exact .inl hbracket
  refine .inr ?_
  by_cases hquote : isQuote c = true
  · by_cases hclosed : ∃ inside after, Quoted c inside ∧ text = inside ++ c :: after
    · obtain ⟨inside, after, hinside, rfl⟩ := hclosed
      exact .inl ⟨_, .string hquote hinside after rest⟩
    · exact .inr (.inl ⟨hquote, fun inside after hinside htext ↦
        hclosed ⟨inside, after, hinside, htext⟩⟩)
  by_cases hremark : c = '/' ∧ text.head? = some '/'
  · obtain ⟨rfl, hhead⟩ := hremark
    obtain ⟨tail, rfl⟩ := List.head?_eq_some_iff.1 hhead
    exact .inl ⟨rest, .remark tail rest⟩
  by_cases hcomment : c = '/' ∧ text.head? = some '*'
  · obtain ⟨rfl, hhead⟩ := hcomment
    obtain ⟨tail, rfl⟩ := List.head?_eq_some_iff.1 hhead
    by_cases hended : ∃ after, EndsComment (tail :: rest) after
    · obtain ⟨after, hend⟩ := hended
      exact .inl ⟨after, .comment hend⟩
    · exact .inr (.inr ⟨tail, rfl, not_exists.1 hended⟩)
  · have hslash : c = '/' → text.head? ≠ some '/' ∧ text.head? ≠ some '*' :=
      fun hc ↦ ⟨fun hhead ↦ hremark ⟨hc, hhead⟩, fun hhead ↦ hcomment ⟨hc, hhead⟩⟩
    exact .inl ⟨_, .other hbracket (by simpa using hquote) hslash rest⟩

/-- The first piece of a line can be read, whatever is read after it. -/
theorem exists_piece {c : Char} {text : List Char} {rest : List (List Char)}
    {stack stack' : List Bracket}
    (h : (State.mk .code stack).after ((c :: text) :: rest) = some ⟨.code, stack'⟩) :
    ∃ lines inner, (State.mk .code inner).after lines = some ⟨.code, stack'⟩ ∧
      (unlines lines).length < (unlines ((c :: text) :: rest)).length ∧
        ∀ word, Reads lines word → ∃ word', Reads ((c :: text) :: rest) word' := by
  rcases exists_skips_or c text rest with
    hc | ⟨after, hskips⟩ | ⟨hquote, hstring⟩ | ⟨tail, htext, hcomment⟩
  · rw [State.after_bracket hc] at h
    obtain ⟨inner, -, h⟩ := Option.bind_eq_some_iff.1 h
    refine ⟨text :: rest, inner, h, ?_, fun word hword ↦ ⟨c :: word, .bracket hc hword⟩⟩
    rw [length_unlines_cons, length_unlines_cons, List.length_cons]
    omega
  · rw [hskips.after_eq] at h
    exact ⟨after, stack, h, hskips.length_lt, fun word hword ↦ ⟨word, hskips.reads hword⟩⟩
  · rw [State.after_quote _ _ hquote] at h
    obtain ⟨inside, after, htext, hinside⟩ := exists_quoted_of_after h
    exact absurd htext (hstring inside after hinside)
  · rw [htext, State.after_comment] at h
    obtain ⟨after, hend⟩ := exists_endsComment h
    exact absurd hend (hcomment after)

/-- Lines that lead from code to code can be read. -/
theorem exists_reads {lines : List (List Char)} {stack stack' : List Bracket}
    (h : (State.mk .code stack).after lines = some ⟨.code, stack'⟩) :
    ∃ word, Reads lines word := by
  -- A string leaves a part of its line, and a comment a part of some later line, so that the
  -- induction is on the length of what is left.
  induction hn : (unlines lines).length using Nat.strongRecOn generalizing lines stack with
  | ind n ih =>
      match lines with
      | [] => exact ⟨[], .nil⟩
      | [] :: rest =>
          have hlength : (unlines rest).length < n := by
            rw [← hn, length_unlines_cons]
            omega
          have hrest : (State.mk .code stack).after rest = some ⟨.code, stack'⟩ := h
          obtain ⟨word, hword⟩ := ih _ hlength hrest rfl
          exact ⟨word, .newline hword⟩
      | (c :: text) :: rest =>
          obtain ⟨after, inner, hafter, hlength, hpiece⟩ := exists_piece h
          obtain ⟨word, hword⟩ := ih _ (hn ▸ hlength) hafter rfl
          exact hpiece word hword

end Typings.Layout
