import Typings.Proofs.TypeReader
import Typings.Proofs.Words

/-!
# The tokens of a text

Texts are cut into tokens in one pass. A word ends where a character comes that is not of words, so
a template whose signs stand beside a text leaves the tokens of that text as they are.
-/

namespace Typings

namespace TypeTree

/-! ## The lexer -/

/-- What the characters since the last token belong to. -/
inductive Mode where
  | gap
  | word (cs : List Char)
  | text (cs : List Char)
  | bracket

structure Lexer where
  done : List Token := []
  mode : Mode := .gap

/-- The tokens, if the text ends here. -/
def Lexer.tokens? : Lexer → Option (List Token)
  | ⟨done, .gap⟩ => some done
  | ⟨done, .word cs⟩ => some (done ++ [.word (String.ofList cs)])
  | ⟨_, .text _⟩ | ⟨_, .bracket⟩ => none

/-- The first character after some tokens. -/
def Lexer.start (done : List Token) (c : Char) : Option Lexer :=
  if isWordChar c then some ⟨done, .word [c]⟩
  else
    match c with
    | ' ' => some ⟨done, .gap⟩
    | '"' => some ⟨done, .text []⟩
    | '[' => some ⟨done, .bracket⟩
    | '|' => some ⟨done ++ [.joint .union], .gap⟩
    | '&' => some ⟨done ++ [.joint .intersect], .gap⟩
    | '<' => some ⟨done ++ [.less], .gap⟩
    | '>' => some ⟨done ++ [.greater], .gap⟩
    | ',' => some ⟨done ++ [.comma], .gap⟩
    | _ => none

/-- Escapes are not read. -/
def Lexer.step : Lexer → Char → Option Lexer
  | ⟨done, .gap⟩, c => start done c
  | ⟨done, .word cs⟩, c =>
    if isWordChar c then some ⟨done, .word (cs ++ [c])⟩
    else start (done ++ [.word (String.ofList cs)]) c
  | ⟨done, .text cs⟩, c =>
    if c = '"' then some ⟨done ++ [.text (String.ofList cs)], .gap⟩
    else if c = '\\' then none
    else some ⟨done, .text (cs ++ [c])⟩
  | ⟨done, .bracket⟩, c => if c = ']' then some ⟨done ++ [.brackets], .gap⟩ else none

def lex (s : String) : Option (List Token) := (s.toList.foldlM Lexer.step {}).bind Lexer.tokens?

/-- The tree that a text is read as. -/
def parse (s : String) : Option TypeTree := (lex s).bind read

/-! ## Texts of tokens -/

/-- From a gap on, some characters add some tokens. -/
def Lexes (cs : List Char) (tokens : List Token) : Prop :=
  ∀ done, ∃ s, cs.foldlM Lexer.step ⟨done, .gap⟩ = some s ∧ s.tokens? = some (done ++ tokens)

/-- After whole tokens some characters add some tokens, and leave a gap. -/
def Separates (cs : List Char) (tokens : List Token) : Prop :=
  ∀ s done, s.tokens? = some done → cs.foldlM Lexer.step s = some ⟨done ++ tokens, .gap⟩

variable {cs ds ms : List Char} {ts us vs : List Token}

theorem Lexes.lex_eq {s : String} (h : Lexes s.toList ts) : lex s = some ts := by
  obtain ⟨s', hrun, htokens⟩ := h []
  rw [lex, hrun]
  exact htokens

theorem start_of_isWordChar {done : List Token} {c : Char} (hc : isWordChar c = true) :
    Lexer.start done c = some ⟨done, .word [c]⟩ := by
  unfold Lexer.start
  rw [if_pos hc]

theorem step_of_tokens? {s : Lexer} {done : List Token} {c : Char} (h : s.tokens? = some done)
    (hc : isWordChar c = false) : s.step c = Lexer.start done c := by
  match s with
  | ⟨_, .gap⟩ => rw [← Option.some.inj h, Lexer.step]
  | ⟨_, .word _⟩ => rw [← Option.some.inj h, Lexer.step, hc, if_neg (by simp)]

theorem separates_of_start {c : Char} (hc : isWordChar c = false)
    (h : ∀ done, (Lexer.start done c).bind (cs.foldlM Lexer.step) = some ⟨done ++ ts, .gap⟩) :
    Separates (c :: cs) ts := by
  intro s done hs
  rw [List.foldlM_cons, step_of_tokens? hs hc]
  exact h done

theorem separates_union : Separates [' ', '|', ' '] [.joint .union] :=
  separates_of_start (by decide) fun _ ↦ rfl

theorem separates_intersect : Separates [' ', '&', ' '] [.joint .intersect] :=
  separates_of_start (by decide) fun _ ↦ rfl

theorem separates_brackets : Separates ['[', ']'] [.brackets] :=
  separates_of_start (by decide) fun _ ↦ rfl

theorem separates_less : Separates ['<'] [.less] :=
  separates_of_start (by decide) fun _ ↦ rfl

theorem separates_greater : Separates ['>'] [.greater] :=
  separates_of_start (by decide) fun _ ↦ rfl

theorem separates_comma : Separates [',', ' '] [.comma] :=
  separates_of_start (by decide) fun _ ↦ rfl

theorem Lexes.followed (h : Lexes cs ts) (hm : Separates ms us) : Lexes (cs ++ ms) (ts ++ us) := by
  intro done
  obtain ⟨s, hrun, htokens⟩ := h done
  refine ⟨⟨done ++ ts ++ us, .gap⟩, ?_, by simp [Lexer.tokens?]⟩
  rw [List.foldlM_append, hrun]
  exact hm s _ htokens

theorem Lexes.append (h : Lexes cs ts) (hm : Separates ms us) (h' : Lexes ds vs) :
    Lexes (cs ++ ms ++ ds) (ts ++ us ++ vs) := by
  intro done
  obtain ⟨s, hrun, htokens⟩ := h done
  obtain ⟨s', hrun', htokens'⟩ := h' (done ++ ts ++ us)
  refine ⟨s', ?_, by simpa using htokens'⟩
  rw [List.foldlM_append, List.foldlM_append, hrun, Option.bind_eq_bind, Option.bind_some,
    hm s _ htokens]
  exact hrun'

theorem Lexes.intercalate {α : Type} {xs : List α} {f : α → List Char} {g : α → List Token}
    (h : ∀ x ∈ xs, Lexes (f x) (g x)) (hm : Separates ms us) (hne : xs ≠ []) :
    Lexes (ms.intercalate (xs.map f)) (us.intercalate (xs.map g)) := by
  induction xs with
  | nil => exact absurd rfl hne
  | cons x xs ih =>
      have hx := h x List.mem_cons_self
      by_cases hnil : xs = []
      · subst hnil
        simpa using hx
      · have hxs := ih (fun y hy ↦ h y (List.mem_cons_of_mem x hy)) hnil
        simp only [List.map_cons]
        rw [List.intercalate_cons_of_ne_nil (by simpa using hnil),
          List.intercalate_cons_of_ne_nil (by simpa using hnil)]
        exact hx.append hm hxs

theorem foldlM_word {done : List Token} (h : ∀ c ∈ cs, isWordChar c = true) (ps : List Char) :
    cs.foldlM Lexer.step ⟨done, .word ps⟩ = some ⟨done, .word (ps ++ cs)⟩ := by
  induction cs generalizing ps with
  | nil => simp
  | cons c cs ih =>
      obtain ⟨hc, hcs⟩ := List.forall_mem_cons.1 h
      rw [List.foldlM_cons, Lexer.step, if_pos hc, Option.bind_eq_bind, Option.bind_some, ih hcs]
      simp

theorem lexes_word {s : String} (h : IsWord s) : Lexes s.toList [.word s] := by
  intro done
  obtain ⟨hne, hcs⟩ := h
  match hs : s.toList with
  | [] => exact absurd hs hne
  | c :: cs =>
      obtain ⟨hc, hcs⟩ := List.forall_mem_cons.1 (hs ▸ hcs)
      refine ⟨⟨done, .word (c :: cs)⟩, ?_, ?_⟩
      · rw [List.foldlM_cons, Lexer.step, start_of_isWordChar hc]
        exact foldlM_word hcs [c]
      · rw [Lexer.tokens?, ← hs, String.ofList_toList]

theorem foldlM_text {done : List Token} (h : ∀ c ∈ cs, c ≠ '"' ∧ c ≠ '\\') (ps : List Char) :
    cs.foldlM Lexer.step ⟨done, .text ps⟩ = some ⟨done, .text (ps ++ cs)⟩ := by
  induction cs generalizing ps with
  | nil => simp
  | cons c cs ih =>
      obtain ⟨⟨hquote, hescape⟩, hcs⟩ := List.forall_mem_cons.1 h
      rw [List.foldlM_cons, Lexer.step, if_neg hquote, if_neg hescape, Option.bind_eq_bind,
        Option.bind_some, ih hcs]
      simp

theorem lexes_text {s : String} (h : ∀ c ∈ s.toList, c ≠ '"' ∧ c ≠ '\\') :
    Lexes ('"' :: s.toList ++ ['"']) [.text s] := by
  intro done
  refine ⟨⟨done ++ [.text s], .gap⟩, ?_, rfl⟩
  have hopen : Lexer.step ⟨done, .gap⟩ '"' = some ⟨done, .text []⟩ := rfl
  rw [List.cons_append, List.foldlM_cons, hopen, Option.bind_eq_bind, Option.bind_some,
    List.foldlM_append, foldlM_text h []]
  simp [Lexer.step]

end TypeTree

end Typings
