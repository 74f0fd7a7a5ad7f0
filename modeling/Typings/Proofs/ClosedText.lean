import Typings.Proofs.BalancedSource

/-!
# Closed texts

A text is closed if the scanner, wherever it stands in code, comes through it to code again with the
same brackets open, whatever follows on the line. Characters without a meaning to the scanner are
closed, and so are whole strings, whole comments, and closed texts within a pair of brackets.
-/

namespace Typings

namespace Text

theorem dropEnd_cons_eq_or (p : Char → Bool) (c : Char) (xs : List Char) :
    dropEnd p (c :: xs) = c :: dropEnd p xs ∨ dropEnd p (c :: xs) = [] ∧ dropEnd p xs = [] := by
  by_cases hxs : dropEnd p xs = []
  · cases hc : p c with
    | false => exact .inl (dropEnd_cons_of_not hc)
    | true => exact .inr ⟨by rw [dropEnd, hxs]; simp [hc], hxs⟩
  · exact .inl (dropEnd_cons_of_ne_nil hxs)

end Text

namespace Layout

open Text

/-! ## Characters -/

/-- The characters with which brackets, strings and comments begin or end in code. -/
def marks : List Char := ['\x7b', '\x7d', '[', ']', '(', ')', '"', '\'', '\x60', '/']

/-- Characters that are neither marks nor line breaks. -/
def IsPlain (c : Char) : Prop := c ∉ marks ∧ isLineBreak c = false

instance (c : Char) : Decidable (IsPlain c) := inferInstanceAs (Decidable (_ ∧ _))

theorem of_notMem_marks {c : Char} (h : c ∉ marks) :
    isQuote c = false ∧ c ≠ '/' ∧ ¬ IsBracket c := by
  refine ⟨?_, ?_, ?_⟩
  · by_contra hquote
    rw [Bool.not_eq_false] at hquote
    have hmem : (c = '"' ∨ c = '\'') ∨ c = '\x60' := by simpa [isQuote] using hquote
    rcases hmem with (rfl | rfl) | rfl <;> exact h (by decide)
  · rintro rfl
    exact h (by decide)
  · rintro ⟨b, rfl | rfl⟩ <;> cases b <;> exact h (by decide)

theorem notMem_marks_of_isBlank {c : Char} (h : isBlank c = true) : c ∉ marks := by
  have hmarks : marks.any isBlank = false := by decide
  exact fun hc ↦ List.any_eq_false.1 hmarks c hc h

/-! ## Lines in code -/

namespace State

variable (stack : List Bracket)

theorem after_of_notMem_marks {c : Char} (hc : c ∉ marks) (text : List Char)
    (rest : List (List Char)) :
    (State.mk .code stack).after ((c :: text) :: rest) =
      (State.mk .code stack).after (text :: rest) := by
  obtain ⟨hquote, hslash, hbracket⟩ := of_notMem_marks hc
  rw [after_char _ _ hquote fun heq ↦ absurd heq hslash, nest_ofChar_of_not_isBracket hbracket,
    Option.bind_some]

/-- Blanks before the code of a line make no difference. -/
theorem after_trim (line : List Char) (rest : List (List Char)) :
    (State.mk .code stack).after (trim line :: rest) =
      (State.mk .code stack).after (dropEnd isBlank line :: rest) := by
  induction line with
  | nil => rfl
  | cons c line ih =>
      by_cases hc : isBlank c = true
      · have htrim : trim (c :: line) = trim line :=
          trim_append_of_forall_isBlank (List.forall_mem_singleton.2 hc) line
        rw [htrim, ih]
        rcases dropEnd_cons_eq_or isBlank c line with h | ⟨h, hline⟩
        · rw [h, after_of_notMem_marks _ (notMem_marks_of_isBlank hc)]
        · rw [h, hline]
      · rw [trim, List.dropWhile_cons_of_neg hc]

theorem after_sourceTexts (cs : List Char) :
    (State.mk .code stack).after (sourceTexts cs) =
      (State.mk .code stack).after
        (dropEnd isBlank ((splitLines cs).headD []) :: (splitLines cs).tail.map trim) := by
  cases h : splitLines cs with
  | nil =>
      rw [sourceTexts, h]
      rfl
  | cons line lines =>
      rw [sourceTexts, h, List.map_cons, after_trim]
      rfl

/-- What comes before the rest of a line is read before it. -/
theorem after_sourceTexts_append {line : List Char} (h : IsUnbroken line) (cs : List Char) :
    (State.mk .code stack).after (sourceTexts (line ++ cs)) =
      (State.mk .code stack).after
        (dropEnd isBlank (line ++ (splitLines cs).headD []) :: (splitLines cs).tail.map trim) := by
  by_cases hline : line = []
  · rw [hline]
    exact after_sourceTexts stack cs
  · rw [after_sourceTexts, splitLines_append_of_isUnbroken h hline]
    rfl

end State

/-! ## Closed texts -/

/-- A text that the scanner leaves as it has entered it. -/
def Closed (cs : List Char) : Prop :=
  ∀ stack rest, (State.mk .code stack).after (sourceTexts (cs ++ rest)) =
    (State.mk .code stack).after (sourceTexts rest)

theorem Closed.balanced {cs : List Char} (h : Closed cs) : Balanced cs := by
  have hafter := h [] []
  rw [List.append_nil] at hafter
  exact exists_scan_iff_balanced.1 (exists_scan_iff_after.2 hafter)

theorem closed_nil : Closed [] := fun _ _ ↦ rfl

theorem Closed.append {cs ds : List Char} (h : Closed cs) (h' : Closed ds) : Closed (cs ++ ds) := by
  intro stack rest
  rw [List.append_assoc, h, h']

theorem Closed.cons {c : Char} {cs : List Char} (h : Closed [c]) (h' : Closed cs) :
    Closed (c :: cs) :=
  h.append h'

theorem closed_lineFeed : Closed ['\n'] := by
  intro stack rest
  exact State.after_code_nil stack (sourceTexts rest)

theorem after_sourceTexts_char {c : Char} (hbreak : isLineBreak c = false)
    (hquote : isQuote c = false) (hslash : c ≠ '/') (hblank : isBlank c = false)
    (stack : List Bracket) (rest : List Char) :
    (State.mk .code stack).after (sourceTexts (c :: rest)) =
      (nest stack (.ofChar c)).bind fun inner ↦
        (State.mk .code inner).after (sourceTexts rest) := by
  have hline : IsUnbroken [c] := fun d hd ↦ List.mem_singleton.1 hd ▸ hbreak
  have happend := State.after_sourceTexts_append stack hline rest
  rw [List.singleton_append, List.singleton_append, dropEnd_cons_of_not hblank,
    State.after_char _ _ hquote fun heq ↦ absurd heq hslash] at happend
  rw [happend]
  exact Option.bind_congr fun inner _ ↦ (State.after_sourceTexts inner rest).symm

theorem closed_of_isPlain {c : Char} (h : IsPlain c) : Closed [c] := by
  intro stack rest
  obtain ⟨hmarks, hbreak⟩ := h
  have hline : IsUnbroken [c] := fun d hd ↦ List.mem_singleton.1 hd ▸ hbreak
  rw [State.after_sourceTexts_append stack hline, List.singleton_append, State.after_sourceTexts]
  -- A blank is trimmed if nothing but blanks follows it on its line.
  rcases dropEnd_cons_eq_or isBlank c ((splitLines rest).headD []) with hdrop | ⟨hdrop, hrest⟩
  · rw [hdrop, State.after_of_notMem_marks _ hmarks]
  · rw [hdrop, hrest]

theorem closed_plain {cs : List Char} (h : ∀ c ∈ cs, IsPlain c) : Closed cs := by
  induction cs with
  | nil => exact closed_nil
  | cons c cs ih =>
      obtain ⟨hc, hcs⟩ := List.forall_mem_cons.1 h
      exact (closed_of_isPlain hc).cons (ih hcs)

theorem Closed.bracketed {inside : List Char} (h : Closed inside) (b : Bracket) :
    Closed (b.opener :: (inside ++ [b.closer])) := by
  intro stack rest
  have hopener : isLineBreak b.opener = false ∧ isBlank b.opener = false := by
    cases b <;> decide
  have hcloser : isLineBreak b.closer = false ∧ isBlank b.closer = false := by
    cases b <;> decide
  obtain ⟨hquote, hslash⟩ := isQuote_of_isBracket ⟨b, .inl rfl⟩
  obtain ⟨hquote', hslash'⟩ := isQuote_of_isBracket ⟨b, .inr rfl⟩
  rw [List.cons_append, List.append_assoc,
    after_sourceTexts_char hopener.1 hquote hslash hopener.2, nest_opener, Option.bind_some, h,
    List.singleton_append, after_sourceTexts_char hcloser.1 hquote' hslash' hcloser.2, nest_closer,
    Option.bind_some]

theorem closed_string {cs : List Char} (hunbroken : IsUnbroken cs)
    (h : ∀ c ∈ cs, c ≠ '"' ∧ c ≠ '\\') : Closed ('"' :: (cs ++ ['"'])) := by
  intro stack rest
  have hquoted : Quoted '"' cs := by
    induction cs with
    | nil => exact .nil
    | cons c cs ih =>
        obtain ⟨⟨hquote, hescape⟩, hcs⟩ := List.forall_mem_cons.1 h
        exact .char hquote hescape (ih (List.forall_mem_cons.1 hunbroken).2 hcs)
  have hmark : IsUnbroken ['"'] := by decide
  have hline : IsUnbroken ('"' :: (cs ++ ['"'])) := hmark.append (hunbroken.append hmark)
  have hcut (tail : List Char) : dropEnd isBlank ('"' :: (cs ++ ['"']) ++ tail) =
      '"' :: (cs ++ '"' :: dropEnd isBlank tail) := by
    rw [List.cons_append, dropEnd_cons_of_not (by decide), List.append_assoc,
      List.singleton_append, dropEnd_append_cons (by decide)]
  rw [State.after_sourceTexts_append stack hline, hcut, State.after_quote stack _ (by decide),
    State.after_string_end stack _ (by decide) hquoted, State.after_sourceTexts]

theorem Closed.attach {text : String} (h : Closed text.toList) (note : Note) :
    Closed (note.attach text).toList := by
  intro stack rest
  cases hnote : note.isEmpty with
  | true => rw [Note.attach_of_isEmpty hnote, h]
  | false =>
      -- The comment stands on lines of its own, and what follows the text goes on in its last line.
      have hjoin : (note.attach text).toList ++ rest =
          (note.attach (text ++ String.ofList rest)).toList := by
        simp [Note.attach_append]
      have hrun := run_attach (text ++ String.ofList rest) hnote stack
      have hsnd : Prod.snd ∘ (fun q : List PlacedLine × State ↦
          (placedComment note stack.length ++ q.1, q.2)) = Prod.snd := rfl
      rw [hjoin, ← State.map_snd_run, hrun, Option.map_map, hsnd, State.map_snd_run,
        String.toList_append, String.toList_ofList, h]

end Layout

end Typings
