import Typings.Comment
import Typings.Proofs.Scanning
import Typings.Proofs.SourceLines

/-!
# The lines of a comment

The texts of a comment are cut into lines after every end of a comment in them has been broken up.
So no line but the last ends the comment, wherever the texts were cut and whatever stands before.
-/

namespace Typings

namespace Comment

open Text

/-! ## Ends of comments -/

/-- The end of a comment occurs in a text. -/
def HoldsEnd (cs : List Char) : Prop := ['*', '/'] <:+: cs

theorem holdsEnd_cons {c : Char} {cs : List Char} :
    HoldsEnd (c :: cs) ↔ (c = '*' ∧ cs.head? = some '/') ∨ HoldsEnd cs := by
  rw [HoldsEnd, HoldsEnd, List.infix_cons_iff, List.cons_prefix_cons]
  cases cs with
  | nil => simp
  | cons d ds => simp [List.cons_prefix_cons, eq_comm]

theorem not_holdsEnd_append {xs ys : List Char} (hxs : '*' ∉ xs) (hys : ¬ HoldsEnd ys) :
    ¬ HoldsEnd (xs ++ ys) := by
  induction xs with
  | nil => exact hys
  | cons x xs ih =>
      obtain ⟨hx, hrest⟩ : '*' ≠ x ∧ '*' ∉ xs := by simpa using hxs
      rw [List.cons_append, holdsEnd_cons]
      rintro (⟨rfl, -⟩ | h)
      · exact hx rfl
      · exact ih hrest h

theorem head?_escapeEnd (cs : List Char) : (escapeEnd cs).head? = cs.head? := by
  fun_cases escapeEnd cs <;> rfl

theorem not_holdsEnd_escapeEnd (cs : List Char) : ¬ HoldsEnd (escapeEnd cs) := by
  fun_induction escapeEnd cs with
  | case1 rest ih => simpa [holdsEnd_cons] using ih
  | case2 c rest hend ih =>
      rw [holdsEnd_cons, head?_escapeEnd]
      rintro (⟨rfl, hhead⟩ | h)
      · obtain ⟨tail, rfl⟩ := List.head?_eq_some_iff.1 hhead
        exact hend tail rfl rfl
      · exact ih h
  | case3 => simp [HoldsEnd]

/-- Every end of a comment is broken up by a backslash, from the left, and nothing else changes. -/
def EscapesEnd (escape : List Char → List Char) : Prop :=
  (∀ cs, ¬ HoldsEnd cs → escape cs = cs) ∧
    ∀ xs ys, ¬ HoldsEnd (xs ++ ['*']) →
      escape (xs ++ '*' :: '/' :: ys) = xs ++ '*' :: '\\' :: '/' :: escape ys

theorem escapesEnd_escapeEnd : EscapesEnd escapeEnd := by
  constructor
  · intro cs h
    fun_induction escapeEnd cs with
    | case1 rest ih => exact absurd (holdsEnd_cons.2 (.inl ⟨rfl, rfl⟩)) h
    | case2 c rest hend ih => rw [ih fun hrest ↦ h (holdsEnd_cons.2 (.inr hrest))]
    | case3 => rfl
  · intro xs ys h
    induction xs with
    | nil => rfl
    | cons x xs ih =>
        rw [List.cons_append, holdsEnd_cons, not_or] at h
        -- The end after `xs` is the first one, so none begins at `x`.
        have hend : ∀ rest, x = '*' → xs ++ '*' :: '/' :: ys = '/' :: rest → False := by
          intro rest hx hrest
          cases xs with
          | nil => cases hrest
          | cons y xs => exact h.1 ⟨hx, by rw [(List.cons_eq_cons.1 hrest).1]; rfl⟩
        rw [List.cons_append, List.cons_append, escapeEnd.eq_2 _ _ hend, ih h.2]

/-! ## Lines -/

/-- The lines of one text, of which the first begins with the tag. -/
def spoken (tag : String) (text : Option String) : List (List Char) :=
  match Note.present text with
  | some s => splitLines (tag.toList ++ ' ' :: escapeEnd s.toList)
  | none => []

end Comment

namespace Note

open Comment Text

/-- The lines of the texts of a comment. -/
def spokenLines (note : Note) : List (List Char) :=
  spoken "@remarks" note.description ++ spoken "@deprecated" note.deprecated

/-- The lines of a comment as they are laid out, behind their common margin. -/
def laidOut (note : Note) : List (List Char) :=
  "/**".toList :: note.spokenLines.map (fun line ↦ dropEnd isBlank (" * ".toList ++ line)) ++
    [" */".toList]

end Note

namespace Comment

open Text

theorem toList_lines {tag : String} {text : String} (htag : IsUnbroken tag.toList) :
    (lines tag text).map String.toList =
      (splitLines (tag.toList ++ ' ' :: escapeEnd text.toList)).map ("* ".toList ++ ·) := by
  have hspace : IsUnbroken [' '] := by decide
  rw [List.append_cons, splitLines_append_of_isUnbroken (htag.append hspace) (by simp), lines]
  cases splitLines (escapeEnd text.toList) with
  | nil => simp
  | cons first rest => simp [Function.comp_def]

theorem toList_present_lines {tag : String} (text : Option String) (htag : IsUnbroken tag.toList) :
    (((Note.present text).map (lines tag)).getD []).map String.toList =
      (spoken tag text).map ("* ".toList ++ ·) := by
  rw [spoken]
  cases Note.present text with
  | none => rfl
  | some s => exact toList_lines htag

theorem isUnbroken_of_mem_spoken {tag : String} {text : Option String} {line : List Char}
    (h : line ∈ spoken tag text) : IsUnbroken line := by
  rw [spoken] at h
  split at h
  · exact isUnbroken_of_mem_splitLines h
  · cases h

theorem not_holdsEnd_of_mem_spoken {tag : String} {text : Option String} {line : List Char}
    (htag : '*' ∉ tag.toList) (h : line ∈ spoken tag text) : ¬ HoldsEnd line := by
  rw [spoken] at h
  split at h
  · intro hend
    refine not_holdsEnd_append htag ?_ (hend.trans (infix_of_mem_splitLines h))
    rw [holdsEnd_cons]
    rintro (⟨heq, -⟩ | hend)
    · cases heq
    · exact not_holdsEnd_escapeEnd _ hend
  · cases h

end Comment

namespace Note

open Comment Text

variable {note : Note}

theorem attach_of_isEmpty (h : note.isEmpty = true) (text : String) : note.attach text = text := by
  rw [attach, block, if_pos h, List.nil_append, String.intercalate_singleton]

theorem toList_block (h : note.isEmpty = false) :
    note.block.map String.toList =
      "/**".toList :: note.spokenLines.map ("* ".toList ++ ·) ++ ["*/".toList] := by
  rw [block, h, if_neg Bool.false_ne_true, spokenLines, List.map_append, List.map_append,
    List.map_append, toList_present_lines _ (by decide), toList_present_lines _ (by decide),
    List.map_append]
  simp

theorem block_eq (h : note.isEmpty = false) :
    note.block =
      "/**" :: note.spokenLines.map (fun line ↦ String.ofList ("* ".toList ++ line)) ++ ["*/"] := by
  have hinj : Function.Injective String.toList := fun _ _ ↦ String.toList_injective
  refine List.map_injective_iff.2 hinj ?_
  rw [toList_block h]
  simp [Function.comp_def]

theorem not_holdsEnd_of_mem_spokenLines {line : List Char} (h : line ∈ note.spokenLines) :
    ¬ HoldsEnd line := by
  rcases List.mem_append.1 h with h | h
  · exact not_holdsEnd_of_mem_spoken (by decide) h
  · exact not_holdsEnd_of_mem_spoken (by decide) h

theorem isUnbroken_of_mem_spokenLines {line : List Char} (h : line ∈ note.spokenLines) :
    IsUnbroken line := by
  rcases List.mem_append.1 h with h | h
  · exact isUnbroken_of_mem_spoken h
  · exact isUnbroken_of_mem_spoken h

theorem isUnbroken_of_mem_block {line : List Char} (h : line ∈ note.block.map String.toList) :
    IsUnbroken line := by
  cases hempty : note.isEmpty with
  | true =>
      rw [block, if_pos hempty] at h
      cases h
  | false =>
      have hstar : IsUnbroken "* ".toList := by decide
      rw [toList_block hempty] at h
      rcases List.mem_append.1 h with h | h
      · rcases List.mem_cons.1 h with rfl | h
        · decide
        · obtain ⟨spoken, hspoken, rfl⟩ := List.mem_map.1 h
          exact hstar.append (isUnbroken_of_mem_spokenLines hspoken)
      · rw [List.mem_singleton.1 h]
        decide

/-- A text with a comment before it is the lines of the comment, each ended, and the text. -/
theorem toList_attach (h : note.isEmpty = false) (text : String) :
    (note.attach text).toList =
      Layout.unlines ("/**".toList :: note.spokenLines.map ("* ".toList ++ ·) ++ ["*/".toList]) ++
        text.toList := by
  rw [← toList_block h, attach, String.toList_intercalate, List.map_append]
  exact intercalate_concat _ _

theorem attach_append (note : Note) (text more : String) :
    note.attach (text ++ more) = note.attach text ++ more := by
  cases h : note.isEmpty with
  | true => rw [attach_of_isEmpty h, attach_of_isEmpty h]
  | false => simp [String.ext_iff, toList_attach h]

theorem splitLines_attach (h : note.isEmpty = false) (text : String) :
    splitLines (note.attach text).toList =
      ("/**".toList :: note.spokenLines.map ("* ".toList ++ ·) ++ ["*/".toList]) ++
        splitLines text.toList := by
  rw [toList_attach h, splitLines_unlines_append fun line hline ↦ ?_]
  exact isUnbroken_of_mem_block (toList_block h ▸ hline)

/-- The lines between the first and the last of a comment, as they are scanned. -/
def starredLines (note : Note) : List (List Char) :=
  note.spokenLines.map fun line ↦ '*' :: dropEnd isBlank (' ' :: line)

theorem not_holdsEnd_of_mem_starredLines {line : List Char} (h : line ∈ note.starredLines) :
    ¬ HoldsEnd line := by
  obtain ⟨spoken, hspoken, rfl⟩ := List.mem_map.1 h
  have hstarred : ¬ HoldsEnd ('*' :: ' ' :: spoken) := by
    simp [holdsEnd_cons, not_holdsEnd_of_mem_spokenLines hspoken]
  have hstart : '*' :: dropEnd isBlank (' ' :: spoken) <+: '*' :: ' ' :: spoken :=
    List.cons_prefix_cons.2 ⟨rfl, prefix_dropEnd _ _⟩
  exact fun hend ↦ hstarred (hend.trans hstart.isInfix)

theorem sourceTexts_attach (h : note.isEmpty = false) (text : String) :
    Layout.sourceTexts (note.attach text).toList =
      "/**".toList :: note.starredLines ++ ["*/".toList] ++ Layout.sourceTexts text.toList := by
  have htrim (line : List Char) :
      trim ("* ".toList ++ line) = '*' :: dropEnd isBlank (' ' :: line) :=
    trim_cons (by decide) (' ' :: line)
  have hopen : trim "/**".toList = "/**".toList := by decide
  have hclose : trim "*/".toList = "*/".toList := by decide
  rw [Layout.sourceTexts, splitLines_attach h, List.map_append, List.map_append, List.map_cons,
    List.map_map, hopen]
  simp only [List.map_cons, hclose, List.map_nil, starredLines, Function.comp_def, htrim,
    Layout.sourceTexts]

end Note

end Typings
