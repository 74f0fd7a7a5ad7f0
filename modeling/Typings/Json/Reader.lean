import Typings.Json.Token

/-!
# Reading JSON text

A stack machine consumes the tokens: the stack holds the containers that are open, innermost first,
and `Want` says what may come next. Of two members of an object with the same name the later value
counts, at the place of the earlier one.
-/

namespace Typings.Json

/-! ## What remains after a token is shorter -/

theorem prepend_eq_ok {n : Nat} {r : Except Flaw (List Nat × List Char)}
    {p : List Nat × List Char} :
    prepend n r = .ok p ↔ ∃ units, r = .ok (units, p.2) ∧ p.1 = n :: units := by
  obtain ⟨us, rest⟩ := p
  cases r with
  | error flaw => simp [prepend]
  | ok q => simp only [prepend, Except.ok.injEq, Prod.ext_iff]; grind

theorem length_of_scanString {start cs : List Char} {p : List Nat × List Char}
    (h : scanString start cs = .ok p) : p.2.length < cs.length := by
  fun_induction scanString start cs generalizing p with
  | case2 => cases h; simp
  | case4 =>
    rename_i ih
    obtain ⟨units, hu, -⟩ := prepend_eq_ok.1 h
    have := ih hu
    simp only [List.length_cons] at this ⊢
    omega
  | case7 | case10 =>
    rename_i ih
    obtain ⟨units, hu, -⟩ := prepend_eq_ok.1 h
    have := ih hu
    simp only [List.length_cons] at this ⊢
    omega
  | _ => simp at h

theorem length_dropWhile_le (p : Char → Bool) (cs : List Char) :
    (cs.dropWhile p).length ≤ cs.length :=
  (List.dropWhile_suffix p).length_le

theorem length_of_scanWhole {cs : List Char} {p : List Char × List Char}
    (h : scanWhole cs = some p) : p.2.length < cs.length := by
  unfold scanWhole at h
  split at h
  · cases h
  · next c rest =>
    have hd := length_dropWhile_le Typings.Numeral.isDigit rest
    split at h
    · cases h; simp
    · split at h
      · cases h
        simp only [List.length_cons]
        omega
      · cases h

theorem length_scanFraction_le (cs : List Char) : (scanFraction cs).2.length ≤ cs.length := by
  unfold scanFraction
  split
  · next d rest =>
    have hd := length_dropWhile_le Typings.Numeral.isDigit rest
    split
    · simp only [List.length_cons]
      omega
    · exact Nat.le_refl _
  · exact Nat.le_refl _

theorem length_scanExponent_le (cs : List Char) : (scanExponent cs).2.length ≤ cs.length := by
  have scan (negative : Bool) (digits : List Char) (h : digits.length ≤ cs.length) :
      (scanExponent.scan cs negative digits).2.length ≤ cs.length := by
    unfold scanExponent.scan
    split
    · exact Nat.le_refl _
    · exact Nat.le_trans (length_dropWhile_le _ _) h
  unfold scanExponent
  split
  · split <;> exact scan _ _ (by simp only [List.length_cons]; omega)
  · split <;> exact scan _ _ (by simp only [List.length_cons]; omega)
  · exact Nat.le_refl _

theorem length_of_scanNumber {cs : List Char} {p : Number × List Char}
    (h : scanNumber cs = some p) : p.2.length < cs.length := by
  have unsigned {negative : Bool} {cs : List Char} {p : Number × List Char}
      (h : scanUnsigned negative cs = some p) : p.2.length < cs.length := by
    unfold scanUnsigned at h
    split at h
    · cases h
    · next hw =>
      cases h
      exact Nat.lt_of_le_of_lt (Nat.le_trans (length_scanExponent_le _) (length_scanFraction_le _))
        (length_of_scanWhole hw)
  unfold scanNumber at h
  split at h
  · exact Nat.lt_succ_of_lt (unsigned h)
  · exact unsigned h

theorem length_of_afterPrefix? {start cs rest : List Char} (hstart : start ≠ [])
    (h : afterPrefix? start cs = some rest) : rest.length < cs.length := by
  have le {start cs rest : List Char} (h : afterPrefix? start cs = some rest) :
      rest.length ≤ cs.length := by
    fun_induction afterPrefix? start cs with
    | case1 => cases h; exact Nat.le_refl _
    | case3 _ _ _ ih => exact Nat.le_succ_of_le (ih h)
    | _ => cases h
  cases start with
  | nil => exact absurd rfl hstart
  | cons p ps =>
    cases cs with
    | nil => cases h
    | cons c cs =>
      simp only [afterPrefix?] at h
      split at h
      · exact Nat.lt_succ_of_le (le h)
      · cases h

theorem length_of_keyword? {cs : List Char} {p : Json × List Char} (h : keyword? cs = some p) :
    p.2.length < cs.length := by
  obtain ⟨⟨word, v⟩, hmem, hp⟩ := List.exists_of_findSome?_eq_some h
  obtain ⟨rest, hrest, rfl⟩ := Option.map_eq_some_iff.1 hp
  refine length_of_afterPrefix? ?_ hrest
  have nonempty : ∀ entry ∈ keywords, entry.1 ≠ [] := by simp [keywords]
  exact nonempty _ hmem

theorem length_lex (σ : Text.StandIns) {cs : List Char} (h : cs ≠ []) :
    (lex σ cs).2.length < cs.length := by
  cases cs with
  | nil => exact absurd rfl h
  | cons c rest =>
    simp only [lex]
    split
    · exact Nat.lt_succ_self _
    split
    · unfold stringToken
      split
      · next hs => exact Nat.lt_succ_of_lt (length_of_scanString hs)
      · exact Nat.zero_lt_succ _
    split
    · next hk => exact length_of_keyword? hk
    unfold numberToken
    split
    · exact Nat.zero_lt_succ _
    · next hn =>
      split
      · exact length_of_scanNumber hn
      · exact Nat.zero_lt_succ _

/-! ## The machine -/

/-- A container that is not closed yet, with what it holds so far. An object also carries the name
of the member whose value is being read. -/
inductive Frame where
  | arr (items : List Json)
  | obj (members : List (String × Json)) (name : String)

inductive Want where
  | value
  | itemOrClose
  | name
  | nameOrClose
  | colon
  | separator
  | nothing (v : Json)

structure Machine where
  want : Want
  stack : List Frame

namespace Machine

def start : Machine := ⟨.value, []⟩

/-- Hands a complete value to the innermost open container. -/
def deliver (v : Json) : List Frame → Machine
  | [] => ⟨.nothing v, []⟩
  | .arr items :: outer => ⟨.separator, .arr (items ++ [v]) :: outer⟩
  | .obj members name :: outer => ⟨.separator, .obj (Assoc.insert name v members) name :: outer⟩

def takeValue (stack : List Frame) (token : Token) (text : List Char) : Except Flaw Machine :=
  match token with
  | .scalar v => .ok (deliver v stack)
  | .text s => .ok (deliver (.str s) stack)
  | .openArray => .ok ⟨.itemOrClose, .arr [] :: stack⟩
  | .openObject => .ok ⟨.nameOrClose, .obj [] "" :: stack⟩
  | .flawed flaw => .error flaw
  | _ => .error (.malformed .valueExpected text)

/-- A name is a string; any other token is a flaw of the object, not of the token. -/
def takeName (stack : List Frame) (token : Token) (text : List Char) : Except Flaw Machine :=
  match token, text, stack with
  | .text s, _, .obj members _ :: outer => .ok ⟨.colon, .obj members s :: outer⟩
  | .flawed flaw, '"' :: _, _ => .error flaw
  | _, _, _ => .error (.malformed .nameExpected text)

/-- One token, which stands at the head of `text`. -/
def step (m : Machine) (token : Token) (text : List Char) : Except Flaw Machine :=
  match m.want, token, m.stack with
  | .value, _, stack => takeValue stack token text
  | .itemOrClose, .closeArray, .arr items :: outer => .ok (deliver (.arr items) outer)
  | .itemOrClose, _, stack => takeValue stack token text
  | .name, _, stack => takeName stack token text
  | .nameOrClose, .closeObject, .obj members _ :: outer => .ok (deliver (.obj members) outer)
  | .nameOrClose, _, stack => takeName stack token text
  | .colon, .colon, stack => .ok ⟨.value, stack⟩
  | .colon, _, _ => .error (.malformed .colonExpected text)
  | .separator, .comma, .arr items :: outer => .ok ⟨.value, .arr items :: outer⟩
  | .separator, .comma, .obj members name :: outer => .ok ⟨.name, .obj members name :: outer⟩
  | .separator, .closeArray, .arr items :: outer => .ok (deliver (.arr items) outer)
  | .separator, .closeObject, .obj members _ :: outer => .ok (deliver (.obj members) outer)
  | .separator, _, _ => .error (.malformed .commaExpected text)
  | .nothing _, _, _ => .error (.malformed .extraData text)

/-- The end of the text. -/
def finish (m : Machine) : Except Flaw Json :=
  match m.want with
  | .nothing v => .ok v
  | .value | .itemOrClose => .error (.malformed .valueExpected [])
  | .name | .nameOrClose => .error (.malformed .nameExpected [])
  | .colon => .error (.malformed .colonExpected [])
  | .separator => .error (.malformed .commaExpected [])

def run (σ : Text.StandIns) (m : Machine) : List Char → Except Flaw Json
  | [] => m.finish
  | c :: rest =>
    if isSpace c then run σ m rest
    else match m.step (lex σ (c :: rest)).1 (c :: rest) with
      | .ok m => run σ m (lex σ (c :: rest)).2
      | .error flaw => .error flaw
termination_by cs => cs.length
decreasing_by
  · exact Nat.lt_succ_self _
  · exact length_lex σ (List.cons_ne_nil _ _)

end Machine

/-! ## Texts -/

/-- A place in a text: the number of characters before it, its line and its column, the last two
counted from one. Only line feeds end lines. -/
structure Place where
  offset : Nat
  line : Nat
  column : Nat
deriving DecidableEq

/-- The place in `text` at which `rest` remains. -/
def Place.of (text rest : List Char) : Place :=
  let before := text.take (text.length - rest.length)
  { offset := before.length
    line := before.count '\n' + 1
    column := (before.reverse.takeWhile (· != '\n')).length + 1 }

inductive ReadError where
  | malformed (reason : Reason) (place : Place)
  | numeralTooLong (digits : Nat)
deriving DecidableEq

/-- Reads a text, with stand-ins for its lone surrogates. -/
def readWith (σ : Text.StandIns) (text : List Char) : Except ReadError Json :=
  let outcome : Except Flaw Json := match text with
    | '\ufeff' :: _ => .error (.malformed .byteOrderMark text)
    | _ => Machine.start.run σ text
  match outcome with
  | .ok v => .ok v
  | .error (.malformed reason rest) => .error (.malformed reason (Place.of text rest))
  | .error (.numeralTooLong digits) => .error (.numeralTooLong digits)

def read (text : List Char) : Except ReadError Json := readWith (standIns text) text

def Reason.message : Reason → String
  | byteOrderMark => "Unexpected UTF-8 BOM (decode using utf-8-sig)"
  | valueExpected => "Expecting value"
  | nameExpected => "Expecting property name enclosed in double quotes"
  | colonExpected => "Expecting ':' delimiter"
  | commaExpected => "Expecting ',' delimiter"
  | extraData => "Extra data"
  | unterminatedString => "Unterminated string starting at"
  | controlCharacter => "Invalid control character at"
  | unknownEscape => "Invalid \\escape"
  | unicodeEscape => "Invalid \\uXXXX escape"

def Place.message (p : Place) : String :=
  "line " ++ toString p.line ++ " column " ++ toString p.column ++ " (char " ++ toString p.offset
    ++ ")"

def ReadError.message : ReadError → String
  | malformed reason place => reason.message ++ ": " ++ place.message
  | numeralTooLong digits =>
    "Exceeds the limit (" ++ toString Typings.Numeral.digitLimit ++
      " digits) for integer string conversion: value has " ++ toString digits ++
      " digits; use sys.set_int_max_str_digits() to increase the limit"

end Typings.Json
