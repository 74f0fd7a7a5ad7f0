import Typings.Proofs.JsonText
import Typings.Proofs.WireGrammar
import Typings.Wire.Document

/-!
# Numerals of too many digits

A text that is no description is refused as such, with one exception: when the reader comes to an
integer of more digits than may be converted, where a value is expected, the conversion fails, and
that is no refusal. Fractions and exponents have no such limit, and nor have the digits of a string.
-/

namespace Typings

namespace Json

open Numeral (isDigit)

/-! ## Where an integer ends -/

/-- A text does not begin with a digit. -/
def LacksDigit (cs : List Char) : Prop := ∀ d, cs.head? = some d → isDigit d = false

theorem lacksDigit_cons {d : Char} {tail : List Char} :
    LacksDigit (d :: tail) ↔ isDigit d = false := by
  constructor
  · intro h
    exact h d rfl
  · rintro h _ ⟨⟩
    exact h

def afterSign : List Char → List Char
  | '-' :: digits | '+' :: digits => digits
  | digits => digits

/-- What follows the digits of an integer adds no digit, no fraction and no exponent to them. -/
structure EndsInteger (rest : List Char) : Prop where
  digit : LacksDigit rest
  fraction : ∀ tail, rest = '.' :: tail → LacksDigit tail
  exponent : ∀ e tail, rest = e :: tail → e = 'e' ∨ e = 'E' → LacksDigit (afterSign tail)

/-- A text begins with an integer of so many digits, more than may be converted. -/
def StartsOverlong (text : List Char) (n : Nat) : Prop :=
  ∃ negative ds rest, text = Number.signText negative ++ (ds ++ rest) ∧ IsWhole ds ∧
    EndsInteger rest ∧ ds.length = n ∧ Numeral.digitLimit < n

section Scan

variable {cs rest : List Char}

theorem takeWhile_isDigit_eq_nil_iff : cs.takeWhile isDigit = [] ↔ LacksDigit cs := by
  cases cs with
  | nil => exact ⟨fun _ ↦ nofun, fun _ ↦ rfl⟩
  | cons d tail =>
      rw [List.takeWhile_cons, lacksDigit_cons]
      cases isDigit d with
      | true => simp
      | false => simp

theorem scanFraction_eq_nil_iff : scanFraction cs = ([], rest) ↔
    rest = cs ∧ ∀ tail, cs = '.' :: tail → LacksDigit tail := by
  unfold scanFraction
  split
  · next d tail =>
    split_ifs with hd
    · constructor
      · intro h
        cases congrArg Prod.fst h
      · rintro ⟨-, h⟩
        rw [lacksDigit_cons.1 (h _ rfl)] at hd
        cases hd
    · constructor
      · rintro ⟨⟩
        refine ⟨rfl, ?_⟩
        rintro _ ⟨⟩
        exact lacksDigit_cons.2 (Bool.eq_false_iff.2 hd)
      · rintro ⟨rfl, -⟩
        rfl
  · next hne =>
    constructor
    · rintro ⟨⟩
      refine ⟨rfl, ?_⟩
      rintro (_ | ⟨d, tail⟩) h
      · exact nofun
      · exact absurd h (hne d tail)
    · rintro ⟨rfl, -⟩
      rfl

theorem scan_eq_none_iff {digits : List Char} {negative : Bool} :
    scanExponent.scan cs negative digits = (none, rest) ↔ rest = cs ∧ LacksDigit digits := by
  rw [← takeWhile_isDigit_eq_nil_iff]
  unfold scanExponent.scan
  cases digits.takeWhile isDigit with
  | nil =>
      constructor
      · rintro ⟨⟩
        exact ⟨rfl, rfl⟩
      · rintro ⟨rfl, -⟩
        rfl
  | cons d tail =>
      constructor
      · intro h
        cases congrArg Prod.fst h
      · rintro ⟨-, h⟩
        cases h

theorem exists_scanExponent_cons {e : Char} (he : e = 'e' ∨ e = 'E') (tail : List Char) :
    ∃ negative, scanExponent (e :: tail) =
      scanExponent.scan (e :: tail) negative (afterSign tail) := by
  unfold afterSign
  split
  · refine ⟨true, ?_⟩
    rcases he with rfl | rfl
    · rfl
    · rfl
  · refine ⟨false, ?_⟩
    rcases he with rfl | rfl
    · rfl
    · rfl
  · next hminus hplus =>
    refine ⟨false, ?_⟩
    rcases he with rfl | rfl
    · rw [scanExponent]
      · exact hminus
      · exact hplus
    · rw [scanExponent]
      · exact hminus
      · exact hplus

theorem scanExponent_eq_of_not (h : ¬ ∃ e tail, cs = e :: tail ∧ (e = 'e' ∨ e = 'E')) :
    scanExponent cs = (none, cs) := by
  have hhead (e : Char) (he : e = 'e' ∨ e = 'E') : cs.head? ≠ some e := by
    intro hcs
    obtain ⟨tail, rfl⟩ := List.head?_eq_some_iff.1 hcs
    exact h ⟨e, tail, rfl, he⟩
  exact scanExponent_of_head?_ne (hhead 'e' (.inl rfl)) (hhead 'E' (.inr rfl))

theorem scanExponent_eq_none_iff : scanExponent cs = (none, rest) ↔
    rest = cs ∧ ∀ e tail, cs = e :: tail → e = 'e' ∨ e = 'E' → LacksDigit (afterSign tail) := by
  by_cases hexponent : ∃ e tail, cs = e :: tail ∧ (e = 'e' ∨ e = 'E')
  · obtain ⟨e, tail, rfl, he⟩ := hexponent
    obtain ⟨negative, hscan⟩ := exists_scanExponent_cons he tail
    rw [hscan, scan_eq_none_iff]
    refine and_congr_right fun _ ↦ ⟨?_, fun h ↦ h e tail rfl he⟩
    rintro h _ _ ⟨⟩ -
    exact h
  · rw [scanExponent_eq_of_not hexponent]
    constructor
    · rintro ⟨⟩
      exact ⟨rfl, fun e tail h he ↦ absurd ⟨e, tail, h, he⟩ hexponent⟩
    · rintro ⟨rfl, -⟩
      rfl

theorem of_scanWhole {ds : List Char} (h : scanWhole cs = some (ds, rest)) :
    cs = ds ++ rest ∧ IsWhole ds ∧ (1 < ds.length → LacksDigit rest) := by
  cases cs with
  | nil => cases h
  | cons c tail =>
      rw [scanWhole] at h
      split_ifs at h with hzero hdigit
      · cases h
        exact ⟨congrArg (· :: rest) hzero, .inl rfl, fun hlong ↦ absurd hlong (by decide)⟩
      · cases h
        have htake : c :: tail = c :: tail.takeWhile isDigit ++ tail.dropWhile isDigit := by
          rw [List.cons_append, List.takeWhile_append_dropWhile]
        refine ⟨htake, .inr ⟨c, _, rfl, hzero, ?_⟩, fun _ ↦ ?_⟩
        · exact List.forall_mem_cons.2 ⟨hdigit, fun d hd ↦ List.mem_takeWhile_imp hd⟩
        · intro d hd
          have hnot := List.head?_dropWhile_not isDigit tail
          rw [hd] at hnot
          exact hnot

end Scan

theorem toJson_eq_error_iff {x : Number} {flaw : Flaw} : x.toJson = .error flaw ↔
    x.fraction = [] ∧ x.exponent = none ∧ Numeral.digitLimit < x.whole.length ∧
      flaw = .numeralTooLong x.whole.length := by
  obtain ⟨negative, whole, fraction, exponent⟩ := x
  cases fraction with
  | nil =>
      cases exponent with
      | none =>
          rw [Number.toJson]
          dsimp only
          split_ifs with hlong
          · simp [hlong, eq_comm]
          · simp [hlong]
      | some e => simp [Number.toJson]
  | cons d ds => simp [Number.toJson]

theorem scanUnsigned_eq_some_iff {negative : Bool} {cs rest : List Char} {x : Number} :
    scanUnsigned negative cs = some (x, rest) ↔ ∃ ds tail fraction more exponent,
      scanWhole cs = some (ds, tail) ∧ scanFraction tail = (fraction, more) ∧
        scanExponent more = (exponent, rest) ∧ ⟨negative, ds, fraction, exponent⟩ = x := by
  rw [scanUnsigned]
  constructor
  · intro h
    cases hwhole : scanWhole cs with
    | none =>
        rw [hwhole] at h
        cases h
    | some parts =>
        rw [hwhole] at h
        cases h
        exact ⟨parts.1, parts.2, _, _, _, rfl, rfl, rfl, rfl⟩
  · rintro ⟨ds, tail, fraction, more, exponent, hwhole, hfraction, hexponent, rfl⟩
    rw [hwhole]
    dsimp only
    rw [hfraction]
    dsimp only
    rw [hexponent]

theorem overlong_scanUnsigned_iff {negative : Bool} {cs : List Char} {n : Nat} :
    (∃ x rest, scanUnsigned negative cs = some (x, rest) ∧
      x.toJson = .error (.numeralTooLong n)) ↔
      ∃ ds rest, cs = ds ++ rest ∧ IsWhole ds ∧ EndsInteger rest ∧ ds.length = n ∧
        Numeral.digitLimit < n := by
  constructor
  · rintro ⟨x, rest, hscan, hx⟩
    obtain ⟨ds, tail, fraction, more, exponent, hwhole, hfraction, hexponent, rfl⟩ :=
      scanUnsigned_eq_some_iff.1 hscan
    obtain ⟨rfl, rfl, hlong, hn⟩ := toJson_eq_error_iff.1 hx
    cases hn
    obtain ⟨rfl, hpoint⟩ := scanFraction_eq_nil_iff.1 hfraction
    obtain ⟨rfl, hpower⟩ := scanExponent_eq_none_iff.1 hexponent
    obtain ⟨rfl, hds, htail⟩ := of_scanWhole hwhole
    have hmany : 1 < ds.length := Nat.lt_trans (by decide) hlong
    exact ⟨ds, rest, rfl, hds, ⟨htail hmany, hpoint, hpower⟩, rfl, hlong⟩
  · rintro ⟨ds, rest, rfl, hds, hrest, rfl, hlong⟩
    have hscan : scanUnsigned negative (ds ++ rest) = some (⟨negative, ds, [], none⟩, rest) :=
      scanUnsigned_eq_some_iff.2 ⟨ds, rest, [], rest, none, scanWhole_append hds hrest.digit,
        scanFraction_eq_nil_iff.2 ⟨rfl, hrest.fraction⟩,
        scanExponent_eq_none_iff.2 ⟨rfl, hrest.exponent⟩, rfl⟩
    exact ⟨_, rest, hscan, toJson_eq_error_iff.2 ⟨rfl, rfl, hlong, rfl⟩⟩

theorem scanNumber_signText {ds : List Char} (hds : IsWhole ds) (negative : Bool)
    (rest : List Char) : scanNumber (Number.signText negative ++ (ds ++ rest)) =
      scanUnsigned negative (ds ++ rest) := by
  cases negative with
  | true => rfl
  | false =>
      obtain ⟨d, tail, rfl, hd⟩ := Number.exists_head_of_isWhole hds
      change scanNumber (d :: (tail ++ rest)) = scanUnsigned false (d :: (tail ++ rest))
      rw [scanNumber]
      -- A digit is no sign.
      rintro _ ⟨⟩
      cases hd

theorem overlong_scanNumber_iff {cs : List Char} {n : Nat} :
    (∃ x rest, scanNumber cs = some (x, rest) ∧ x.toJson = .error (.numeralTooLong n)) ↔
      StartsOverlong cs n := by
  constructor
  · intro h
    unfold scanNumber at h
    split at h
    · obtain ⟨ds, rest, rfl, hoverlong⟩ := overlong_scanUnsigned_iff.1 h
      exact ⟨true, ds, rest, rfl, hoverlong⟩
    · obtain ⟨ds, rest, rfl, hoverlong⟩ := overlong_scanUnsigned_iff.1 h
      exact ⟨false, ds, rest, rfl, hoverlong⟩
  · rintro ⟨negative, ds, rest, rfl, hds, hoverlong⟩
    rw [scanNumber_signText hds]
    exact overlong_scanUnsigned_iff.2 ⟨ds, rest, rfl, hds, hoverlong⟩

theorem IsWhole.isDigit {ds : List Char} (h : IsWhole ds) : ∀ c ∈ ds, isDigit c = true := by
  rcases h with rfl | ⟨d, tail, -, -, hdigits⟩
  · exact List.forall_mem_singleton.2 rfl
  · exact hdigits

/-! ## Overlong tokens -/

theorem prepend_ne_numeralTooLong {m n : Nat} {r : Except Flaw (List Nat × List Char)}
    (h : r ≠ .error (.numeralTooLong n)) : prepend m r ≠ .error (.numeralTooLong n) := by
  cases r with
  | ok p => exact nofun
  | error flaw => exact h

theorem scanString_ne_numeralTooLong (start cs : List Char) (n : Nat) :
    scanString start cs ≠ .error (.numeralTooLong n) := by
  fun_induction scanString start cs with
  | case4 _ _ _ _ _ _ _ _ ih => exact prepend_ne_numeralTooLong ih
  | case7 _ _ _ _ _ _ ih => exact prepend_ne_numeralTooLong ih
  | case10 _ _ _ _ _ _ _ _ ih => exact prepend_ne_numeralTooLong ih
  | _ => rintro ⟨⟩

variable {σ : Text.StandIns}

theorem stringToken_ne_numeralTooLong (quote : Char) (cs : List Char) (n : Nat) :
    (stringToken σ quote cs).1 ≠ .flawed (.numeralTooLong n) := by
  unfold stringToken
  split
  · exact nofun
  · next flaw hflaw =>
    rintro ⟨⟩
    exact scanString_ne_numeralTooLong _ _ n hflaw

theorem numberToken_eq_numeralTooLong_iff {cs : List Char} {n : Nat} :
    (numberToken cs).1 = .flawed (.numeralTooLong n) ↔ StartsOverlong cs n := by
  rw [← overlong_scanNumber_iff, numberToken]
  cases hscan : scanNumber cs with
  | none =>
      constructor
      · rintro ⟨⟩
      · rintro ⟨x, rest, ⟨⟩, -⟩
  | some parts =>
      obtain ⟨x, rest⟩ := parts
      dsimp only
      cases hx : x.toJson with
      | ok v =>
          constructor
          · rintro ⟨⟩
          · rintro ⟨_, _, ⟨⟩, hx'⟩
            cases hx.symm.trans hx'
      | error flaw =>
          constructor
          · rintro ⟨⟩
            exact ⟨x, rest, rfl, hx⟩
          · rintro ⟨_, _, ⟨⟩, hx'⟩
            cases hx.symm.trans hx'
            rfl

theorem punctuation?_ne_flawed (c : Char) (flaw : Flaw) : punctuation? c ≠ some (.flawed flaw) := by
  unfold punctuation?
  split
  all_goals exact nofun

/-- A token is an overlong integer exactly if the text begins with one. -/
theorem lex_eq_numeralTooLong_iff {cs : List Char} {n : Nat} :
    (lex σ cs).1 = .flawed (.numeralTooLong n) ↔ StartsOverlong cs n := by
  constructor
  · intro h
    rw [← numberToken_eq_numeralTooLong_iff]
    cases cs with
    | nil => cases h
    | cons c rest =>
        rw [lex] at h
        split at h
        · next token hpunctuation =>
          obtain rfl := h
          exact absurd hpunctuation (punctuation?_ne_flawed c _)
        · split_ifs at h with hquote
          · exact absurd h (stringToken_ne_numeralTooLong c rest n)
          · split at h
            · cases h
            · exact h
  · intro h
    have htoken := numberToken_eq_numeralTooLong_iff.2 h
    obtain ⟨negative, ds, rest, rfl, hds, -⟩ := h
    obtain ⟨d, tail, rfl, hd⟩ := Number.exists_head_of_isWhole hds
    obtain ⟨hlex, hminus⟩ := Number.lex_of_isDigit σ hd (tail ++ rest)
    rw [← htoken]
    cases negative with
    | false => exact congrArg Prod.fst hlex
    | true => exact congrArg Prod.fst hminus

/-! ## What remains after a token -/

theorem suffix_of_scanString {start cs : List Char} {p : List Nat × List Char}
    (h : scanString start cs = .ok p) : p.2 <:+ cs := by
  fun_induction scanString start cs generalizing p with
  | case2 rest =>
      cases h
      exact List.suffix_cons _ _
  | case4 a b c d e rest n _ ih =>
      obtain ⟨units, hunits, -⟩ := prepend_eq_ok.1 h
      exact (ih hunits).trans (List.suffix_append ['\\', 'u', a, b, c, d] (e :: rest))
  | case7 c rest x _ _ _ ih =>
      obtain ⟨units, hunits, -⟩ := prepend_eq_ok.1 h
      exact (ih hunits).trans (List.suffix_append ['\\', c] rest)
  | case10 c rest _ _ _ _ _ _ ih =>
      obtain ⟨units, hunits, -⟩ := prepend_eq_ok.1 h
      exact (ih hunits).trans (List.suffix_cons c rest)
  | _ => cases h

theorem scanFraction_suffix (cs : List Char) : (scanFraction cs).2 <:+ cs := by
  unfold scanFraction
  split
  · next d rest =>
    split_ifs
    · exact (List.dropWhile_suffix isDigit).trans (List.suffix_append ['.', d] rest)
    · exact List.suffix_rfl
  · exact List.suffix_rfl

theorem afterSign_suffix (cs : List Char) : afterSign cs <:+ cs := by
  unfold afterSign
  split
  · exact List.suffix_cons _ _
  · exact List.suffix_cons _ _
  · exact List.suffix_rfl

theorem scan_suffix {cs digits : List Char} (h : digits <:+ cs) (negative : Bool) :
    (scanExponent.scan cs negative digits).2 <:+ cs := by
  unfold scanExponent.scan
  split
  · exact List.suffix_rfl
  · exact (List.dropWhile_suffix isDigit).trans h

theorem scanExponent_suffix (cs : List Char) : (scanExponent cs).2 <:+ cs := by
  by_cases hexponent : ∃ e tail, cs = e :: tail ∧ (e = 'e' ∨ e = 'E')
  · obtain ⟨e, tail, rfl, he⟩ := hexponent
    obtain ⟨negative, hscan⟩ := exists_scanExponent_cons he tail
    rw [hscan]
    exact scan_suffix ((afterSign_suffix tail).trans (List.suffix_cons e tail)) negative
  · simp [scanExponent_eq_of_not hexponent]

theorem suffix_of_scanUnsigned {negative : Bool} {cs rest : List Char} {x : Number}
    (h : scanUnsigned negative cs = some (x, rest)) : rest <:+ cs := by
  obtain ⟨ds, tail, fraction, more, exponent, hwhole, hfraction, hexponent, -⟩ :=
    scanUnsigned_eq_some_iff.1 h
  obtain ⟨rfl, -⟩ := of_scanWhole hwhole
  have hmore := scanFraction_suffix tail
  rw [hfraction] at hmore
  have hrest := scanExponent_suffix more
  rw [hexponent] at hrest
  exact hrest.trans (hmore.trans (List.suffix_append ds tail))

theorem suffix_of_scanNumber {cs rest : List Char} {x : Number}
    (h : scanNumber cs = some (x, rest)) : rest <:+ cs := by
  unfold scanNumber at h
  split at h
  · exact (suffix_of_scanUnsigned h).trans (List.suffix_cons _ _)
  · exact suffix_of_scanUnsigned h

theorem suffix_of_afterPrefix? {start cs rest : List Char} (h : afterPrefix? start cs = some rest) :
    rest <:+ cs := by
  fun_induction afterPrefix? start cs with
  | case1 => cases h; exact List.suffix_rfl
  | case3 ps c cs ih => exact (ih h).trans (List.suffix_cons c cs)
  | _ => cases h

theorem suffix_of_keyword? {cs rest : List Char} {v : Json} (h : keyword? cs = some (v, rest)) :
    rest <:+ cs := by
  obtain ⟨entry, -, hentry⟩ := List.exists_of_findSome?_eq_some h
  obtain ⟨rest, hrest, ⟨⟩⟩ := Option.map_eq_some_iff.1 hentry
  exact suffix_of_afterPrefix? hrest

theorem lex_suffix (σ : Text.StandIns) (cs : List Char) : (lex σ cs).2 <:+ cs := by
  cases cs with
  | nil => exact List.suffix_rfl
  | cons c rest =>
      rw [lex]
      split
      · exact List.suffix_cons c rest
      split_ifs
      · unfold stringToken
        split
        · next hs => exact (suffix_of_scanString hs).trans (List.suffix_cons c rest)
        · exact List.nil_suffix
      split
      · next hk => exact suffix_of_keyword? hk
      · unfold numberToken
        split
        · exact List.nil_suffix
        · next hn =>
          split
          · exact suffix_of_scanNumber hn
          · exact List.nil_suffix

namespace Machine

/-! ## How far the reader comes -/

/-- The reader comes from one point of a text to another, step by step. -/
inductive Reaches (σ : Text.StandIns) : Machine → List Char → Machine → List Char → Prop
  | here (m : Machine) (text : List Char) : Reaches σ m text m text
  | space {m m' : Machine} {c : Char} {rest text' : List Char} (hc : isSpace c = true)
      (h : Reaches σ m rest m' text') : Reaches σ m (c :: rest) m' text'
  | token {m next m' : Machine} {token : Token} {text rest text' : List Char}
      (hlex : lex σ text = (token, rest)) (hstep : m.step token text = .ok next)
      (h : Reaches σ next rest m' text') : Reaches σ m text m' text'

variable {m m' : Machine} {text text' : List Char} {n : Nat}

theorem Reaches.run_eq (h : Reaches σ m text m' text') : m.run σ text = m'.run σ text' := by
  induction h with
  | here => rfl
  | space hc _ ih =>
      rw [run, if_pos hc]
      exact ih
  | token hlex hstep _ ih =>
      rw [run_of_lex hlex hstep]
      exact ih

theorem Reaches.suffix (h : Reaches σ m text m' text') : text' <:+ text := by
  induction h with
  | here => exact List.suffix_rfl
  | @space m m' c rest text' hc _ ih => exact ih.trans (List.suffix_cons c rest)
  | @token m next m' token text rest text' hlex _ _ ih =>
      have hrest := lex_suffix σ text
      rw [hlex] at hrest
      exact ih.trans hrest

theorem takeValue_eq_numeralTooLong {stack : List Frame} {token : Token}
    (h : takeValue stack token text = .error (.numeralTooLong n)) :
    token = .flawed (.numeralTooLong n) := by
  unfold takeValue at h
  split at h
  case h_5 flaw => exact congrArg Token.flawed (Except.error.inj h)
  all_goals cases h

theorem takeName_ne_numeralTooLong (stack : List Frame) (text : List Char) (n : Nat) :
    takeName stack (lex σ text).1 text ≠ .error (.numeralTooLong n) := by
  unfold takeName
  split
  · exact nofun
  · next hlex =>
    rintro ⟨⟩
    exact stringToken_ne_numeralTooLong _ _ n hlex
  · exact nofun

/-- An overlong integer is no flaw where no value may stand. -/
theorem step_eq_numeralTooLong_iff :
    m.step (lex σ text).1 text = .error (.numeralTooLong n) ↔
      TakesValue m.want ∧ StartsOverlong text n := by
  rw [← lex_eq_numeralTooLong_iff (σ := σ)]
  obtain ⟨want, stack⟩ := m
  constructor
  · intro h
    unfold step at h
    split at h
    case h_1 hwant =>
      rw [hwant]
      exact ⟨takesValue_value, takeValue_eq_numeralTooLong h⟩
    case h_3 hwant _ =>
      rw [hwant]
      exact ⟨takesValue_itemOrClose, takeValue_eq_numeralTooLong h⟩
    case h_4 | h_6 => exact absurd h (takeName_ne_numeralTooLong stack text n)
    all_goals cases h
  · rintro ⟨hwant, hlex⟩
    rw [hlex]
    cases want with
    | value => rfl
    | itemOrClose => rfl
    | _ => exact hwant.elim

theorem isSpace_eq_false_of_lex {c : Char} {cs : List Char}
    (h : (lex σ (c :: cs)).1 = .flawed (.numeralTooLong n)) : isSpace c = false := by
  by_contra hspace
  rw [lex_of_isSpace (Bool.not_eq_false _ ▸ hspace)] at h
  cases h

theorem run_eq_numeralTooLong_iff : m.run σ text = .error (.numeralTooLong n) ↔
    ∃ m' cs, m.Reaches σ text m' cs ∧ TakesValue m'.want ∧ StartsOverlong cs n := by
  constructor
  · intro h
    fun_induction run σ m text with
    | case1 m =>
        obtain ⟨want, stack⟩ := m
        cases want with
        | nothing v => cases h
        | _ => cases h
    | case2 m c rest hc ih =>
        obtain ⟨m', cs, hreaches, hoverlong⟩ := ih h
        exact ⟨m', cs, .space hc hreaches, hoverlong⟩
    | case3 m c rest hc next hstep ih =>
        obtain ⟨m', cs, hreaches, hoverlong⟩ := ih h
        exact ⟨m', cs, .token rfl hstep hreaches, hoverlong⟩
    | case4 m c rest hc flaw hstep =>
        cases h
        exact ⟨m, c :: rest, .here m _, step_eq_numeralTooLong_iff.1 hstep⟩
  · rintro ⟨m', cs, hreaches, hoverlong⟩
    have hstep := step_eq_numeralTooLong_iff (σ := σ).2 hoverlong
    have hlex := lex_eq_numeralTooLong_iff (σ := σ).2 hoverlong.2
    rw [hreaches.run_eq]
    cases cs with
    | nil => cases hlex
    | cons c rest =>
        have hspace := isSpace_eq_false_of_lex hlex
        rw [run, if_neg (Bool.eq_false_iff.1 hspace), hstep]

end Machine

/-! ## What is read -/

mutual

theorem Readable.hasText {v : Json} (h : v.Readable) : v.hasText = true := by
  match v, h with
  | null, _ | bool _, _ | str _, _ => rfl
  | float x, _ =>
      cases x with
      | _ => rfl
  | int n, h => exact decide_eq_true h
  | arr items, h => exact hasText_arr_iff.2 (ReadableItems.hasText h)
  | obj members, h => exact hasText_obj_iff.2 (ReadableMembers.haveTexts h.2)

theorem ReadableItems.hasText {items : List Json} (h : ReadableItems items) :
    ∀ v ∈ items, v.hasText = true := by
  match items, h with
  | [], _ => exact List.forall_mem_nil _
  | _ :: _, h => exact List.forall_mem_cons.2 ⟨Readable.hasText h.1, ReadableItems.hasText h.2⟩

theorem ReadableMembers.haveTexts {members : List (String × Json)} (h : ReadableMembers members) :
    HaveTexts members := by
  match members, h with
  | [], _ => exact List.forall_mem_nil _
  | (_, _) :: _, h =>
      exact List.forall_mem_cons.2 ⟨Readable.hasText h.1, ReadableMembers.haveTexts h.2⟩

end

theorem readable_of_toJson {x : Number} {v : Json} (hwhole : ∀ c ∈ x.whole, isDigit c = true)
    (h : x.toJson = .ok v) : v.Readable := by
  obtain ⟨negative, whole, fraction, exponent⟩ := x
  rw [Number.toJson.eq_def] at h
  split at h
  · dsimp only at h
    split_ifs at h with hlong hsign
    all_goals
      cases h
      have hshort := Numeral.isShort_value hwhole (Nat.not_lt.1 hlong)
      rw [Numeral.isShort, decide_eq_true_eq] at hshort
    · rw [Readable, Int.natAbs_neg]
      exact hshort
    · exact hshort
  · cases h
    trivial

theorem isDigit_of_scanNumber {cs rest : List Char} {x : Number}
    (h : scanNumber cs = some (x, rest)) : ∀ c ∈ x.whole, isDigit c = true := by
  have hunsigned {negative : Bool} {cs : List Char}
      (h : scanUnsigned negative cs = some (x, rest)) : ∀ c ∈ x.whole, isDigit c = true := by
    obtain ⟨ds, tail, fraction, more, exponent, hwhole, -, -, rfl⟩ := scanUnsigned_eq_some_iff.1 h
    exact (of_scanWhole hwhole).2.1.isDigit
  unfold scanNumber at h
  split at h
  · exact hunsigned h
  · exact hunsigned h

theorem readable_of_numberToken {cs : List Char} {v : Json}
    (h : (numberToken cs).1 = .scalar v) : v.Readable := by
  unfold numberToken at h
  split at h
  · cases h
  · next x rest hscan =>
    split at h
    · next hx =>
      cases h
      exact readable_of_toJson (isDigit_of_scanNumber hscan) hx
    · cases h

theorem readable_of_keyword? {cs rest : List Char} {v : Json} (h : keyword? cs = some (v, rest)) :
    v.Readable := by
  obtain ⟨⟨word, w⟩, hmem, hentry⟩ := List.exists_of_findSome?_eq_some h
  obtain ⟨_, -, ⟨⟩⟩ := Option.map_eq_some_iff.1 hentry
  have hkeywords : ∀ entry ∈ keywords, entry.2.Readable := by
    simp [keywords, Readable]
  exact hkeywords _ hmem

theorem punctuation?_ne_scalar (c : Char) (v : Json) : punctuation? c ≠ some (.scalar v) := by
  unfold punctuation?
  split
  all_goals exact nofun

theorem stringToken_ne_scalar (quote : Char) (cs : List Char) (v : Json) :
    (stringToken σ quote cs).1 ≠ .scalar v := by
  unfold stringToken
  split
  · exact nofun
  · exact nofun

/-- A number that is read keeps to the limit of digits. -/
theorem readable_of_lex {cs : List Char} {v : Json} (h : (lex σ cs).1 = .scalar v) :
    v.Readable := by
  cases cs with
  | nil => cases h
  | cons c rest =>
      rw [lex] at h
      split at h
      · next token hpunctuation =>
        obtain rfl := h
        exact absurd hpunctuation (punctuation?_ne_scalar c v)
      · split_ifs at h with hquote
        · exact absurd h (stringToken_ne_scalar c rest v)
        · split at h
          · next hkeyword =>
            cases h
            exact readable_of_keyword? hkeyword
          · exact readable_of_numberToken h

namespace Machine

/-- What an open container holds so far can be written and read back. -/
def Frame.Readable : Frame → Prop
  | .arr items => (Json.arr items).Readable
  | .obj members _ => (Json.obj members).Readable

/-- All that a machine holds can be written and read back. -/
structure Readable (m : Machine) : Prop where
  stack : ∀ frame ∈ m.stack, Frame.Readable frame
  value : ∀ v, m.want = .nothing v → v.Readable

section Readable

variable {m m' : Machine} {stack : List Frame} {text : List Char} {token : Token} {v : Json}

theorem Readable.of_stack {want : Want} (hstack : ∀ frame ∈ stack, Frame.Readable frame)
    (hwant : ∀ v, want ≠ .nothing v) : Readable ⟨want, stack⟩ :=
  ⟨hstack, fun v hv ↦ absurd hv (hwant v)⟩

theorem readable_deliver (hstack : ∀ frame ∈ stack, Frame.Readable frame) (hv : v.Readable) :
    (deliver v stack).Readable := by
  match stack, hstack with
  | [], hstack =>
      refine ⟨hstack, ?_⟩
      rintro _ ⟨⟩
      exact hv
  | .arr items :: outer, hstack =>
      obtain ⟨hitems, houter⟩ := List.forall_mem_cons.1 hstack
      refine .of_stack (List.forall_mem_cons.2 ⟨?_, houter⟩) nofun
      exact readableItems_iff.2 (List.forall_mem_append.2
        ⟨readableItems_iff.1 hitems, List.forall_mem_singleton.2 hv⟩)
  | .obj members name :: outer, hstack =>
      obtain ⟨⟨hnodup, hmembers⟩, houter⟩ := List.forall_mem_cons.1 hstack
      refine .of_stack (List.forall_mem_cons.2 ⟨?_, houter⟩) nofun
      refine readable_obj (Assoc.nodup_keys_insert hnodup) fun p hp ↦ ?_
      rcases Assoc.mem_of_mem_insert hp with hpv | hp
      · rw [hpv]
        exact hv
      · exact readableMembers_iff.1 hmembers p hp

theorem readable_of_takeValue (hstack : ∀ frame ∈ stack, Frame.Readable frame)
    (htoken : ∀ v, token = .scalar v → v.Readable) (h : takeValue stack token text = .ok m') :
    m'.Readable := by
  cases token with
  | scalar v =>
      cases h
      exact readable_deliver hstack (htoken v rfl)
  | text s =>
      cases h
      exact readable_deliver hstack trivial
  | openArray =>
      cases h
      exact .of_stack (List.forall_mem_cons.2 ⟨trivial, hstack⟩) nofun
  | openObject =>
      cases h
      exact .of_stack (List.forall_mem_cons.2 ⟨⟨List.nodup_nil, trivial⟩, hstack⟩) nofun
  | _ => cases h

theorem readable_of_takeName (hstack : ∀ frame ∈ stack, Frame.Readable frame)
    (h : takeName stack token text = .ok m') : m'.Readable := by
  unfold takeName at h
  split at h
  · cases h
    obtain ⟨hmembers, houter⟩ := List.forall_mem_cons.1 hstack
    exact .of_stack (List.forall_mem_cons.2 ⟨hmembers, houter⟩) nofun
  · cases h
  · cases h

/-- One token preserves that all can be written and read back. -/
theorem Readable.step (hm : m.Readable) (htoken : ∀ v, token = .scalar v → v.Readable)
    (h : m.step token text = .ok m') : m'.Readable := by
  obtain ⟨want, stack⟩ := m
  have hstack := hm.stack
  unfold Machine.step at h
  split at h
  case h_1 | h_3 => exact readable_of_takeValue hstack htoken h
  case h_4 | h_6 => exact readable_of_takeName hstack h
  case h_2 hopen | h_5 hopen | h_11 hopen | h_12 hopen =>
    cases h
    rw [hopen] at hstack
    obtain ⟨hcontainer, houter⟩ := List.forall_mem_cons.1 hstack
    exact readable_deliver houter hcontainer
  case h_7 =>
    cases h
    exact .of_stack hstack nofun
  case h_9 hopen | h_10 hopen =>
    cases h
    rw [hopen] at hstack
    exact .of_stack hstack nofun
  all_goals cases h

/-- So what a run comes to can be written and read back. -/
theorem Readable.run (hm : m.Readable) (h : m.run σ text = .ok v) : v.Readable := by
  fun_induction Machine.run σ m text with
  | case1 m =>
      obtain ⟨want, stack⟩ := m
      cases want with
      | nothing w =>
          cases h
          exact hm.value _ rfl
      | _ => cases h
  | case2 m c rest hc ih => exact ih hm h
  | case3 m c rest hc next hstep ih =>
      exact ih (hm.step (fun v hv ↦ readable_of_lex hv) hstep) h
  | case4 => cases h

end Readable

end Machine

/-- What is read can be written and read back. -/
theorem readable_of_readWith {text : List Char} {v : Json} (h : readWith σ text = .ok v) :
    v.Readable := by
  have hstart : Machine.start.Readable := .of_stack (List.forall_mem_nil _) nofun
  unfold readWith at h
  split at h
  · cases h
  · dsimp only at h
    cases hrun : Machine.start.run σ text with
    | ok w =>
        rw [hrun] at h
        cases h
        exact hstart.run hrun
    | error flaw =>
        rw [hrun] at h
        cases flaw with
        | _ => cases h

/-- The reader comes to an integer of so many digits where a value is expected. -/
def MeetsOverlong (σ : Text.StandIns) (text : List Char) (n : Nat) : Prop :=
  ∃ m cs, Machine.start.Reaches σ text m cs ∧ Machine.TakesValue m.want ∧ StartsOverlong cs n

theorem readWith_eq_numeralTooLong_iff {text : List Char} {n : Nat} :
    readWith σ text = .error (.numeralTooLong n) ↔ MeetsOverlong σ text n := by
  rw [MeetsOverlong, ← Machine.run_eq_numeralTooLong_iff]
  unfold readWith
  split
  · rw [Machine.run_start_mark]
    constructor
    · rintro ⟨⟩
    · rintro ⟨⟩
  · cases Machine.start.run σ text with
    | ok v =>
        constructor
        · rintro ⟨⟩
        · rintro ⟨⟩
    | error flaw =>
        cases flaw with
        | malformed reason rest =>
            constructor
            · rintro ⟨⟩
            · rintro ⟨⟩
        | numeralTooLong digits => simp

/-- The digits of such an integer stand in a row in the text. -/
theorem MeetsOverlong.exists_digits {text : List Char} {n : Nat} (h : MeetsOverlong σ text n) :
    ∃ ds, ds <:+: text ∧ (∀ c ∈ ds, isDigit c = true) ∧ ds.length = n ∧
      Numeral.digitLimit < n := by
  obtain ⟨m, cs, hreaches, -, negative, ds, rest, rfl, hds, -, hlength, hlong⟩ := h
  have hinfix : ds <:+: Number.signText negative ++ (ds ++ rest) :=
    ⟨Number.signText negative, rest, List.append_assoc _ _ _⟩
  exact ⟨ds, hinfix.trans hreaches.suffix.isInfix, hds.isDigit, hlength, hlong⟩

end Json

namespace Wire

/-! ## Texts that are accepted or refused -/

/-- An error of the reader or the decoder that says what is wrong with a text. -/
def DocumentError.IsRefusal : DocumentError → Prop
  | text (.malformed _ _) => True
  | text (.numeralTooLong _) => False
  | content e => e.problem.IsOfData

/-- A text gives a description or is refused as none. -/
def AcceptsOrRefuses (c : Catalog) (document : String) : Prop :=
  (∃ d, parse c document = .ok d) ∨ ∃ e, parse c document = .error e ∧ e.IsRefusal

section

variable {σ : Text.StandIns} {c : Catalog} {document : String}

theorem parseWith_eq_numeralTooLong_iff {n : Nat} :
    parseWith σ c document = .error (.text (.numeralTooLong n)) ↔
      Json.MeetsOverlong σ document.toList n := by
  rw [← Json.readWith_eq_numeralTooLong_iff, parseWith]
  cases Json.readWith σ document.toList with
  | error e => simp
  | ok v =>
      dsimp only
      cases decode c v with
      | error e => simp
      | ok d => simp

theorem exists_of_parseWith_eq_content {e : Error}
    (h : parseWith σ c document = .error (.content e)) :
    ∃ v, v.hasText = true ∧ decode c v = .error e := by
  rw [parseWith] at h
  cases hread : Json.readWith σ document.toList with
  | error e' =>
      rw [hread] at h
      cases h
  | ok v =>
      rw [hread] at h
      dsimp only at h
      cases hdecode : decode c v with
      | error e' =>
          rw [hdecode] at h
          cases h
          exact ⟨v, (Json.readable_of_readWith hread).hasText, hdecode⟩
      | ok d =>
          rw [hdecode] at h
          cases h

theorem isRefusal_of_parseWith (hc : c.IsInhabited) {e : DocumentError}
    (h : parseWith σ c document = .error e) (hnumeral : ∀ n, e ≠ .text (.numeralTooLong n)) :
    e.IsRefusal := by
  cases e with
  | text e =>
      cases e with
      | malformed reason place => trivial
      | numeralTooLong n => exact absurd rfl (hnumeral n)
  | content e =>
      obtain ⟨v, hv, hdecode⟩ := exists_of_parseWith_eq_content h
      exact blamesData_decode hc hv e hdecode

theorem acceptsOrRefuses_iff (hc : c.IsInhabited) : AcceptsOrRefuses c document ↔
    ∀ n, parse c document ≠ .error (.text (.numeralTooLong n)) := by
  constructor
  · rintro houtcome n hparse
    rcases houtcome with ⟨d, hd⟩ | ⟨e, he, hrefusal⟩
    · cases hparse.symm.trans hd
    · cases hparse.symm.trans he
      exact hrefusal
  · intro h
    cases hparse : parse c document with
    | ok d => exact .inl ⟨d, hparse⟩
    | error e =>
        refine .inr ⟨e, hparse, isRefusal_of_parseWith hc hparse ?_⟩
        rintro n rfl
        exact h n hparse

end

/-- Every text is accepted or refused unless the reader comes to an integer of too many digits. The
outcome is then the failure to convert it, and its digits stand in a row in the text. -/
theorem parse_accepts_or_refuses_iff {c : Catalog} (hc : c.IsInhabited) (document : String) :
    (AcceptsOrRefuses c document ↔
        ¬ ∃ n, Json.MeetsOverlong (Json.standIns document.toList) document.toList n) ∧
      ∀ n, Json.MeetsOverlong (Json.standIns document.toList) document.toList n →
        parse c document = .error (.text (.numeralTooLong n)) ∧
          ∃ ds, ds <:+: document.toList ∧ (∀ d ∈ ds, Numeral.isDigit d = true) ∧
            ds.length = n ∧ Numeral.digitLimit < n := by
  constructor
  · rw [acceptsOrRefuses_iff hc, not_exists]
    exact forall_congr' fun n ↦ not_congr parseWith_eq_numeralTooLong_iff
  · intro n hn
    exact ⟨parseWith_eq_numeralTooLong_iff.2 hn, hn.exists_digits⟩

theorem openArray_meets_no_overlong :
    ¬ ∃ n, Json.MeetsOverlong (Json.standIns "[1".toList) "[1".toList n := by
  have hparse : parse .builtin "[1" =
      .error (.text (.malformed .commaExpected ⟨2, 1, 3⟩)) := by with_unfolding_all rfl
  exact (parse_accepts_or_refuses_iff isInhabited_builtin "[1").1.1 (.inr ⟨_, hparse, trivial⟩)

/-- A text that is one integer, with a digit too many. -/
def overlongNumeral : String := String.ofList (List.replicate (Numeral.digitLimit + 1) '1')

theorem isWhole_ones (n : Nat) : Json.IsWhole (List.replicate (n + 1) '1') :=
  .inr ⟨'1', List.replicate n '1', List.replicate_succ, by decide,
    fun _ hc ↦ List.eq_of_mem_replicate hc ▸ rfl⟩

theorem overlongNumeral_neither : ¬ AcceptsOrRefuses .builtin overlongNumeral := by
  have hends : Json.EndsInteger [] := ⟨nofun, nofun, nofun⟩
  have hmeets (σ : Text.StandIns) :
      Json.MeetsOverlong σ overlongNumeral.toList (Numeral.digitLimit + 1) := by
    rw [overlongNumeral, String.toList_ofList]
    refine ⟨.start, _, .here _ _, trivial, false, _, [], (List.append_nil _).symm, isWhole_ones _,
      hends, List.length_replicate, Nat.lt_succ_self _⟩
  rw [acceptsOrRefuses_iff isInhabited_builtin]
  intro h
  exact h _ (parseWith_eq_numeralTooLong_iff.2 (hmeets _))

end Wire

end Typings
