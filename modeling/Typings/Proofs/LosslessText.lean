import Typings.Proofs.TextTrip

/-!
# The text of a description

The text that a description is written as consists of ASCII characters, whatever the description
holds, and what is read from it is what the description was encoded as. So nothing is lost in the
text that was not lost in the encoding, and a text is refused exactly where the data would be.
-/

namespace Typings

namespace Json

/-! ## ASCII -/

def IsAscii (cs : List Char) : Prop := ∀ c ∈ cs, c.toNat < 0x80

theorem isAscii_append {cs ds : List Char} : IsAscii (cs ++ ds) ↔ IsAscii cs ∧ IsAscii ds :=
  List.forall_mem_append

theorem isAscii_cons {c : Char} {cs : List Char} :
    IsAscii (c :: cs) ↔ c.toNat < 0x80 ∧ IsAscii cs :=
  List.forall_mem_cons

theorem isAscii_nil : IsAscii [] := List.forall_mem_nil _

theorem isAscii_of_all {cs : List Char} (h : cs.all (fun c ↦ c.toNat < 0x80) = true) :
    IsAscii cs := by
  intro c hc
  exact of_decide_eq_true (List.all_eq_true.1 h c hc)

theorem toNat_of_le {c d : Char} (h : c.val ≤ d.val) (hd : d.toNat < 0x80) : c.toNat < 0x80 :=
  Nat.lt_of_le_of_lt (UInt32.le_iff_toNat_le.1 h) hd

theorem toNat_of_isNumeralChar {c : Char} (h : isNumeralChar c = true) : c.toNat < 0x80 := by
  have hsplit : ((c.isUpper || c.isLower || c.isDigit) || ['.', '-', '+'].contains c) = true := h
  simp only [Bool.or_eq_true] at hsplit
  rcases hsplit with ((hupper | hlower) | hdigit) | hmark
  · have hrange : 'A'.val ≤ c.val ∧ c.val ≤ 'Z'.val := of_decide_eq_true hupper
    exact toNat_of_le hrange.2 (by decide)
  · obtain ⟨-, hz⟩ := Bool.and_eq_true_iff.1 hlower
    exact toNat_of_le (of_decide_eq_true hz) (by decide)
  · obtain ⟨-, hnine⟩ := Bool.and_eq_true_iff.1 hdigit
    exact toNat_of_le (of_decide_eq_true hnine) (by decide)
  · simp only [List.contains_eq_mem, decide_eq_true_eq, List.mem_cons, List.not_mem_nil,
      or_false] at hmark
    rcases hmark with rfl | rfl | rfl
    · decide
    · decide
    · decide

theorem isAscii_float (x : Binary64) : IsAscii (x.text writtenSpelling) := by
  have hsigned (negative : Bool) {cs : List Char} (hcs : IsAscii cs) :
      IsAscii (Binary64.text.signed negative cs) := by
    cases negative with
    | false => exact hcs
    | true => exact isAscii_cons.2 ⟨by decide, hcs⟩
  cases x with
  | nan => exact isAscii_of_all rfl
  | infinity negative => exact hsigned negative (isAscii_of_all rfl)
  | finite negative rank =>
      apply hsigned negative
      intro c hc
      exact toNat_of_isNumeralChar (isNumeralChar_magnitudeText _ _ c hc)

theorem isAscii_unitEscape {n : Nat} (hn : n < 0x10000) : IsAscii (unitEscape n) := by
  have hdigit {d : Nat} (hd : d < 16) : d.digitChar.toNat < 0x80 := by
    revert d
    decide
  obtain ⟨a, b, c, d, ⟨ha, hb, hc, hd⟩, -, hdigits⟩ := hexDigits_four hn
  rw [unitEscape, hdigits]
  simp only [isAscii_cons]
  exact ⟨by decide, by decide, hdigit ha, hdigit hb, hdigit hc, hdigit hd, isAscii_nil⟩

theorem isAscii_escape (c : Char) : IsAscii (escape c) := by
  unfold escape
  split
  · exact isAscii_of_all rfl
  · exact isAscii_of_all rfl
  · exact isAscii_of_all rfl
  · exact isAscii_of_all rfl
  · exact isAscii_of_all rfl
  · exact isAscii_of_all rfl
  · exact isAscii_of_all rfl
  · have hvalid := toNat_valid c
    dsimp only
    split
    · exact isAscii_cons.2 ⟨by omega, isAscii_nil⟩
    · split
      · next hunit => exact isAscii_unitEscape hunit
      · exact isAscii_append.2 ⟨isAscii_unitEscape (by omega), isAscii_unitEscape (by omega)⟩

theorem isAscii_writeString (s : String) : IsAscii (writeString s) := by
  rw [writeString, isAscii_cons, isAscii_append]
  refine ⟨by decide, ?_, isAscii_of_all rfl⟩
  intro c hc
  obtain ⟨d, -, hc⟩ := List.mem_flatMap.1 hc
  exact isAscii_escape d c hc

theorem Style.IsBlank.isAscii {style : Style} (h : style.IsBlank) (depth : Nat) :
    IsAscii (style.lineStart depth) := by
  intro c hc
  have hspace := h depth c hc
  simp only [isSpace, Bool.or_eq_true, decide_eq_true_eq] at hspace
  rcases hspace with ((rfl | rfl) | rfl) | rfl
  · decide
  · decide
  · decide
  · decide

section Write

variable {style : Style} (hstyle : style.IsBlank)

include hstyle

theorem isAscii_between (depth : Nat) : IsAscii (style.between depth) := by
  cases style with
  | inline => exact isAscii_of_all rfl
  | indented margin => exact isAscii_cons.2 ⟨by decide, hstyle.isAscii depth⟩

mutual

theorem isAscii_write (depth : Nat) (v : Json) : IsAscii (write style depth v) := by
  match v with
  | null | bool true | bool false => exact isAscii_of_all rfl
  | int n =>
      intro c hc
      exact toNat_of_isNumeralChar (isNumeralChar_ofInt n c hc)
  | float x => exact isAscii_float x
  | str s => exact isAscii_writeString s
  | arr [] | obj [] => exact isAscii_of_all rfl
  | arr (v :: rest) =>
      simp only [write, isAscii_cons, isAscii_append]
      exact ⟨by decide, ⟨⟨⟨hstyle.isAscii _, isAscii_write _ v⟩, isAscii_writeItems _ rest⟩,
        hstyle.isAscii _⟩, by decide, isAscii_nil⟩
  | obj ((k, v) :: rest) =>
      simp only [write, isAscii_cons, isAscii_append]
      exact ⟨by decide, ⟨⟨⟨⟨⟨hstyle.isAscii _, isAscii_writeString k⟩, by decide, by decide,
        isAscii_nil⟩, isAscii_write _ v⟩, isAscii_writeMembers _ rest⟩, hstyle.isAscii _⟩,
        by decide, isAscii_nil⟩

theorem isAscii_writeItems (depth : Nat) (items : List Json) :
    IsAscii (writeItems style depth items) := by
  match items with
  | [] => exact isAscii_nil
  | v :: rest =>
      simp only [writeItems, isAscii_append]
      exact ⟨⟨isAscii_between hstyle depth, isAscii_write depth v⟩, isAscii_writeItems depth rest⟩

theorem isAscii_writeMembers (depth : Nat) (members : List (String × Json)) :
    IsAscii (writeMembers style depth members) := by
  match members with
  | [] => exact isAscii_nil
  | (k, v) :: rest =>
      simp only [writeMembers, isAscii_append, isAscii_cons]
      exact ⟨⟨⟨⟨isAscii_between hstyle depth, isAscii_writeString k⟩, by decide, by decide,
        isAscii_nil⟩, isAscii_write depth v⟩, isAscii_writeMembers depth rest⟩

end

end Write

theorem isAscii_render {style : Style} (hstyle : style.IsBlank) (v : Json) :
    IsAscii (v.render style).toList := by
  rw [render, String.toList_ofList]
  exact isAscii_write hstyle 0 v

end Json

namespace Wire

/-! ## Descriptions -/

/-- A description that holds nothing but data is encoded, and its text is ASCII and is read as its
encoded form is decoded, with the same result or the same error, if there is a margin of the width
that is asked for. A plain description comes back with all of it in its place. -/
theorem parse_print {d : Description} (h : d.Portable) (indent : Option Int) :
    ∃ v, encode d = .ok v ∧
      (∀ style, Json.Style.ofIndent indent = .ok style → ∃ text, print indent d = .ok text ∧
        (∀ c ∈ text.toList, c.toNat < 0x80) ∧
        ∀ catalog, parse catalog text = (decode catalog v).mapError .content) ∧
      (∀ e, Json.Style.ofIndent indent = .error e → print indent d = .error (.margin e)) ∧
      (d.Plain → decode .builtin v = .ok d.normal) := by
  obtain ⟨v, hencode, hreadable⟩ := readable_encode h
  refine ⟨v, hencode, fun style hstyle ↦ ?_, fun e he ↦ ?_, fun hplain ↦ ?_⟩
  · have hblank := Json.Style.isBlank_ofIndent hstyle
    refine ⟨v.render style, ?_, Json.isAscii_render hblank v, fun catalog ↦ ?_⟩
    · rw [print, hencode, hstyle]
    · rw [parse, parseWith, Json.readWith_render _ hblank hreadable]
      dsimp only
      cases decode catalog v with
      | ok d => rfl
      | error e => rfl
  · rw [print, hencode, he]
  · obtain ⟨w, hw, hdecode⟩ := exists_encode hplain
    obtain rfl := Except.ok.inj (hencode.symm.trans hw)
    exact hdecode

/-- A literal that is written but not accepted when it is read, and characters that are not
ASCII. -/
def unboundedLiteral : Description where
  types := .ofList [
    ("\u2028", .ofBody (.junction .union) (some "\"😀\"") .none
      (.junction .union [.int (-1), .str "é"])),
    ("é", .ofBody .literal none ⟨some "\\", none⟩ (.literal (.float (.infinity true))))]
  entries := [("größe", .branch [("", .endpoint ⟨.int 1, .str "é", .none⟩)])]

theorem unboundedLiteral_parse_print :
    ∃ text, print (some (-1)) unboundedLiteral = .ok text ∧
      (∀ c ∈ text.toList, c.toNat < 0x80) ∧
      parse .builtin text =
        .error (.content ⟨.type "é", .notFinite (.float (.infinity true))⟩) := by
  have hshort (n : Int) (hn : (Numeral.digits n.natAbs).length ≤ Numeral.digitLimit) :
      (Value.int n).Portable := ⟨.int n, rfl, hn⟩
  have htext (s : String) : (Value.str s).Portable := ⟨.str s, rfl, trivial⟩
  have hnull : Value.null.Portable := ⟨.null, rfl, trivial⟩
  have hfloat : (Value.float (.infinity true)).Portable := ⟨_, rfl, trivial⟩
  have hunion : ∀ v ∈ [Value.str "\"😀\"", .null, .null, .int (-1), .str "é"], v.Portable := by
    simp only [List.forall_mem_cons]
    exact ⟨htext _, hnull, hnull, hshort _ (Nat.le_of_ble_eq_true rfl), htext _,
      List.forall_mem_nil _⟩
  have hliteral : ∀ v ∈ [Value.null, .str "\\", .null, .float (.infinity true)], v.Portable := by
    simp only [List.forall_mem_cons]
    exact ⟨hnull, htext _, hnull, hfloat, List.forall_mem_nil _⟩
  have hportable : unboundedLiteral.Portable := by
    refine ⟨?_, by decide, ⟨by decide, ⟨?_, htext _⟩, trivial⟩, trivial⟩
    · intro p hp
      have hvalue := Assoc.mem_values_of_mem_ofList hp
      simp only [List.map_cons, List.map_nil, List.mem_cons, List.not_mem_nil, or_false] at hvalue
      rcases hvalue with h | h
      · rw [h]
        exact hunion
      · rw [h]
        exact hliteral
    · exact hshort 1 (Nat.le_of_ble_eq_true rfl)
  obtain ⟨v, hencode, hprint, -, -⟩ := parse_print hportable (some (-1))
  obtain ⟨text, htext, hascii, hparse⟩ := hprint _ rfl
  refine ⟨text, htext, hascii, (hparse .builtin).trans ?_⟩
  obtain rfl := Except.ok.inj hencode
  rfl

/-- There is no margin of a width that is out of range, though a negative width is as good as none
otherwise. -/
theorem farNegative_not_printed :
    ¬ ∀ (d : Description) (indent : Option Int), d.Portable →
      ∃ text, print indent d = .ok text ∧ ∀ c ∈ text.toList, c.toNat < 0x80 := by
  intro h
  have hportable : (⟨.empty, [("a", .branch [])]⟩ : Description).Portable :=
    ⟨List.forall_mem_nil _, by decide, ⟨List.nodup_nil, trivial⟩, trivial⟩
  obtain ⟨text, htext, -⟩ := h _ (some (-9223372036854775809)) hportable
  cases htext

end Wire

end Typings
