import Typings.Formatter
import Typings.Proofs.SourceGrammar

/-!
# Balanced sources

A source is accepted exactly if it can be read and its brackets are well nested; every other source
is refused. What is accepted can be laid out if the margins of its lines can be made, and they can
unless the indent is enormous.
-/

namespace Typings.Layout

/-! ## Well-nested words -/

inductive WellNested : List Char → Prop
  | nil : WellNested []
  | pair (b : Bracket) {inside rest : List Char} (hinside : WellNested inside)
      (hrest : WellNested rest) : WellNested (b.opener :: (inside ++ b.closer :: rest))

/-- A source whose lines can be read, and whose brackets are well nested. -/
def Balanced (source : List Char) : Prop :=
  ∃ word, Reads (sourceTexts source) word ∧ WellNested word

theorem nest_opener (stack : List Bracket) (b : Bracket) :
    nest stack (.ofChar b.opener) = some (b :: stack) := by
  rw [ofChar_opener]
  cases stack <;> rfl

theorem nest_closer (stack : List Bracket) (b : Bracket) :
    nest (b :: stack) (.ofChar b.closer) = some stack := by
  rw [ofChar_closer, nest, if_pos rfl]

theorem exists_of_nest_closer {stack inner : List Bracket} {b : Bracket}
    (h : nest stack (.ofChar b.closer) = some inner) : stack = b :: inner := by
  cases stack with
  | nil =>
      rw [ofChar_closer] at h
      cases h
  | cons b' stack =>
      rw [ofChar_closer, nest] at h
      split at h
      · next hb => rw [hb, Option.some.inj h]
      · cases h

theorem nestWord_append (stack : List Bracket) (u v : List Char) :
    nestWord stack (u ++ v) = (nestWord stack u).bind (nestWord · v) :=
  List.foldlM_append

theorem WellNested.nestWord_eq {word : List Char} (h : WellNested word) (stack : List Bracket) :
    nestWord stack word = some stack := by
  induction h generalizing stack with
  | nil => rfl
  | pair b _ _ ihinside ihrest =>
      rw [nestWord_cons, nest_opener, Option.bind_some, nestWord_append, ihinside,
        Option.bind_some, nestWord_cons, nest_closer, Option.bind_some, ihrest]

/-- What closes some open brackets, innermost first, and whatever is opened in between. -/
def Closes : List Bracket → List Char → Prop
  | [], word => WellNested word
  | b :: stack, word => ∃ inside rest, word = inside ++ b.closer :: rest ∧ WellNested inside ∧
      Closes stack rest

theorem Closes.opener {b : Bracket} {stack : List Bracket} {word : List Char}
    (h : Closes (b :: stack) word) : Closes stack (b.opener :: word) := by
  obtain ⟨inside, rest, rfl, hinside, hrest⟩ := h
  cases stack with
  | nil => exact .pair b hinside hrest
  | cons b' stack =>
      obtain ⟨inside', rest', rfl, hinside', hrest'⟩ := hrest
      refine ⟨b.opener :: (inside ++ b.closer :: inside'), rest', ?_, .pair b hinside hinside',
        hrest'⟩
      simp

theorem closes_of_nestWord {word : List Char} (hword : ∀ c ∈ word, IsBracket c)
    {stack : List Bracket} (h : nestWord stack word = some []) : Closes stack word := by
  induction word generalizing stack with
  | nil =>
      obtain rfl : stack = [] := Option.some.inj h
      exact .nil
  | cons c word ih =>
      obtain ⟨⟨b, hc⟩, hrest⟩ := List.forall_mem_cons.1 hword
      rw [nestWord_cons] at h
      obtain ⟨inner, hinner, hafter⟩ := Option.bind_eq_some_iff.1 h
      rcases hc with rfl | rfl
      · rw [nest_opener] at hinner
        obtain rfl := Option.some.inj hinner
        exact (ih hrest hafter).opener
      · obtain rfl := exists_of_nest_closer hinner
        exact ⟨[], word, rfl, .nil, ih hrest hafter⟩

/-! ## Acceptance -/

theorem exists_scan_iff_after {source : List Char} :
    (∃ placed, scan source = .ok placed) ↔
      State.start.after (sourceTexts source) = some .start := by
  simp only [scan_eq_ok_iff, ← State.map_snd_run, Option.map_eq_some_iff, Prod.exists,
    exists_eq_right]

theorem exists_scan_iff_balanced {source : List Char} :
    (∃ placed, scan source = .ok placed) ↔ Balanced source := by
  rw [exists_scan_iff_after]
  constructor
  · intro h
    obtain ⟨word, hword⟩ := exists_reads h
    have hstack := hword.after_eq []
    change State.start.after _ = _ at hstack
    rw [h] at hstack
    obtain ⟨stack, hnest, hstart⟩ := Option.map_eq_some_iff.1 hstack.symm
    obtain rfl : stack = [] := congrArg State.stack hstart
    exact ⟨word, hword, closes_of_nestWord hword.isBracket hnest⟩
  · rintro ⟨word, hword, hnested⟩
    refine (hword.after_eq []).trans ?_
    rw [hnested.nestWord_eq]
    rfl

/-! ## Margins -/

/-- The margins of all lines with something on them can be made. -/
def Fits (indent : Int) (source : String) : Prop :=
  ∀ placed, scan source.toList = .ok placed → ∀ l ∈ placed, l.text ≠ [] →
    -(Text.widthBound : Int) ≤ indent * l.depth ∧ indent * l.depth < Text.widthBound

theorem exists_margin_iff {width : Int} : (∃ m, Text.margin width = .ok m) ↔
    -(Text.widthBound : Int) ≤ width ∧ width < Text.widthBound := by
  rw [Text.margin]
  constructor
  · rintro ⟨m, hm⟩
    split at hm
    · cases hm
    · omega
  · intro h
    rw [if_neg (by omega)]
    exact ⟨_, rfl⟩

theorem exists_render_iff {indent : Int} {l : PlacedLine} :
    (∃ r, l.render (some indent) = .ok r) ↔ (l.text ≠ [] →
      -(Text.widthBound : Int) ≤ indent * l.depth ∧ indent * l.depth < Text.widthBound) := by
  by_cases htext : l.text = []
  · have hrender : l.render (some indent) = .ok [] := by rw [PlacedLine.render, htext]
    simp [htext, hrender]
  · rw [PlacedLine.render_of_ne_nil htext, ← exists_margin_iff, PlacedLine.margin]
    cases Text.margin (indent * l.depth) <;> simp [Except.map, htext]

theorem exists_format_iff {indent : Int} {source : String} :
    (∃ text, format (some indent) source = .ok text) ↔
      Balanced source.toList ∧ Fits indent source := by
  rw [exists_format_eq_ok_iff, ← exists_scan_iff_balanced]
  simp only [exists_and_left, exists_mapM_eq_ok_iff, exists_render_iff]
  constructor
  · rintro ⟨placed, hscan, hrender⟩
    refine ⟨⟨placed, hscan⟩, fun placed' hscan' ↦ ?_⟩
    obtain rfl := Except.ok.inj (hscan'.symm.trans hscan)
    exact hrender
  · rintro ⟨⟨placed, hscan⟩, hfits⟩
    exact ⟨placed, hscan, hfits placed hscan⟩

end Typings.Layout

namespace Typings.Formatter

open Layout

theorem layout_eq_ok_iff {indent : Option Int} {source text : String} :
    layout indent source = .ok text ↔ format indent source = .ok text := by
  rw [layout]
  split <;> simp_all

theorem exists_layout_refused_iff {indent : Option Int} {source : String} :
    (∃ r, layout indent source = .error (.refused r)) ↔
      ∃ e, format indent source = .error (.scan e) := by
  rw [layout]
  split <;> simp_all

/-- The layout refuses a source exactly if it is not balanced. What it accepts it can lay out
exactly if the margins fit. -/
theorem layout_iff_balanced (indent : Int) (source : String) :
    ((∃ r, layout (some indent) source = .error (.refused r)) ↔ ¬ Balanced source.toList) ∧
      ((∃ text, layout (some indent) source = .ok text) ↔
        Balanced source.toList ∧ Fits indent source) := by
  constructor
  · rw [exists_layout_refused_iff, exists_format_eq_error_scan_iff, ← not_exists,
      exists_scan_iff_balanced]
  · simp only [layout_eq_ok_iff]
    exact exists_format_iff

/-- A balanced source is not laid out where the margin of a line within its brackets is too wide. -/
theorem wideMargin_not_layout : Balanced "\x7b\nx\n\x7d".toList ∧
    ∀ text, layout (some (-9223372036854775809)) "\x7b\nx\n\x7d" ≠ .ok text := by
  constructor
  · rw [← exists_scan_iff_balanced]
    exact ⟨_, rfl⟩
  · intro text h
    have hmargin : layout (some (-9223372036854775809)) "\x7b\nx\n\x7d" =
        .error (.broken (.margin .outOfRange)) := rfl
    cases hmargin.symm.trans h

end Typings.Formatter
