import Typings.Proofs.Contents
import Typings.Proofs.Delivery
import Typings.Proofs.OverlongNumerals
import Typings.Proofs.Rendering
import Typings.Proofs.Utf8Text

/-!
# How a run ends

A run that lays the module out itself and writes it to the standard output returns zero, or returns
one and has logged one error. What it is not prepared for is a path with a null character, input
that is no text, an integer of too many digits, a margin that cannot be made, and a text with a lone
surrogate; then it does not return.
-/

namespace Typings

/-! ## Margins that cannot be made -/

namespace Layout

/-- A line is not blank and has no margin: no width is given, or the margin's width is out of
range. -/
def PlacedLine.LacksMargin (indent : Option Int) (l : PlacedLine) : Prop :=
  l.text ≠ [] ∧ ∀ width, indent = some width →
    width * l.depth < -(Text.widthBound : Int) ∨ (Text.widthBound : Int) ≤ width * l.depth

theorem exists_margin_eq_error_iff {width : Int} : (∃ e, Text.margin width = .error e) ↔
    width < -(Text.widthBound : Int) ∨ (Text.widthBound : Int) ≤ width := by
  rw [Text.margin]
  split_ifs with hrange
  · exact iff_of_true ⟨_, rfl⟩ hrange
  · refine iff_of_false ?_ hrange
    rintro ⟨e, ⟨⟩⟩

theorem PlacedLine.exists_render_eq_error_iff {indent : Option Int} {l : PlacedLine} :
    (∃ e, l.render indent = .error e) ↔ l.LacksMargin indent := by
  by_cases hl : l.text = []
  · refine iff_of_false ?_ fun h ↦ h.1 hl
    rintro ⟨e, he⟩
    rw [render, hl] at he
    cases he
  · rw [render_of_ne_nil hl]
    cases indent with
    | none =>
        refine iff_of_true ⟨_, rfl⟩ ⟨hl, ?_⟩
        rintro _ ⟨⟩
    | some width =>
        have hmap : (∃ e, (l.margin (some width)).map (· ++ l.shown) = .error e) ↔
            ∃ e, Text.margin (width * l.depth) = .error e := by
          simp [exists_eq_error_iff, map_eq_ok_iff, margin]
        rw [hmap, exists_margin_eq_error_iff]
        constructor
        · intro h
          refine ⟨hl, ?_⟩
          rintro _ ⟨⟩
          exact h
        · intro h
          exact h.2 width rfl

variable {indent : Option Int} {source : String}

theorem exists_format_eq_error_margin_iff :
    (∃ e, format indent source = .error (.margin e)) ↔
      ∃ placed, scan source.toList = .ok placed ∧ ∃ l ∈ placed, l.LacksMargin indent := by
  simp only [← PlacedLine.exists_render_eq_error_iff, ← exists_mapM_eq_error_iff]
  rw [format, formatChars]
  cases scan source.toList with
  | error e => simp [Except.map]
  | ok placed =>
      dsimp only
      cases hplaced : placed.mapM (PlacedLine.render indent) with
      | error e => simp [Except.map, hplaced]
      | ok rendered => simp [Except.map, hplaced]

end Layout

namespace Command

/-! ## Logs -/

section

variable {s : Surroundings} {settings : Settings} {d : Description}

/-- A generation as such logs no error. -/
theorem level_generationLog (hprettier : settings.prettier = false) (options : Options)
    (d : Description) :
    ∀ l ∈ generationLog options settings.formatterName settings.formatterLog d,
      l.level = .debug := by
  intro l hl
  rw [generationLog, Settings.formatterLog, hprettier, if_neg Bool.false_ne_true] at hl
  rcases List.mem_append.1 hl with hl | hl
  · rcases List.mem_append.1 hl with hl | hl
    · obtain rfl := List.mem_singleton.1 hl
      rfl
    · obtain ⟨x, -, rfl⟩ := List.mem_map.1 hl
      rfl
  · split at hl
    · cases hl
    · obtain rfl := List.mem_singleton.1 hl
      rfl

/-- The errors that a run logs. -/
def Report.errors (r : Report) : List LogLine := r.log.filter (·.level == .error)

theorem filter_eq_nil_of_debug {log : List LogLine} (h : ∀ l ∈ log, l.level = .debug) :
    log.filter (·.level == .error) = [] := by
  rw [List.filter_eq_nil_iff]
  intro l hl
  rw [h l hl]
  decide

/-- Errors are logged whether or not the run is verbose. -/
theorem errors_shown (r : Report) (verbose : Bool) :
    Report.errors { r with log := r.log.filter (LogLine.isShown verbose) } = r.errors := by
  rw [Report.errors, Report.errors, List.filter_filter]
  congr 1
  funext l
  cases hl : l.level == Level.error with
  | true => simp [LogLine.isShown, hl]
  | false => rfl

/-! ## Ends -/

/-- A run returns zero and has logged no error, or returns one and has logged one. -/
inductive Report.Concludes (r : Report) : Prop
  | success (hending : r.ending = .returned 0) (herrors : r.errors = [])
  | failure {line : LogLine} (hending : r.ending = .returned 1) (herrors : r.errors = [line])

theorem concludes_failure {log : List LogLine} (h : ∀ l ∈ log, l.level = .debug)
    (message : String) : (failure s log message).Concludes := by
  apply Report.Concludes.failure rfl
  rw [Report.errors, failure, List.filter_append, filter_eq_nil_of_debug h]
  rfl

/-- A run concludes, or something has been overlooked and it crashes. -/
def Report.ConcludesUnless (r : Report) (overlooked : Prop) : Prop :=
  r.Concludes ∧ ¬ overlooked ∨ (∃ e, r.ending = .crashed e) ∧ overlooked

theorem Report.ConcludesUnless.concludes_iff {r : Report} {overlooked : Prop}
    (h : r.ConcludesUnless overlooked) : r.Concludes ↔ ¬ overlooked := by
  rcases h with ⟨hconcludes, hnot⟩ | ⟨⟨e, hcrash⟩, hoverlooked⟩
  · exact iff_of_true hconcludes hnot
  · refine iff_of_false ?_ (not_not_intro hoverlooked)
    intro hconcludes
    cases hconcludes with
    | success hending _ | failure hending _ => cases hending.symm.trans hcrash

/-- What is shown of the log makes no difference. -/
theorem Report.ConcludesUnless.shown {r : Report} {overlooked : Prop}
    (h : r.ConcludesUnless overlooked) (verbose : Bool) :
    Report.ConcludesUnless { r with log := r.log.filter (LogLine.isShown verbose) } overlooked := by
  refine h.imp_left (And.imp_left fun hconcludes ↦ ?_)
  cases hconcludes with
  | success hending herrors => exact .success hending ((errors_shown r verbose).trans herrors)
  | failure hending herrors => exact .failure hending ((errors_shown r verbose).trans herrors)

theorem Report.ConcludesUnless.congr {r : Report} {p q : Prop} (h : r.ConcludesUnless p)
    (hpq : p ↔ q) : r.ConcludesUnless q := propext hpq ▸ h

/-! ## What is overlooked -/

/-- A margin of the module that is made of a description cannot be made. -/
def Settings.LacksMargin (settings : Settings) (d : Description) : Prop :=
  ∃ m placed, d.toModule = .ok m ∧
    Layout.scan (m.render { apiTypeName := settings.apiTypeName }).toList = .ok placed ∧
      ∃ l ∈ placed, l.LacksMargin settings.indent

theorem lacksMargin_iff {m : Module} (h : d.toModule = .ok m) : settings.LacksMargin d ↔
    ∃ e, Layout.format settings.indent (m.render { apiTypeName := settings.apiTypeName }) =
      .error (.margin e) := by
  rw [Layout.exists_format_eq_error_margin_iff]
  constructor
  · rintro ⟨m', placed, hm', hplaced⟩
    obtain rfl := Except.ok.inj (h.symm.trans hm')
    exact ⟨placed, hplaced⟩
  · rintro ⟨placed, hplaced⟩
    exact ⟨m, placed, h, hplaced⟩

theorem runDescription_concludesUnless {σ : Text.StandIns} (hprettier : settings.prettier = false)
    (hout : settings.outputPath = none) : (runDescription s settings σ d).ConcludesUnless
      (settings.LacksMargin d ∨ ∃ text, generate { apiTypeName := settings.apiTypeName
                                                   formatter := .layout settings.indent } d =
        .ok text ∧ σ.Occurs text) := by
  have hlog := level_generationLog hprettier (settings.options s.program σ) d
  rw [← settings.options_of_not_prettier hprettier s.program σ]
  cases hmodule : d.toModule with
  | error f =>
      rw [runDescription, generate, hmodule]
      refine .inl ⟨concludes_failure hlog _, ?_⟩
      rintro (⟨m, placed, hm, -⟩ | ⟨text, ⟨⟩, -⟩)
      cases hmodule.symm.trans hm
  | ok m =>
      have hgenerate : generate (settings.options s.program σ) d =
          (Formatter.layout settings.indent
            (m.render { apiTypeName := settings.apiTypeName })).mapError .format := by
        rw [generate_of_toModule hmodule, settings.options_of_not_prettier hprettier]
      rw [lacksMargin_iff hmodule, runDescription, hgenerate, Formatter.layout]
      cases Layout.format settings.indent (m.render { apiTypeName := settings.apiTypeName }) with
      | ok text =>
          dsimp only [Except.mapError]
          rw [hout]
          dsimp only
          cases hencode : σ.encode text with
          | ok bytes =>
              refine .inl ⟨.success rfl (filter_eq_nil_of_debug hlog), ?_⟩
              rintro (⟨e, ⟨⟩⟩ | ⟨_, ⟨⟩, hoccurs⟩)
              exact (Text.StandIns.encode_eq_ok_iff.1 hencode).1 hoccurs
          | error flaw =>
              have hoccurs := Text.StandIns.exists_encode_eq_error_iff.1 ⟨flaw, hencode⟩
              exact .inr ⟨⟨_, rfl⟩, .inr ⟨text, rfl, hoccurs⟩⟩
      | error e =>
          cases e with
          | scan e =>
              refine .inl ⟨concludes_failure hlog _, ?_⟩
              rintro (⟨e', ⟨⟩⟩ | ⟨text, ⟨⟩, -⟩)
          | margin e => exact .inr ⟨⟨_, rfl⟩, .inl ⟨e, rfl⟩⟩

/-- Input that the run is not prepared for: bytes that are no text, and a path that holds the null
character. -/
inductive IsBadInput (s : Surroundings) (input : String) : Prop
  | stdin {e : Text.Utf8Error} (hinput : input = "-") (hflaw : s.stdinFlaw = some e)
  | path (hinput : input ≠ "-") (hnull : (Path.ofText input).hasNull = true)
  | file {bytes : List UInt8} (hinput : input ≠ "-")
      (hnull : (Path.ofText input).hasNull = false)
      (hread : s.tree.read s.working (Path.ofText input) = .ok bytes)
      (hbytes : ¬ bytes.toByteArray.IsValidUTF8)

theorem exists_decodeText_eq_crash_iff {bytes : List UInt8} :
    (∃ e, decodeText bytes = .error (.crash e)) ↔ ¬ bytes.toByteArray.IsValidUTF8 := by
  rw [← Text.exists_decodeUtf8_iff, decodeText]
  cases Text.decodeUtf8 bytes with
  | ok cs => simp
  | error e => simp

theorem exists_readInput_eq_crash_iff {input : String} :
    (∃ e, readInput s input = .error (.crash e)) ↔ IsBadInput s input := by
  rw [readInput]
  split_ifs with hinput
  · cases hflaw : s.stdinFlaw with
    | some e => exact iff_of_true ⟨_, rfl⟩ (.stdin hinput hflaw)
    | none =>
        refine iff_of_false ?_ ?_
        · rintro ⟨e, ⟨⟩⟩
        · rintro (⟨-, hflaw'⟩ | ⟨hinput', -⟩ | ⟨hinput', -⟩)
          · cases hflaw.symm.trans hflaw'
          · exact hinput' hinput
          · exact hinput' hinput
  · dsimp only
    by_cases hnull : (Path.ofText input).hasNull = true
    · rw [if_pos hnull]
      exact iff_of_true ⟨_, rfl⟩ (.path hinput hnull)
    · rw [if_neg hnull]
      cases hfile : s.tree.read s.working (Path.ofText input) with
      | error cause =>
          refine iff_of_false ?_ ?_
          · rintro ⟨e, ⟨⟩⟩
          · rintro (⟨hinput', -⟩ | ⟨-, hnull'⟩ | ⟨-, -, hfile', -⟩)
            · exact hinput hinput'
            · exact hnull hnull'
            · cases hfile.symm.trans hfile'
      | ok bytes =>
          dsimp only
          rw [exists_decodeText_eq_crash_iff]
          constructor
          · exact .file hinput (Bool.eq_false_iff.2 hnull) hfile
          · rintro (⟨hinput', -⟩ | ⟨-, hnull'⟩ | ⟨-, -, hfile', hbytes⟩)
            · exact absurd hinput' hinput
            · exact absurd hnull' hnull
            · obtain rfl := Except.ok.inj (hfile.symm.trans hfile')
              exact hbytes

/-- What a run is not prepared for. -/
inductive Overlooks (s : Surroundings) (settings : Settings) : Prop
  | input (h : IsBadInput s settings.input)
  | numeral {text : String} {n : Nat} (hread : readInput s settings.input = .ok text)
      (hmeets : Json.MeetsOverlong (settings.standIns text) text.toList n)
  | margin {text : String} {d : Description} (hread : readInput s settings.input = .ok text)
      (hparse : Wire.parseWith (settings.standIns text) .builtin text = .ok d)
      (hmargin : settings.LacksMargin d)
  | surrogate {σ : Text.StandIns} {text : String} (hgenerates : settings.Generates s σ text)
      (hoccurs : σ.Occurs text)

theorem not_overlooks_of_unreadable {e : SystemError}
    (hread : readInput s settings.input = .error (.unreadable e)) : ¬ Overlooks s settings := by
  rintro (hbad | ⟨hread', -⟩ | ⟨hread', -⟩ | ⟨⟨_, _, hread', -⟩, -⟩)
  · obtain ⟨e', hread'⟩ := exists_readInput_eq_crash_iff.2 hbad
    cases hread.symm.trans hread'
  all_goals cases hread.symm.trans hread'

theorem overlooks_iff_of_read {input : String} (hread : readInput s settings.input = .ok input) :
    Overlooks s settings ↔
      (∃ n, Wire.parseWith (settings.standIns input) .builtin input =
        .error (.text (.numeralTooLong n))) ∨
        ∃ d, Wire.parseWith (settings.standIns input) .builtin input = .ok d ∧
          (settings.LacksMargin d ∨ ∃ text, generate { apiTypeName := settings.apiTypeName
                                                       formatter := .layout settings.indent } d =
            .ok text ∧ (settings.standIns input).Occurs text) := by
  constructor
  · rintro (hbad | ⟨hread', hmeets⟩ | ⟨hread', hparse, hmargin⟩ |
      ⟨⟨_, d, hread', rfl, hparse, hgenerate⟩, hoccurs⟩)
    · obtain ⟨e, he⟩ := exists_readInput_eq_crash_iff.2 hbad
      cases hread.symm.trans he
    · obtain rfl := Except.ok.inj (hread.symm.trans hread')
      exact .inl ⟨_, Wire.parseWith_eq_numeralTooLong_iff.2 hmeets⟩
    · obtain rfl := Except.ok.inj (hread.symm.trans hread')
      exact .inr ⟨_, hparse, .inl hmargin⟩
    · obtain rfl := Except.ok.inj (hread.symm.trans hread')
      exact .inr ⟨d, hparse, .inr ⟨_, hgenerate, hoccurs⟩⟩
  · rintro (⟨n, hparse⟩ | ⟨d, hparse, hmargin | ⟨text, hgenerate, hoccurs⟩⟩)
    · exact .numeral hread (Wire.parseWith_eq_numeralTooLong_iff.1 hparse)
    · exact .margin hread hparse hmargin
    · exact .surrogate ⟨input, d, hread, rfl, hparse, hgenerate⟩ hoccurs

theorem runSettings_concludesUnless (hprettier : settings.prettier = false)
    (hout : settings.outputPath = none) :
    (runSettings s settings).ConcludesUnless (Overlooks s settings) := by
  have hrefused (message : String) : (failure s [] message).Concludes :=
    concludes_failure (List.forall_mem_nil _) message
  rw [runSettings]
  cases hread : readInput s settings.input with
  | error e =>
      cases e with
      | crash e => exact .inr ⟨⟨e, rfl⟩, .input (exists_readInput_eq_crash_iff.1 ⟨e, hread⟩)⟩
      | unreadable e => exact .inl ⟨hrefused _, not_overlooks_of_unreadable hread⟩
  | ok input =>
      rw [overlooks_iff_of_read hread]
      dsimp only
      cases Wire.parseWith (settings.standIns input) .builtin input with
      | error e =>
          cases e with
          | content e => exact .inl ⟨hrefused _, by simp⟩
          | text e =>
              cases e with
              | malformed reason place => exact .inl ⟨hrefused _, by simp⟩
              | numeralTooLong n => exact .inr ⟨⟨_, rfl⟩, .inl ⟨n, rfl⟩⟩
      | ok d =>
          apply (runDescription_concludesUnless hprettier hout).congr
          simp

end

/-- A run that lays the module out itself and writes it to the standard output concludes unless it
is not prepared for what it finds, and crashes then. -/
theorem run_concludes_iff {s : Surroundings} {arguments : List String} {settings : Settings}
    (hparse : parseArguments arguments = .ok settings) (hprettier : settings.prettier = false)
    (hout : settings.outputPath = none) :
    ((run s arguments).Concludes ↔ ¬ Overlooks s settings) ∧
      (Overlooks s settings → ∃ e, (run s arguments).ending = .crashed e) := by
  have hends := (runSettings_concludesUnless (s := s) hprettier hout).shown settings.verbose
  rw [run_of_parseArguments hparse]
  refine ⟨hends.concludes_iff, fun hoverlooks ↦ ?_⟩
  rcases hends with ⟨-, hnot⟩ | ⟨hcrash, -⟩
  · exact absurd hoverlooks hnot
  · exact hcrash

theorem run_emptyApi_concludes :
    ¬ Overlooks emptyApi { input := "-" } ∧ (run emptyApi ["-"]).Concludes := by
  have hsettings : parseArguments ["-"] = .ok { input := "-" } := rfl
  have hending : (run emptyApi ["-"]).ending = .returned 0 := by
    with_unfolding_all rfl
  obtain ⟨hconcludes, hcrashes⟩ := run_concludes_iff (s := emptyApi) hsettings rfl rfl
  have hprepared : ¬ Overlooks emptyApi { input := "-" } := by
    intro hoverlooks
    obtain ⟨e, he⟩ := hcrashes hoverlooks
    cases hending.symm.trans he
  exact ⟨hprepared, hconcludes.2 hprepared⟩

/-- A file that holds a single byte, which begins no character. -/
def bytesFile : Surroundings :=
  { tree := ⟨[(["work"], .directory), (["work", "api.json"], .file [0xFF])]⟩
    working := ["work"]
    stdin := ""
    program := fun _ _ ↦ .error (.system .notFound) }

theorem run_bytesFile_crashes :
    parseArguments ["api.json"] = .ok { input := "api.json" } ∧
      (run bytesFile ["api.json"]).ending = .crashed (.undecodable ⟨.invalidStart, 0xFF, 0, 1⟩) ∧
      ¬ (run bytesFile ["api.json"]).Concludes := by
  have hending : (run bytesFile ["api.json"]).ending =
      .crashed (.undecodable ⟨.invalidStart, 0xFF, 0, 1⟩) := by
    with_unfolding_all rfl
  refine ⟨rfl, hending, ?_⟩
  intro hconcludes
  cases hconcludes with
  | success hreturned _ | failure hreturned _ => cases hending.symm.trans hreturned

end Command

end Typings
