import Typings.Command.Run
import Typings.Proofs.LoneSurrogates
import Typings.Proofs.Outcome

/-!
# Delivery of the generated text

A run of the command that returns zero has delivered the text that was generated, and that is all it
has done besides making directories; any other run has delivered nothing, and has left every file as
it was. Directories that lead to the output may have been made before the system refuses the rest,
and a text with a lone surrogate shows that it cannot be encoded only when its file has been opened,
and so emptied.
-/

namespace Typings.Command

namespace FileTree

variable {t t' t'' : FileTree} {working : Place} {p : Path}

/-! ## Growth -/

/-- What is at a place stays, unless nothing is there and it becomes a directory. -/
def Kept (before after : Option Item) : Prop :=
  after = before ∨ before = none ∧ after = some .directory

theorem Kept.trans {first second third : Option Item} (h : Kept first second)
    (h' : Kept second third) : Kept first third := by
  rcases h' with rfl | ⟨hnone, hnew⟩
  · exact h
  · rcases h with hsame | ⟨-, hdirectory⟩
    · exact .inr ⟨hsame ▸ hnone, hnew⟩
    · rw [hdirectory] at hnone
      cases hnone

/-- Nothing has changed but for new directories. -/
def Extends (t t' : FileTree) : Prop := ∀ place, Kept (t.item? place) (t'.item? place)

theorem Extends.refl (t : FileTree) : t.Extends t := fun _ ↦ .inl rfl

theorem Extends.trans (h : t.Extends t') (h' : t'.Extends t'') : t.Extends t'' :=
  fun place ↦ (h place).trans (h' place)

theorem item?_put {place : Place} (hplace : place ≠ []) (item : Item) (other : Place) :
    (t.put place item).item? other = if place = other then some item else t.item? other := by
  by_cases hother : other = []
  · subst hother
    rw [item?, item?, if_pos rfl, if_pos rfl, if_neg hplace]
  · rw [item?, item?, if_neg hother, if_neg hother, put, Assoc.find?_insert]

/-- Whatever a computation comes to, the tree has grown from this one. -/
def GrowsTo {ε α : Type} (t : FileTree) : EStateM.Result ε FileTree α → Prop
  | .ok _ t' | .error _ t' => t.Extends t'

theorem Extends.growsTo {ε α : Type} {r : EStateM.Result ε FileTree α} (h : t.Extends t')
    (hr : t'.GrowsTo r) : t.GrowsTo r := by
  cases r with
  | ok a t'' => exact h.trans hr
  | error e t'' => exact h.trans hr

theorem GrowsTo.adaptExcept {ε ε' α : Type} {x : EStateM ε FileTree α} (f : ε → ε')
    (h : t.GrowsTo (x.run t)) : t.GrowsTo ((x.adaptExcept f).run t) := by
  change t.GrowsTo (EStateM.adaptExcept f x t)
  unfold EStateM.adaptExcept
  change t.GrowsTo (x t) at h
  cases hrun : x t with
  | ok a t' =>
      rw [hrun] at h
      exact h
  | error e t' =>
      rw [hrun] at h
      exact h

theorem extends_of_makeDirectory (h : t.makeDirectory working p = .ok t') : t.Extends t' := by
  rw [makeDirectory] at h
  cases htarget : t.target working p with
  | error cause =>
      rw [htarget] at h
      cases h
  | ok found =>
      rw [htarget] at h
      obtain ⟨place, _ | name⟩ := found
      · cases h
      · change (if (t.item? (place ++ [name])).isSome then .error _ else .ok _) = Except.ok t' at h
        split_ifs at h with hitem
        cases h
        intro other
        rw [item?_put (by simp)]
        split_ifs with hother
        · subst hother
          exact .inr ⟨Option.not_isSome_iff_eq_none.1 hitem, rfl⟩
        · exact .inl rfl

theorem growsTo_settle : t.GrowsTo
    ((settle working p (t.makeDirectory working p)).run t) := by
  cases hmade : t.makeDirectory working p with
  | ok t' => exact extends_of_makeDirectory hmade
  | error cause =>
      rw [settle, run_get_bind]
      split_ifs
      · exact Extends.refl t
      · exact Extends.refl t

theorem growsTo_ensureDirectory (root : String) (components : List String) :
    t.GrowsTo ((ensureDirectory working root components).run t) := by
  induction components generalizing t with
  | nil => exact growsTo_settle
  | cons name outer ih =>
      rw [ensureDirectory, run_get_bind]
      split
      · have houter := ih (t := t)
        rw [run_bind]
        cases hrun : (ensureDirectory working root outer).run t with
        | error e t' =>
            rw [hrun] at houter
            exact houter
        | ok _ t' =>
            rw [hrun] at houter
            exact houter.growsTo growsTo_settle
      · exact growsTo_settle

/-! ## Writing -/

/-- The file at a path holds some bytes, and apart from it nothing has changed but for new
directories. -/
def Receives (t t' : FileTree) (working : Place) (p : Path) (bytes : List UInt8) : Prop :=
  ∃ place, t'.locate working p = .ok place ∧ t'.item? place = some (.file bytes) ∧
    ∀ other, other ≠ place → Kept (t.item? other) (t'.item? other)

theorem Extends.receives {bytes : List UInt8} (h : t.Extends t')
    (ht : t'.Receives t'' working p bytes) : t.Receives t'' working p bytes := by
  obtain ⟨place, hlocate, hitem, hothers⟩ := ht
  exact ⟨place, hlocate, hitem, fun other hother ↦ (h other).trans (hothers other hother)⟩

theorem step_eq_ok_iff {place place' : Place} {name : String} :
    t.step place name = .ok place' ↔ t.item? place = some .directory ∧
      ((name = ".." ∧ place.dropLast = place') ∨ (name ≠ ".." ∧ name.utf8ByteSize ≤ nameLimit ∧
        (t.item? (place ++ [name])).isSome ∧ place ++ [name] = place')) := by
  unfold step
  split
  · next hitem =>
    rw [hitem]
    split_ifs with hup hlong hsome
    · simp [hup]
    · simp [hup, Nat.not_le.2 hlong]
    · simp [hup, Nat.not_lt.1 hlong, hsome]
    · simp [hup, hsome]
  · next hitem => simp [hitem]
  · next hitem => simp [hitem]

section Put

variable {place place' q : Place} {bytes : List UInt8}

theorem ne_nil_of_notDirectory (hq : t.item? q ≠ some .directory) : q ≠ [] := by
  rintro rfl
  exact hq (if_pos rfl)

/-- A file that is put where no directory is does not get in the way. -/
theorem step_put {name : String} (hq : t.item? q ≠ some .directory)
    (h : t.step place name = .ok place') :
    (t.put q (.file bytes)).step place name = .ok place' := by
  rw [step_eq_ok_iff] at h ⊢
  obtain ⟨hitem, hnext⟩ := h
  have hne : q ≠ place := by
    rintro rfl
    exact hq hitem
  rw [item?_put (ne_nil_of_notDirectory hq), if_neg hne]
  refine ⟨hitem, hnext.imp_right ?_⟩
  rintro ⟨hup, hshort, hsome, rfl⟩
  refine ⟨hup, hshort, ?_, rfl⟩
  rw [item?_put (ne_nil_of_notDirectory hq)]
  split_ifs
  · rfl
  · exact hsome

theorem follow_cons {name : String} {rest : List String} (h : t.step place name = .ok place') :
    t.follow place (name :: rest) = t.follow place' rest := by
  rw [follow, h]

theorem exists_of_follow_cons {name : String} {rest : List String}
    (h : t.follow place (name :: rest) = .ok place') :
    ∃ next, t.step place name = .ok next ∧ t.follow next rest = .ok place' := by
  rw [follow] at h
  cases hstep : t.step place name with
  | error cause =>
      rw [hstep] at h
      cases h
  | ok next =>
      rw [hstep] at h
      exact ⟨next, rfl, h⟩

theorem follow_put {names : List String}
    (hq : t.item? q ≠ some .directory) (h : t.follow place names = .ok place') :
    (t.put q (.file bytes)).follow place names = .ok place' := by
  induction names generalizing place with
  | nil => exact h
  | cons name rest ih =>
      obtain ⟨next, hstep, h⟩ := exists_of_follow_cons h
      rw [follow_cons (step_put hq hstep)]
      exact ih h

theorem follow_append {names rest : List String} (h : t.follow place names = .ok place') :
    t.follow place (names ++ rest) = t.follow place' rest := by
  induction names generalizing place with
  | nil =>
      cases h
      rfl
  | cons name names ih =>
      obtain ⟨next, hstep, h⟩ := exists_of_follow_cons h
      rw [List.cons_append, follow_cons hstep]
      exact ih h

end Put

/-- Where a path that ends in a name leads to: that name within the directory of the parent. -/
theorem exists_of_target {place : Place} {name : String}
    (h : t.target working p = .ok (place, some name)) :
    ∃ outer, p.components = outer ++ [name] ∧ name ≠ ".." ∧ name.utf8ByteSize ≤ nameLimit ∧
      p.text.utf8ByteSize ≤ pathLimit ∧ t.follow (origin working p) outer = .ok place ∧
      t.item? place = some .directory := by
  unfold target at h
  split_ifs at h with hlong
  split at h
  · cases h
  · cases hlocate : t.locate working p with
    | error cause =>
        rw [hlocate] at h
        cases h
    | ok place' =>
        rw [hlocate] at h
        cases h
  · next last hup hlast =>
    obtain ⟨outer, houter⟩ := List.getLast?_eq_some_iff.1 hlast
    have hparent : p.parent.components = outer := by
      rw [Path.parent, houter, List.dropLast_concat]
    cases hlocate : t.locate working p.parent with
    | error cause =>
        rw [hlocate] at h
        cases h
    | ok place' =>
        rw [hlocate] at h
        dsimp only at h
        split at h
        · next hitem =>
          split_ifs at h with hname
          cases h
          rw [locate] at hlocate
          split_ifs at hlocate
          rw [hparent] at hlocate
          exact ⟨outer, houter, hup, Nat.not_lt.1 hname, Nat.not_lt.1 hlong, hlocate, hitem⟩
        · cases h

theorem receives_of_write {bytes : List UInt8} (h : t.write working p bytes = .ok t') :
    t.Receives t' working p bytes := by
  obtain ⟨⟨place, _ | name⟩, htarget, h⟩ := exists_of_bind_eq_ok h
  · cases h
  · obtain ⟨outer, hp, hup, hshort, hlength, hfollow, hdirectory⟩ := exists_of_target htarget
    dsimp only at h
    -- No directory is overwritten, so the way to the place is still there afterwards.
    have hfree : t.item? (place ++ [name]) ≠ some .directory := by
      intro hitem
      rw [hitem] at h
      cases h
    obtain rfl : t.put (place ++ [name]) (.file bytes) = t' := by
      split at h
      · cases h
      · exact Except.ok.inj h
    have hput (other : Place) :=
      item?_put (t := t) (ne_nil_of_notDirectory hfree) (.file bytes) other
    have hstep :
        (t.put (place ++ [name]) (.file bytes)).step place name = .ok (place ++ [name]) := by
      rw [step_eq_ok_iff, hput, hput, if_neg (by simp), if_pos rfl]
      exact ⟨hdirectory, .inr ⟨hup, hshort, rfl, rfl⟩⟩
    refine ⟨place ++ [name], ?_, ?_, fun other hother ↦ .inl ?_⟩
    · rw [locate, if_neg (Nat.not_lt.2 hlength), hp, follow_append (follow_put hfree hfollow),
        follow_cons hstep]
      rfl
    · rw [hput, if_pos rfl]
    · rw [hput, if_neg hother.symm]

end FileTree

/-! ## Delivery -/

/-- What a delivery leaves: the text in its file or, if it fails, no file that is new or changed.
But the file of a text that cannot be encoded is left empty. -/
def Delivers (σ : Text.StandIns) (t : FileTree) (working : Place) (p : Path) (text : String) :
    EStateM.Result Crash FileTree Unit → Prop
  | .ok _ t' => ¬ σ.Occurs text ∧ t.Receives t' working p (Text.encodeUtf8 text)
  | .error e t' => t.Extends t' ∨
    (∃ flaw, e = .unencodable flaw) ∧ σ.Occurs text ∧ t.Receives t' working p []

section

variable (σ : Text.StandIns) (t : FileTree) (working : Place) (p : Path) (text : String)

theorem writeBytes_cases (bytes : List UInt8) :
    (∃ t', (writeBytes working p bytes).run t = .ok () t' ∧ t.Receives t' working p bytes) ∨
      ∃ e, (writeBytes working p bytes).run t = .error e t := by
  unfold writeBytes
  split_ifs
  · exact .inr ⟨_, rfl⟩
  · rw [run_get_bind]
    cases hwrite : t.write working p bytes with
    | ok t' => exact .inl ⟨t', rfl, FileTree.receives_of_write hwrite⟩
    | error cause => exact .inr ⟨_, rfl⟩

theorem delivers_writeText : Delivers σ t working p text ((writeText σ working p text).run t) := by
  rw [writeText]
  cases hencode : σ.encode text with
  | ok bytes =>
      obtain ⟨hfree, rfl⟩ := Text.StandIns.encode_eq_ok_iff.1 hencode
      rcases writeBytes_cases t working p (Text.encodeUtf8 text) with ⟨t', hrun, ht'⟩ | ⟨e, hrun⟩
      · dsimp only
        rw [hrun]
        exact ⟨hfree, ht'⟩
      · dsimp only
        rw [hrun]
        exact .inl (FileTree.Extends.refl t)
  | error flaw =>
      have hoccurs := Text.StandIns.exists_encode_eq_error_iff.1 ⟨flaw, hencode⟩
      dsimp only
      rw [run_bind]
      rcases writeBytes_cases t working p [] with ⟨t', hrun, ht'⟩ | ⟨e, hrun⟩
      · rw [hrun]
        exact .inr ⟨⟨flaw, rfl⟩, hoccurs, ht'⟩
      · rw [hrun]
        exact .inl (FileTree.Extends.refl t)

theorem delivers_deliver : Delivers σ t working p text ((deliver σ working p text).run t) := by
  unfold deliver
  split_ifs
  · exact .inl (FileTree.Extends.refl t)
  · have hensure : t.GrowsTo ((FileTree.ensureDirectory working p.root
        p.parent.components.reverse).run t) :=
      FileTree.growsTo_ensureDirectory _ _
    have hgrows := hensure.adaptExcept Crash.system
    rw [run_bind]
    cases hrun : ((FileTree.ensureDirectory working p.root p.parent.components.reverse).adaptExcept
        Crash.system).run t with
    | error e t' =>
        rw [hrun] at hgrows
        exact .inl hgrows
    | ok _ t' =>
        rw [hrun] at hgrows
        have hwrite := delivers_writeText σ t' working p text
        dsimp only
        cases hresult : (writeText σ working p text).run t' with
        | error e t'' =>
            rw [hresult] at hwrite
            exact hwrite.imp hgrows.trans (And.imp_right (And.imp_right hgrows.receives))
        | ok _ t'' =>
            rw [hresult] at hwrite
            exact hwrite.imp_right hgrows.receives

end

/-- Where the text of a run goes: to the standard output, or into the file that is asked for. -/
def Settings.Delivered (settings : Settings) (s : Surroundings) (text : String) (report : Report) :
    Prop :=
  match settings.outputPath with
  | none => report.stdout = text ∧ report.tree = s.tree
  | some p => report.stdout = "" ∧
      s.tree.Receives report.tree s.working p (Text.encodeUtf8 text)

/-- A report of a run that has come to nothing. -/
structure Report.IsFailure (s : Surroundings) (report : Report) : Prop where
  ending : report.ending = .returned 1 ∨ ∃ e, report.ending = .crashed e
  stdout : report.stdout = ""
  tree : s.tree.Extends report.tree

theorem isFailure_failure (s : Surroundings) (log : List LogLine) (message : String) :
    (failure s log message).IsFailure s :=
  ⟨.inl rfl, rfl, FileTree.Extends.refl _⟩

theorem isFailure_failGeneration (s : Surroundings) (settings : Settings) (log : List LogLine)
    (e : GenerationError) : (failGeneration s settings log e).IsFailure s := by
  unfold failGeneration
  split
  · exact isFailure_failure s _ _
  · exact ⟨.inr ⟨_, rfl⟩, rfl, FileTree.Extends.refl _⟩
  · exact isFailure_failure s _ _

/-- A report of a run that could not encode its text: the file for it is left empty, and apart from
that the run has come to nothing. -/
structure Report.LeavesEmpty (s : Surroundings) (settings : Settings) (report : Report) : Prop where
  ending : ∃ e, report.ending = .crashed (.unencodable e)
  stdout : report.stdout = ""
  tree : ∃ p, settings.outputPath = some p ∧ s.tree.Receives report.tree s.working p []

/-- What a run for a description amounts to: it returns zero and has delivered what is generated, or
it is a failure, or it leaves the file empty that the text is for. -/
theorem runDescription_cases (s : Surroundings) (settings : Settings) (σ : Text.StandIns)
    (d : Description) :
    (runDescription s settings σ d).IsFailure s ∨
      ∃ text, generate (settings.options s.program σ) d = .ok text ∧
        ((runDescription s settings σ d).ending = .returned 0 ∧ ¬ σ.Occurs text ∧
            settings.Delivered s text (runDescription s settings σ d) ∨
          (runDescription s settings σ d).LeavesEmpty s settings ∧ σ.Occurs text) := by
  unfold runDescription Settings.Delivered
  dsimp only
  cases hgenerate : generate (settings.options s.program σ) d with
  | error e => exact .inl (isFailure_failGeneration s settings _ e)
  | ok text =>
      cases hpath : settings.outputPath with
      | none =>
          dsimp only
          cases hencode : σ.encode text with
          | error flaw => exact .inl ⟨.inr ⟨_, rfl⟩, rfl, FileTree.Extends.refl _⟩
          | ok bytes =>
              have hfree := (Text.StandIns.encode_eq_ok_iff.1 hencode).1
              exact .inr ⟨text, rfl, .inl ⟨rfl, hfree, rfl, rfl⟩⟩
      | some p =>
          have hdeliver := delivers_deliver σ s.tree s.working p text
          dsimp only
          cases hrun : (deliver σ s.working p text).run s.tree with
          | ok _ t =>
              rw [hrun] at hdeliver
              exact .inr ⟨text, rfl, .inl ⟨rfl, hdeliver.1, rfl, hdeliver.2⟩⟩
          | error e t =>
              rw [hrun] at hdeliver
              rcases hdeliver with hextends | ⟨⟨flaw, rfl⟩, hoccurs, hempty⟩
              · exact .inl ⟨.inr ⟨e, rfl⟩, rfl, hextends⟩
              · exact .inr ⟨text, rfl, .inr ⟨⟨⟨flaw, rfl⟩, rfl, p, hpath, hempty⟩, hoccurs⟩⟩

/-- A run generates a text from its input, laying the module out itself; `σ` says what stands for
the lone surrogates of the input. -/
def Settings.Generates (settings : Settings) (s : Surroundings) (σ : Text.StandIns)
    (text : String) : Prop :=
  ∃ input d, readInput s settings.input = .ok input ∧ settings.standIns input = σ ∧
    Wire.parseWith σ .builtin input = .ok d ∧
    generate { apiTypeName := settings.apiTypeName
               formatter := Formatter.layout settings.indent } d = .ok text

theorem run_of_parseArguments {s : Surroundings} {arguments : List String} {settings : Settings}
    (h : parseArguments arguments = .ok settings) : run s arguments =
      { runSettings s settings with
        log := (runSettings s settings).log.filter (LogLine.isShown settings.verbose) } := by
  rw [run, h]

theorem Settings.options_of_not_prettier (settings : Settings) (h : settings.prettier = false)
    (program : Runner) (σ : Text.StandIns) : settings.options program σ =
      { apiTypeName := settings.apiTypeName, formatter := Formatter.layout settings.indent } := by
  rw [options, formatter, h, if_neg Bool.false_ne_true]

theorem runSettings_cases (s : Surroundings) {settings : Settings}
    (hprettier : settings.prettier = false) :
    (runSettings s settings).IsFailure s ∨
      ∃ σ text, settings.Generates s σ text ∧
        ((runSettings s settings).ending = .returned 0 ∧ ¬ σ.Occurs text ∧
            settings.Delivered s text (runSettings s settings) ∨
          (runSettings s settings).LeavesEmpty s settings ∧ σ.Occurs text) := by
  unfold runSettings
  cases hread : readInput s settings.input with
  | error e =>
      cases e with
      | unreadable e => exact .inl (isFailure_failure s _ _)
      | crash e => exact .inl ⟨.inr ⟨e, rfl⟩, rfl, FileTree.Extends.refl _⟩
  | ok input =>
      dsimp only
      split
      · exact .inl ⟨.inr ⟨_, rfl⟩, rfl, FileTree.Extends.refl _⟩
      · exact .inl (isFailure_failure s _ _)
      · next d hparse =>
        apply (runDescription_cases s settings (settings.standIns input) d).imp_right
        rintro ⟨text, hgenerate, houtcome⟩
        rw [settings.options_of_not_prettier hprettier] at hgenerate
        exact ⟨settings.standIns input, text, ⟨input, d, hread, rfl, hparse, hgenerate⟩, houtcome⟩

/-- A run that lays the module out itself returns zero only if the input was read, described an API
and gave a text, and then the text is where it was asked for and nowhere else. Any other run writes
nothing to the standard output and leaves all files as they were, unless a text was generated that
holds a lone surrogate: the file that it was for may then have been created or emptied, and no other
one. -/
theorem run_all_or_nothing {s : Surroundings} {arguments : List String} {settings : Settings}
    (hparse : parseArguments arguments = .ok settings) (hprettier : settings.prettier = false) :
    ((run s arguments).ending = .returned 0 →
      ∃ σ text, settings.Generates s σ text ∧ ¬ σ.Occurs text ∧
        settings.Delivered s text (run s arguments)) ∧
      ((run s arguments).ending ≠ .returned 0 → (run s arguments).IsFailure s ∨
        (run s arguments).LeavesEmpty s settings ∧
          ∃ σ text, settings.Generates s σ text ∧ σ.Occurs text) := by
  rw [run_of_parseArguments hparse]
  rcases runSettings_cases s hprettier with
    hfailure | ⟨σ, text, hgenerates, ⟨hending, hfree, hdelivered⟩ | ⟨hempty, hoccurs⟩⟩
  · refine ⟨fun hzero ↦ ?_, fun _ ↦ .inl ⟨hfailure.ending, hfailure.stdout, hfailure.tree⟩⟩
    change (runSettings s settings).ending = .returned 0 at hzero
    rcases hfailure.ending with hone | ⟨e, hcrash⟩
    · rw [hzero] at hone
      cases hone
    · rw [hzero] at hcrash
      cases hcrash
  · exact ⟨fun _ ↦ ⟨σ, text, hgenerates, hfree, hdelivered⟩, fun hne ↦ (hne hending).elim⟩
  · refine ⟨fun hzero ↦ ?_, fun _ ↦
      .inr ⟨⟨hempty.ending, hempty.stdout, hempty.tree⟩, σ, text, hgenerates, hoccurs⟩⟩
    change (runSettings s settings).ending = .returned 0 at hzero
    obtain ⟨e, hcrash⟩ := hempty.ending
    rw [hzero] at hcrash
    cases hcrash

/-- An API without types and endpoints on the standard input, and a directory without files. -/
def emptyApi : Surroundings :=
  { tree := ⟨[(["work"], .directory)]⟩
    working := ["work"]
    stdin := "\x7b\"types\": \x7b\x7d, \"entries\": \x7b\"entries\": \x7b\x7d\x7d\x7d"
    program := fun _ _ ↦ .error (.system .notFound) }

/-- In the second run the output is a directory, which is made before that shows. -/
theorem run_all_or_nothing_emptyApi :
    (∃ σ text, Settings.Generates { input := "-", out := some "out/api.ts" } emptyApi σ text ∧
      emptyApi.tree.Receives (run emptyApi ["-", "-o", "out/api.ts"]).tree ["work"]
        ⟨"", ["out", "api.ts"]⟩ (Text.encodeUtf8 text)) ∧
      (run emptyApi ["-", "-o", "out/.."]).IsFailure emptyApi := by
  have hsuccess : (run emptyApi ["-", "-o", "out/api.ts"]).ending = .returned 0 := by
    with_unfolding_all rfl
  have hfailure : (run emptyApi ["-", "-o", "out/.."]).ending =
      .crashed (.system ⟨.isDirectory, "out/.."⟩) := by
    with_unfolding_all rfl
  have hsettings : parseArguments ["-", "-o", "out/api.ts"] =
      .ok { input := "-", out := some "out/api.ts" } := rfl
  have hsettings' : parseArguments ["-", "-o", "out/.."] =
      .ok { input := "-", out := some "out/.." } := rfl
  constructor
  · obtain ⟨σ, text, hgenerates, -, hdelivered⟩ := (run_all_or_nothing hsettings rfl).1 hsuccess
    exact ⟨σ, text, hgenerates, hdelivered.2⟩
  · have hone : (run emptyApi ["-", "-o", "out/.."]).ending ≠ .returned 0 := by
      rw [hfailure]
      exact nofun
    rcases (run_all_or_nothing hsettings' rfl).2 hone with h | ⟨h, -⟩
    · exact h
    · obtain ⟨e, he⟩ := h.ending
      cases hfailure.symm.trans he

/-- A type that has half of a surrogate pair for a name. -/
def halvedName : Surroundings :=
  { emptyApi with
    stdin :=
      "\x7b\"types\": \x7b\"1\": \x7b\"type\": \"Struct\", \"name\": \"\\ud800\", " ++
        "\"fields\": \x7b\x7d\x7d\x7d, \"entries\": \x7b\"entries\": \x7b\x7d\x7d\x7d" }

/-- The file that the text was for is there when the run has failed. -/
theorem run_halvedName_creates_file :
    parseArguments ["-", "-o", "out.ts"] = .ok { input := "-", out := some "out.ts" } ∧
      (run halvedName ["-", "-o", "out.ts"]).ending = .crashed (.unencodable ⟨0xD800, 12, 1⟩) ∧
      halvedName.tree.item? ["work", "out.ts"] = none ∧
      (run halvedName ["-", "-o", "out.ts"]).tree.item? ["work", "out.ts"] = some (.file []) := by
  refine ⟨rfl, ?_, rfl, ?_⟩
  · decide +kernel
  · decide +kernel

end Typings.Command
