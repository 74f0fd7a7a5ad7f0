import Typings.Proofs.ClosedOutput
import Typings.Proofs.DeclaredNames
import Typings.Proofs.DroppedComments
import Typings.Proofs.Uncommented

/-!
# Documentation and code

Where no slash stands in names, keys and literal texts, a generated module is its code with comments
before lines of it. So what is said about types, fields and endpoints has no influence on the code:
descriptions that differ in nothing else are laid out alike but for the lines of comments.
-/

namespace Typings

open Layout Text

/-! ## Code -/

/-- A character that is neither a slash nor a line break other than the line feed. -/
def IsCodeChar (c : Char) : Prop := c ≠ '/' ∧ (c = '\n' ∨ isLineBreak c = false)

instance (c : Char) : Decidable (IsCodeChar c) := inferInstanceAs (Decidable (_ ∧ _))

def IsCode (s : String) : Prop := ∀ c ∈ s.toList, IsCodeChar c

instance (s : String) : Decidable (IsCode s) := List.decidableBAll IsCodeChar s.toList

/-- No slash stands in a literal text. -/
def Description.Slashless (d : Description) : Prop :=
  ∀ p ∈ d.types.entries, ∀ s, p.2.body = .literal (.str s) → '/' ∉ s.toList

section

variable {s t : String}

theorem IsTidy.isCode (h : IsTidy s) : IsCode s :=
  fun c hc ↦ ⟨(of_notMem_marks (h c hc).1).2.1, .inr (h c hc).2⟩

theorem IsCode.append (hs : IsCode s) (ht : IsCode t) : IsCode (s ++ t) := by
  rw [IsCode, String.toList_append, List.forall_mem_append]
  exact ⟨hs, ht⟩

theorem isCode_intercalate {joint : String} {texts : List String} (hjoint : IsCode joint)
    (h : ∀ text ∈ texts, IsCode text) : IsCode (joint.intercalate texts) := by
  induction texts with
  | nil => exact List.forall_mem_nil _
  | cons text texts ih =>
      obtain ⟨htext, htexts⟩ := List.forall_mem_cons.1 h
      by_cases hnil : texts = []
      · rw [hnil, String.intercalate_singleton]
        exact htext
      · rw [String.intercalate_cons_of_ne_nil hnil]
        exact (htext.append hjoint).append (ih htexts)

theorem IsCode.commented (h : IsCode s) : Commented s.toList s.toList := by
  rw [IsCode] at h
  generalize s.toList = text at h ⊢
  induction text with
  | nil => exact .nil
  | cons c cs ih =>
      obtain ⟨hc, hcs⟩ := List.forall_mem_cons.1 h
      exact .char hc.1 hc.2 (ih hcs)

end

theorem isCode_of_isNumeralChar {s : String} (h : ∀ c ∈ s.toList, isNumeralChar c = true) :
    IsCode s :=
  IsTidy.isCode fun c hc ↦ isPlain_of_isNumeralChar (h c hc)

theorem isCode_literalText {v : Value} (h : v.IsTidyLiteral)
    (hslash : ∀ s, v = .str s → '/' ∉ s.toList) : IsCode (TypeExpr.literalText v) := by
  cases v with
  | str s =>
      have hquote : IsCode "\"" := by decide
      have htext : IsCode s := fun c hc ↦
        ⟨fun heq ↦ hslash s rfl (heq ▸ hc), .inr (h.1 c hc)⟩
      exact (hquote.append htext).append hquote
  | bool b => cases b <;> exact IsTidy.isCode (by decide)
  | int n => exact isCode_of_isNumeralChar (isNumeralChar_inspect_int n)
  | float x => exact isCode_of_isNumeralChar (isNumeralChar_inspect_float x)
  | nan => exact IsTidy.isCode (by decide)
  | _ => exact h.elim

section

variable {naming : Naming} {d : Description}

theorem isCode_primitiveText (hnaming : naming.Tidy) (p : Primitive) :
    IsCode (TypeExpr.primitiveText naming p) := by
  have hany : IsCode "any" := by decide
  have hstring : IsCode "string" := by decide
  have hboolean : IsCode "boolean" := by decide
  have hnumber : IsCode "number" := by decide
  have hunknown : IsCode "unknown" := by decide
  cases p with
  | any => exact hany
  | json => exact hnaming.json.isCode
  | string | id => exact hstring
  | boolean => exact hboolean
  | float | int | number => exact hnumber
  | unknown => exact hunknown

theorem isCode_wrapperText (w : Wrapper) {item : String} (h : IsCode item) :
    IsCode (TypeExpr.wrapperText w item) := by
  have hrecord : IsCode "Record<string, " ∧ IsCode ">" := by decide
  have hnull : IsCode " | null | undefined" := by decide
  have hlist : IsCode "[]" := by decide
  cases w with
  | record => exact (hrecord.1.append h).append hrecord.2
  | nullable => exact h.append hnull
  | list => exact h.append hlist

theorem isCode_junctionText (j : Junction) {items : List String} (h : ∀ item ∈ items, IsCode item) :
    IsCode (TypeExpr.junctionText j items) := by
  cases j with
  | union => exact isCode_intercalate (by decide) h
  | intersect => exact isCode_intercalate (by decide) h

theorem Registry.Expands.isCode (hnaming : naming.Tidy) (hd : d.Tidy) (hslash : d.Slashless)
    {id : String} {t : TypeExpr} (h : d.types.Expands id t) : IsCode (t.render naming) := by
  have hliteral : ∀ p ∈ d.types.entries, ∀ v, p.2.body = .literal v →
      IsCode (TypeExpr.literalText v) := by
    intro p hp v hv
    apply isCode_literalText (hd.literals p hp v hv)
    rintro s rfl
    exact hslash p hp s hv
  have hkept : d.types.KeptByTemplates naming IsCode :=
    { named := fun p hp name hname ↦ (hd.names p hp name hname).isCode
      fieldSet := fun p hp hkind hname ↦ (hnaming.synthetic.append (hd.ids p hp hkind hname)).isCode
      primitive := isCode_primitiveText hnaming
      literal := hliteral
      wrapper := fun w _ ↦ isCode_wrapperText w
      junction := fun j _ ↦ isCode_junctionText j }
  exact h.of_keptByTemplates hkept

theorem isCode_signature {s : Signature} (hinput : IsCode (s.input.render naming))
    (houtput : IsCode (s.output.render naming)) : IsCode (s.render naming) := by
  have hopen : IsCode "(input: " := by decide
  have harrow : IsCode ") => Promise<" := by decide
  have hclose : IsCode ">" := by decide
  exact (((hopen.append hinput).append harrow).append houtput).append hclose

theorem isCode_jsonAlias (hnaming : naming.Tidy) : IsCode naming.jsonAlias := by
  have hname := hnaming.json.isCode
  have htype : IsCode "type " := by decide
  have hscalars : IsCode " = number | string | boolean | null | undefined | " := by decide
  have hobject : IsCode "[] | \x7b toJSON(): string \x7d | \x7b [key: string]: " := by decide
  have hclose : IsCode " \x7d" := by decide
  exact ((((htype.append hname).append hscalars).append hname).append hobject).append hname
    |>.append hclose

end

/-! ## Lines with and without comments -/

/-- Texts that stand at the beginning of a line, of which the first may have comments. -/
def CommentedLines (s t : String) : Prop := Commented ('\n' :: s.toList) ('\n' :: t.toList)

theorem IsCode.commentedLines {s : String} (h : IsCode s) : CommentedLines s s :=
  h.commented.lineFeed

theorem commented_append {s s' t t' : String} (hs : Commented s.toList s'.toList)
    (ht : Commented t.toList t'.toList) : Commented (s ++ t).toList (s' ++ t').toList := by
  rw [String.toList_append, String.toList_append]
  exact hs.append ht

theorem commentedLines_intercalate {joint : List Char} (hjoint : Commented joint joint)
    {lines lines' : List String} (h : List.Forall₂ CommentedLines lines lines') :
    Commented ('\n' :: (joint ++ ['\n']).intercalate (lines.map String.toList))
      ('\n' :: (joint ++ ['\n']).intercalate (lines'.map String.toList)) := by
  induction h with
  | nil => exact Commented.nil.lineFeed
  | @cons line line' rest rest' hline hrest ih =>
      rw [List.map_cons, List.map_cons]
      by_cases hnil : rest = []
      · subst hnil
        rw [List.forall₂_nil_left_iff.1 hrest, List.map_nil, List.intercalate_singleton,
          List.intercalate_singleton]
        exact hline
      · have hnil' : rest' ≠ [] := by
          rintro rfl
          exact hnil (List.forall₂_nil_right_iff.1 hrest)
        rw [List.intercalate_cons_of_ne_nil (by simpa using hnil),
          List.intercalate_cons_of_ne_nil (by simpa using hnil')]
        have hfirst : Commented ('\n' :: line.toList) ('\n' :: line'.toList) := hline
        simpa using (hfirst.append hjoint).append ih

theorem commented_bracedLines {lines lines' : List String}
    (h : List.Forall₂ CommentedLines lines lines') :
    Commented (bracedLines lines).toList (bracedLines lines').toList := by
  have hopen : IsCode "\x7b" := by decide
  have hclose : IsCode "\n\x7d" := by decide
  have hjoined := commentedLines_intercalate .nil h
  cases h with
  | nil => exact IsCode.commented (by decide)
  | @cons line line' rest rest' hline hrest =>
      have htext (line : String) (rest : List String) : (bracedLines (line :: rest)).toList =
          "\x7b".toList ++ ('\n' :: ['\n'].intercalate ((line :: rest).map String.toList)) ++
            "\n\x7d".toList := by
        simp [bracedLines]
      rw [htext, htext]
      exact (hopen.commented.append hjoined).append hclose.commented

theorem IsTidy.startsPlain {s : String} (h : IsTidy s)
    (hsolid : ∃ c ∈ s.toList, isBlank c = false) : StartsPlain s.toList :=
  ⟨s.toList, [], (List.append_nil _).symm, h, hsolid⟩

theorem startsPlain_append {s : String} (h : StartsPlain s.toList) (t : String) :
    StartsPlain (s ++ t).toList := by
  rw [String.toList_append]
  exact h.append t.toList

theorem commentedLines_labelled {key text text' : String} (hkey : IsTidy key)
    (h : Commented text.toList text'.toList) (note : Note) :
    CommentedLines (note.attach (key ++ ": " ++ text)) (key ++ ": " ++ text') := by
  have hstart : StartsPlain (key ++ ": ").toList := hkey.label.startsPlain ⟨':', by simp, rfl⟩
  have hline : Commented (key ++ ": " ++ text).toList (key ++ ": " ++ text').toList :=
    commented_append hkey.label.isCode.commented h
  exact hline.attach (startsPlain_append hstart text) note

section

variable {naming : Naming} {d : Description}

theorem Declaration.render_uncommented (naming : Naming) (e : Declaration) :
    e.uncommented.render naming =
      (if e.exportName.isSome then "export type " else "type ") ++ e.name naming ++ " = " ++
        bracedLines (e.members.map fun m ↦ m.uncommented.render naming) := by
  rw [render, uncommented]
  dsimp only
  rw [Note.attach_none, List.map_map]
  rfl

theorem startsPlain_keyword (exported : Bool) :
    StartsPlain (if exported then "export type " else "type ").toList := by
  apply (isTidy_keyword exported).startsPlain
  cases exported with
  | false => exact ⟨'t', by decide, rfl⟩
  | true => exact ⟨'e', by decide, rfl⟩

theorem commentedLines_members (hnaming : naming.Tidy) (hd : d.Tidy) (hslash : d.Slashless)
    {fields : List (String × Field)} (hkeys : ∀ q ∈ fields, IsTidy q.1) {members : List Member}
    (h : (fields.mapM fun (key, field) ↦ do
      return { key, type := ← d.types.expand field.typeId, note := field.note : Member }) =
        .ok members) :
    List.Forall₂ CommentedLines (members.map (Member.render naming))
      (members.map fun m ↦ m.uncommented.render naming) := by
  rw [List.forall₂_map_left_iff, List.forall₂_map_right_iff, List.forall₂_same]
  intro member hmember
  obtain ⟨q, hq, hm⟩ := exists_of_mem_mapM h hmember
  obtain ⟨t, ht, hm⟩ := exists_of_bind_eq_ok hm
  obtain rfl := Except.ok.inj hm
  rw [Registry.expand_eq_ok_iff] at ht
  rw [Member.render, Member.render, Member.uncommented, Note.attach_none]
  exact commentedLines_labelled (hkeys q hq) (ht.isCode hnaming hd hslash).commented q.2.note

theorem commentedLines_declaration (hnaming : naming.Tidy) (hd : d.Tidy) (hslash : d.Slashless)
    {p : String × Descriptor} (hp : p ∈ d.types.entries) {e : Declaration}
    (h : d.types.declare p.1 p.2 = .ok (some e)) :
    CommentedLines (e.render naming) (e.uncommented.render naming) := by
  rw [e.render_uncommented]
  rw [Registry.declare] at h
  cases hbody : p.2.body with
  | fieldSet f fields =>
      rw [hbody] at h
      obtain ⟨members, hmembers, he⟩ := exists_of_bind_eq_ok h
      obtain rfl := Option.some.inj (Except.ok.inj he)
      have hfields := hd.fields p hp f fields hbody
      have hlines := commentedLines_members hnaming hd hslash hfields hmembers
      have hequals : IsTidy " = " := by decide
      have hname := hd.declaredName hnaming hp (by rw [hbody]; rfl)
      have hhead := ((isTidy_keyword p.2.displayName.isSome).append hname).append hequals
      have htext := commented_append hhead.isCode.commented (commented_bracedLines hlines)
      apply htext.attach
      apply startsPlain_append
      apply startsPlain_append
      apply startsPlain_append
      exact startsPlain_keyword p.2.displayName.isSome
  | _ =>
      rw [hbody] at h
      cases h

mutual

theorem commentedLines_surface (hnaming : naming.Tidy) (hd : d.Tidy) (hslash : d.Slashless)
    {key : String} {e : Entry} {s : Surface} (hkey : IsTidy key) (he : e.Tidy)
    (h : d.types.surface e = .ok s) :
    CommentedLines (s.renderMember naming key) (s.uncommented.renderMember naming key) := by
  match e with
  | .endpoint e =>
      rw [Registry.surface] at h
      obtain ⟨signature, hsignature, h⟩ := exists_of_bind_eq_ok h
      obtain rfl := Except.ok.inj h
      obtain ⟨hinput, houtput⟩ := Registry.signature_eq_ok hsignature
      rw [Registry.expand_eq_ok_iff] at hinput houtput
      have hcode := isCode_signature (hinput.isCode hnaming hd hslash)
        (houtput.isCode hnaming hd hslash)
      rw [Surface.uncommented, Surface.renderMember, Surface.renderMember, Note.attach_none]
      exact commentedLines_labelled hkey hcode.commented e.note
  | .branch children =>
      rw [Registry.surface] at h
      obtain ⟨members, hmembers, h⟩ := exists_of_bind_eq_ok h
      obtain rfl := Except.ok.inj h
      rw [Surface.uncommented, Surface.renderMember, Surface.renderMember]
      have hlines := commented_bracedLines (commentedLines_surfaces hnaming hd hslash he hmembers)
      have hlabelled := commentedLines_labelled hkey hlines .none
      rw [Note.attach_none] at hlabelled
      exact hlabelled
  | .foreign x =>
      rw [Registry.surface] at h
      cases h

theorem commentedLines_surfaces (hnaming : naming.Tidy) (hd : d.Tidy) (hslash : d.Slashless)
    {es : List (String × Entry)} {ss : List (String × Surface)} (hes : TidyLevel es)
    (h : d.types.surfaces es = .ok ss) :
    List.Forall₂ CommentedLines (Surface.renderMembers naming ss)
      (Surface.renderMembers naming (uncommentedMembers ss)) := by
  match es with
  | [] =>
      rw [Registry.surfaces] at h
      obtain rfl := Except.ok.inj h
      rw [uncommentedMembers, Surface.renderMembers]
      exact .nil
  | (key, e) :: rest =>
      obtain ⟨hkey, he, hrest⟩ := hes
      rw [Registry.surfaces] at h
      obtain ⟨s, hs, h⟩ := exists_of_bind_eq_ok h
      obtain ⟨ss, hss, h⟩ := exists_of_bind_eq_ok h
      obtain rfl := Except.ok.inj h
      rw [uncommentedMembers, Surface.renderMembers, Surface.renderMembers]
      exact .cons (commentedLines_surface hnaming hd hslash hkey he hs)
        (commentedLines_surfaces hnaming hd hslash hrest hss)

end

/-- A module is its code with comments before lines of it. -/
theorem commentedLines_render (hnaming : naming.Tidy) (hd : d.Tidy) (hslash : d.Slashless)
    {m : Module} (h : d.toModule = .ok m) :
    CommentedLines (m.render naming) (m.uncommented.render naming) := by
  have hdeclarations : List.Forall₂ CommentedLines (m.declarations.map (Declaration.render naming))
      (m.uncommented.declarations.map (Declaration.render naming)) := by
    rw [Module.uncommented, List.map_map, List.forall₂_map_left_iff, List.forall₂_map_right_iff,
      List.forall₂_same]
    intro e he
    obtain ⟨p, hp, hdeclare⟩ := (Description.mem_declarations_iff h).1 he
    exact commentedLines_declaration hnaming hd hslash hp hdeclare
  have htree : Commented (Surface.renderTree naming m.surface).toList
      (Surface.renderTree naming m.uncommented.surface).toList :=
    commented_bracedLines (commentedLines_surfaces hnaming hd hslash hd.entries
      (Description.surfaces_of_toModule h).2)
  have hexport : IsTidy "export type " := by decide
  have hequals : IsTidy " = " := by decide
  have hapi := ((hexport.append hnaming.api).append hequals).isCode
  have hparts : List.Forall₂ CommentedLines (m.parts naming) (m.uncommented.parts naming) := by
    rw [Module.parts, Module.parts]
    apply List.rel_append (List.rel_append ?_ hdeclarations)
    · exact .cons (commented_append hapi.commented htree).lineFeed .nil
    · change List.Forall₂ CommentedLines _ (if m.needsJson then _ else _)
      split
      · exact .cons (isCode_jsonAlias hnaming).commentedLines .nil
      · exact .nil
  have hjoined := commentedLines_intercalate (Commented.nil.lineFeed) hparts
  rw [CommentedLines, Module.render, Module.render, String.toList_intercalate,
    String.toList_intercalate]
  exact hjoined

end

/-! ## Tidiness -/

mutual

theorem Entry.tidy_uncommented (e : Entry) : e.uncommented.Tidy ↔ e.Tidy := by
  match e with
  | .branch children =>
      rw [Entry.uncommented, Entry.Tidy, Entry.Tidy, tidyLevel_uncommented children]
  | .endpoint e => exact Iff.rfl
  | .foreign x => exact Iff.rfl

theorem tidyLevel_uncommented (es : List (String × Entry)) :
    TidyLevel (uncommentedLevel es) ↔ TidyLevel es := by
  match es with
  | [] => exact Iff.rfl
  | (key, e) :: rest =>
      rw [uncommentedLevel, TidyLevel, TidyLevel, e.tidy_uncommented, tidyLevel_uncommented rest]

end

theorem Body.uncommented_eq_literal_iff {b : Body} {v : Value} :
    b.uncommented = .literal v ↔ b = .literal v := by
  cases b with
  | fieldSet f fields => simp [Body.uncommented]
  | _ => exact Iff.rfl

theorem Body.forall_keys_uncommented_iff {b : Body} {P : String → Prop} :
    (∀ f fields, b.uncommented = .fieldSet f fields → ∀ q ∈ fields.entries, P q.1) ↔
      ∀ f fields, b = .fieldSet f fields → ∀ q ∈ fields.entries, P q.1 := by
  cases b with
  | fieldSet f fields => simp [Body.uncommented, Table.map]
  | _ => exact Iff.rfl

namespace Description

variable {d : Description}

theorem forall_mem_uncommented {P : String × Descriptor → Prop} :
    (∀ p ∈ d.uncommented.types.entries, P p) ↔ ∀ p ∈ d.types.entries, P (p.1, p.2.uncommented) :=
  List.forall_mem_map

theorem tidy_uncommented : d.uncommented.Tidy ↔ d.Tidy := by
  have hdisplay (d : Descriptor) : d.uncommented.displayName = d.displayName :=
    Descriptor.Alike.displayName (Descriptor.IsUncommentedOf.alike (d := d) rfl)
  have hbody (d : Descriptor) : d.uncommented.body = d.body.uncommented := rfl
  have hkind (b : Body) : b.uncommented.isFieldSet = b.isFieldSet := b.alike_uncommented.isFieldSet
  constructor
  · rintro ⟨hnames, hids, hliterals, hfields, hentries⟩
    rw [forall_mem_uncommented] at hnames hids hliterals hfields
    simp only [hdisplay] at hnames
    simp only [hdisplay, hbody, hkind] at hids
    simp only [hbody, Body.uncommented_eq_literal_iff] at hliterals
    simp only [hbody, Body.forall_keys_uncommented_iff] at hfields
    exact ⟨hnames, hids, hliterals, hfields, (tidyLevel_uncommented d.entries).1 hentries⟩
  · rintro ⟨hnames, hids, hliterals, hfields, hentries⟩
    refine ⟨?_, ?_, ?_, ?_, (tidyLevel_uncommented d.entries).2 hentries⟩
    · rw [forall_mem_uncommented]
      simpa only [hdisplay] using hnames
    · rw [forall_mem_uncommented]
      simpa only [hdisplay, hbody, hkind] using hids
    · rw [forall_mem_uncommented]
      simpa only [hbody, Body.uncommented_eq_literal_iff] using hliterals
    · rw [forall_mem_uncommented]
      simpa only [hbody, Body.forall_keys_uncommented_iff] using hfields

theorem slashless_uncommented : d.uncommented.Slashless ↔ d.Slashless := by
  rw [Slashless, forall_mem_uncommented, Slashless]
  have hbody (d : Descriptor) : d.uncommented.body = d.body.uncommented := rfl
  simp only [hbody, Body.uncommented_eq_literal_iff]

/-! ## Generating with the layout -/

/-- What is generated without the documentation is what is generated with it less the comments, or
fails like it. -/
theorem agree_generate_uncommented {naming : Naming} (hnaming : naming.Tidy) (hd : d.Tidy)
    (hslash : d.Slashless) (indent : Option Int) :
    Agree (fun e e' ↦ e' = e.uncommented) (fun text text' ↦ withoutComments text = text')
      (generate { toNaming := naming, formatter := .layout indent } d)
      (generate { toNaming := naming, formatter := .layout indent } d.uncommented) := by
  have hmodule := d.agree_toModule_uncommented
  rw [generate, generate]
  generalize hm : d.toModule = x at hmodule
  generalize hm' : d.uncommented.toModule = x' at hmodule
  cases hmodule with
  | error hf =>
      rw [hf]
      exact .error rfl
  | @ok m m' h =>
      -- The code alone is balanced, so a layout can only fail in making a margin.
      have hscan := exists_scan_iff_balanced.2
        (closed_render hnaming (tidy_uncommented.2 hd) hm').balanced
      have hformat := (commentedLines_render hnaming hd hslash hm).agree_format (h ▸ hscan) indent
      rw [h]
      dsimp only [Formatter.layout]
      generalize format indent (m.render naming) = y at hformat
      generalize format indent (m.uncommented.render naming) = y' at hformat
      cases hformat with
      | ok htext => exact .ok htext
      | @error e e' he =>
          rw [he]
          cases e' with
          | scan e => exact .error rfl
          | margin e => exact .error rfl

end Description

/-- Descriptions that differ in their documentation alone give the same code, or fail with the same
error: their texts become equal when the lines of comments are deleted. -/
theorem generate_layout_of_uncommented_eq {naming : Naming} {d d' : Description}
    (hnaming : naming.Tidy) (hd : d.Tidy) (hslash : d.Slashless)
    (h : d.uncommented = d'.uncommented) (indent : Option Int) :
    Agree (fun e e' ↦ e.uncommented = e'.uncommented)
      (fun text text' ↦ withoutComments text = withoutComments text')
      (generate { toNaming := naming, formatter := .layout indent } d)
      (generate { toNaming := naming, formatter := .layout indent } d') := by
  have hd' : d'.Tidy := Description.tidy_uncommented.1 (h ▸ Description.tidy_uncommented.2 hd)
  have hslash' : d'.Slashless :=
    Description.slashless_uncommented.1 (h ▸ Description.slashless_uncommented.2 hslash)
  have hagree := Description.agree_generate_uncommented hnaming hd hslash indent
  have hagree' := Description.agree_generate_uncommented hnaming hd' hslash' indent
  rw [← h] at hagree'
  apply (hagree.join hagree').imp
  · rintro e e' ⟨_, he, rfl⟩
    exact he.symm
  · rintro text text' ⟨_, htext, rfl⟩
    exact htext

/-- A description with a note in every place for one. -/
def described (typeNote fieldNote endpointNote : Note) : Description where
  types := Table.ofList
    [("1", .ofBody .literal none .none (.literal (.str "x"))),
      ("2", .ofBody (.fieldSet .object) none typeNote
        (.fieldSet .object (Table.ofList [("a", ⟨.int 1, fieldNote⟩)])))]
  entries := [("b", .endpoint ⟨.str "1", .str "2", endpointNote⟩)]

def describedModule (typeNote fieldNote endpointNote : Note) : Module where
  needsJson := false
  declarations := [⟨"2", "Object", none, [⟨"a", .literal (.str "x"), fieldNote⟩], typeNote⟩]
  surface := [("b", .endpoint ⟨.literal (.str "x"), .synthetic "2"⟩ endpointNote)]

theorem described_toModule (a b c : Note) :
    (described a b c).toModule = .ok (describedModule a b c) := by
  with_unfolding_all rfl

theorem described_generate {a b c : Note} {text : String}
    (h : format (some 2) ((describedModule a b c).render {}) = .ok text) :
    generate {} (described a b c) = .ok text :=
  generate_eq_ok_iff.2 ⟨_, described_toModule a b c, Formatter.layout_eq_ok_iff.2 h⟩

theorem described_tidy (a b c : Note) : (described a b c).Tidy := by
  have hid : IsTidy "2" := by decide
  have hkey : IsTidy "a" := by decide
  refine ⟨?_, ?_, ?_, ?_, by decide, trivial, trivial⟩
  · exact List.forall_mem_cons.2 ⟨nofun, List.forall_mem_singleton.2 nofun⟩
  · exact List.forall_mem_cons.2 ⟨nofun, List.forall_mem_singleton.2 fun _ _ ↦ hid⟩
  · refine List.forall_mem_cons.2 ⟨?_, List.forall_mem_singleton.2 nofun⟩
    rintro v ⟨⟩
    refine ⟨by decide, fun c hc ↦ ?_⟩
    rw [List.mem_singleton.1 (show c ∈ ['x'] from hc)]
    decide
  · refine List.forall_mem_cons.2 ⟨nofun, List.forall_mem_singleton.2 ?_⟩
    rintro f fields ⟨⟩
    exact List.forall_mem_singleton.2 hkey

theorem described_slashless (a b c : Note) : (described a b c).Slashless := by
  refine List.forall_mem_cons.2 ⟨?_, List.forall_mem_singleton.2 nofun⟩
  rintro s ⟨⟩
  decide

/-- Notes that would end a comment, open brackets and break lines. -/
def remarked : Description := described ⟨some "*/\u2028\x7b", none⟩ ⟨none, some "("⟩ .none

def unremarked : Description := described .none ⟨some "", none⟩ .none

theorem remarked_generate :
    Naming.Tidy {} ∧ remarked.Tidy ∧ remarked.Slashless ∧
      remarked.uncommented = unremarked.uncommented ∧
      ∃ text text', generate {} remarked = .ok text ∧ generate {} unremarked = .ok text' ∧
        withoutComments text = withoutComments text' := by
  have hnaming : Naming.Tidy {} := ⟨by decide, by decide, by decide⟩
  have hformat : format (some 2) ((describedModule ⟨some "*/\u2028\x7b", none⟩ ⟨none, some "("⟩
      .none).render {}) = .ok (
      "/**\n * @remarks *\\/\n * \x7b\n */\n" ++
      "type Type2 = \x7b\n  /**\n   * @deprecated (\n   */\n  a: \"x\"\n\x7d\n\n" ++
      "export type __API__ = \x7b\n  b: (input: \"x\") => Promise<Type2>\n\x7d\n") := by
    decide +kernel
  have hformat' : format (some 2) ((describedModule .none ⟨some "", none⟩ .none).render {}) = .ok (
      "type Type2 = \x7b\n  a: \"x\"\n\x7d\n\n" ++
      "export type __API__ = \x7b\n  b: (input: \"x\") => Promise<Type2>\n\x7d\n") := by
    decide +kernel
  have htext : generate {} remarked = .ok _ := described_generate hformat
  have htext' : generate {} unremarked = .ok _ := described_generate hformat'
  have htidy : remarked.Tidy := described_tidy _ _ _
  have hslash : remarked.Slashless := described_slashless _ _ _
  have hsame : remarked.uncommented = unremarked.uncommented := rfl
  have hagree := generate_layout_of_uncommented_eq hnaming htidy hslash hsame (some 2)
  refine ⟨hnaming, htidy, hslash, hsame, _, _, htext, htext', ?_⟩
  rw [htext, htext'] at hagree
  cases hagree with
  | ok h => exact h

end Typings
