import Typings.Proofs.ClosedText
import Typings.Proofs.References
import Typings.Proofs.Words

/-!
# Generated sources are balanced

Where names and keys are free of brackets, quotes, slashes and line breaks, and literal texts of
what would end them, every piece of a generated module is a closed text, whatever its comments say.
So the layout never refuses what is generated: it succeeds with the generation itself, unless a
margin cannot be made.
-/

namespace Typings

open Layout

/-! ## Tidy descriptions -/

/-- Neither brackets, quotes and slashes nor line breaks stand in a text. -/
def IsTidy (s : String) : Prop := ∀ c ∈ s.toList, IsPlain c

instance (s : String) : Decidable (IsTidy s) := List.decidableBAll IsPlain s.toList

structure Naming.Tidy (naming : Naming) : Prop where
  api : IsTidy naming.apiTypeName
  synthetic : IsTidy naming.syntheticPrefix
  json : IsTidy naming.jsonTypeName

/-- Numbers, truth values, and texts that hold no double quote, backslash or line break. -/
def Value.IsTidyLiteral : Value → Prop
  | .str s => Text.IsUnbroken s.toList ∧ ∀ c ∈ s.toList, c ≠ '"' ∧ c ≠ '\\'
  | .bool _ | .int _ | .float _ | .nan => True
  | _ => False

mutual

/-- The keys within an entry, at every level, are tidy. -/
def Entry.Tidy : Entry → Prop
  | .branch children => TidyLevel children
  | .endpoint _ | .foreign _ => True

def TidyLevel : List (String × Entry) → Prop
  | [] => True
  | (key, e) :: rest => IsTidy key ∧ e.Tidy ∧ TidyLevel rest

end

/-- What a description puts into a module as it is, comments apart, is tidy. -/
structure Description.Tidy (d : Description) : Prop where
  names : ∀ p ∈ d.types.entries, ∀ name, p.2.displayName = some name → IsTidy name
  ids : ∀ p ∈ d.types.entries, p.2.body.isFieldSet = true → p.2.displayName = none → IsTidy p.1
  literals : ∀ p ∈ d.types.entries, ∀ v, p.2.body = .literal v → v.IsTidyLiteral
  fields : ∀ p ∈ d.types.entries, ∀ f fields, p.2.body = .fieldSet f fields →
    ∀ q ∈ fields.entries, IsTidy q.1
  entries : TidyLevel d.entries

/-! ## Pieces of text -/

theorem IsTidy.closed {s : String} (h : IsTidy s) : Closed s.toList := closed_plain h

theorem IsTidy.append {s t : String} (hs : IsTidy s) (ht : IsTidy t) : IsTidy (s ++ t) := by
  rw [IsTidy, String.toList_append, List.forall_mem_append]
  exact ⟨hs, ht⟩

theorem isTidy_keyword (exported : Bool) :
    IsTidy (if exported then "export type " else "type ") := by
  cases exported with
  | false => decide
  | true => decide

/-- An id is written only where there is no display name, and only then it has to be tidy. -/
theorem Description.Tidy.declaredName {naming : Naming} {d : Description} (hd : d.Tidy)
    (hnaming : naming.Tidy) {p : String × Descriptor} (hp : p ∈ d.types.entries)
    (hkind : p.2.body.isFieldSet = true) :
    IsTidy (p.2.displayName.getD (naming.synthetic p.1)) := by
  cases hdisplay : p.2.displayName with
  | some name => exact hd.names p hp name hdisplay
  | none => exact hnaming.synthetic.append (hd.ids p hp hkind hdisplay)

theorem closed_append {s t : String} (hs : Closed s.toList) (ht : Closed t.toList) :
    Closed (s ++ t).toList := by
  rw [String.toList_append]
  exact hs.append ht

theorem closed_intercalate {joint : String} {texts : List String} (hjoint : Closed joint.toList)
    (h : ∀ text ∈ texts, Closed text.toList) : Closed (joint.intercalate texts).toList := by
  rw [String.toList_intercalate]
  induction texts with
  | nil => exact closed_nil
  | cons text texts ih =>
      obtain ⟨htext, htexts⟩ := List.forall_mem_cons.1 h
      rw [List.map_cons]
      by_cases hnil : texts = []
      · subst hnil
        simpa using htext
      · rw [List.intercalate_cons_of_ne_nil (by simpa using hnil), List.append_assoc]
        exact htext.append (hjoint.append (ih htexts))

theorem closed_bracedLines {lines : List String} (h : ∀ line ∈ lines, Closed line.toList) :
    Closed (bracedLines lines).toList := by
  cases lines with
  | nil => exact closed_nil.bracketed .brace
  | cons line lines =>
      have hlines : (bracedLines (line :: lines)).toList = '\x7b' ::
          (('\n' :: (("\n".intercalate (line :: lines)).toList ++ ['\n'])) ++ ['\x7d']) := by
        simp [bracedLines]
      have hjoined : Closed ("\n".intercalate (line :: lines)).toList :=
        closed_intercalate closed_lineFeed h
      rw [hlines]
      exact (closed_lineFeed.cons (hjoined.append closed_lineFeed)).bracketed .brace

theorem isPlain_of_isNumeralChar {c : Char} (h : isNumeralChar c = true) : IsPlain c := by
  have hmarks : marks.any isNumeralChar = false := by decide
  have hbreaks : ['\n', '\r', '\x0b', '\x0c', '\x1c', '\x1d', '\x1e', '\u0085', '\u2028',
      '\u2029'].any isNumeralChar = false := by decide
  constructor
  · intro hc
    exact List.any_eq_false.1 hmarks c hc h
  · by_contra hc
    rw [Bool.not_eq_false, Text.isLineBreak, decide_eq_true_iff] at hc
    exact List.any_eq_false.1 hbreaks c hc h

theorem Value.IsTidyLiteral.closed {v : Value} (h : v.IsTidyLiteral) :
    Closed (TypeExpr.literalText v).toList := by
  cases v with
  | str s =>
      have htext : (TypeExpr.literalText (.str s)).toList = '"' :: (s.toList ++ ['"']) := by
        simp [TypeExpr.literalText]
      rw [htext]
      exact closed_string h.1 h.2
  | bool b => cases b <;> exact IsTidy.closed (by decide)
  | int n =>
      exact closed_plain fun c hc ↦ isPlain_of_isNumeralChar (isNumeralChar_inspect_int n c hc)
  | float x =>
      exact closed_plain fun c hc ↦ isPlain_of_isNumeralChar (isNumeralChar_inspect_float x c hc)
  | nan => exact IsTidy.closed (by decide)
  | _ => exact h.elim

/-! ## Types -/

section

variable {naming : Naming} {d : Description}

theorem closed_primitiveText (hnaming : naming.Tidy) (p : Primitive) :
    Closed (TypeExpr.primitiveText naming p).toList := by
  have hany : IsTidy "any" := by decide
  have hstring : IsTidy "string" := by decide
  have hboolean : IsTidy "boolean" := by decide
  have hnumber : IsTidy "number" := by decide
  have hunknown : IsTidy "unknown" := by decide
  cases p with
  | any => exact hany.closed
  | json => exact hnaming.json.closed
  | string | id => exact hstring.closed
  | boolean => exact hboolean.closed
  | float | int | number => exact hnumber.closed
  | unknown => exact hunknown.closed

theorem closed_wrapperText (w : Wrapper) {item : String} (h : Closed item.toList) :
    Closed (TypeExpr.wrapperText w item).toList := by
  cases w with
  | record =>
      exact closed_append (closed_append (IsTidy.closed (by decide)) h) (IsTidy.closed (by decide))
  | nullable => exact closed_append h (IsTidy.closed (by decide))
  | list => exact closed_append h (closed_nil.bracketed .square)

theorem closed_junctionText (j : Junction) {items : List String}
    (h : ∀ item ∈ items, Closed item.toList) : Closed (TypeExpr.junctionText j items).toList := by
  cases j with
  | union => exact closed_intercalate (IsTidy.closed (by decide)) h
  | intersect => exact closed_intercalate (IsTidy.closed (by decide)) h

/-- A property of the names and literal texts of a registry that the templates of types keep. -/
structure Registry.KeptByTemplates (r : Registry) (naming : Naming) (P : String → Prop) : Prop where
  named : ∀ p ∈ r.entries, ∀ name, p.2.displayName = some name → P name
  fieldSet : ∀ p ∈ r.entries, p.2.body.isFieldSet = true → p.2.displayName = none →
    P (naming.synthetic p.1)
  primitive : ∀ p, P (TypeExpr.primitiveText naming p)
  literal : ∀ p ∈ r.entries, ∀ v, p.2.body = .literal v → P (TypeExpr.literalText v)
  wrapper : ∀ w item, P item → P (TypeExpr.wrapperText w item)
  junction : ∀ j items, (∀ item ∈ items, P item) → P (TypeExpr.junctionText j items)

/-- Every mention has a property that the templates keep. -/
theorem Registry.Expands.of_keptByTemplates {r : Registry} {P : String → Prop}
    (hkept : r.KeptByTemplates naming P) {id : String} {t : TypeExpr} (h : r.Expands id t) :
    P (t.render naming) := by
  induction h with
  | named hget hname => exact hkept.named _ (Table.get?_eq_some_iff.1 hget) _ hname
  | fieldSet hget hname hbody =>
      exact hkept.fieldSet _ (Table.get?_eq_some_iff.1 hget) (by rw [hbody]; rfl) hname
  | @primitive _ _ p => exact hkept.primitive p
  | literal hget _ hbody => exact hkept.literal _ (Table.get?_eq_some_iff.1 hget) _ hbody
  | @wrapper _ _ w _ _ _ _ _ _ ih => exact hkept.wrapper w _ ih
  | @junction _ _ j items ts _ _ _ _ hlength _ ih =>
      rw [TypeExpr.render, TypeExpr.renderItems_eq_map]
      apply hkept.junction
      intro text htext
      obtain ⟨t, ht, rfl⟩ := List.mem_map.1 htext
      obtain ⟨item, hp⟩ := exists_mem_zip_right hlength ht
      exact ih (item, t) hp

theorem Registry.Expands.closed (hnaming : naming.Tidy) (hd : d.Tidy) {id : String} {t : TypeExpr}
    (h : d.types.Expands id t) : Closed (t.render naming).toList := by
  have hkept : d.types.KeptByTemplates naming fun text ↦ Closed text.toList :=
    { named := fun p hp name hname ↦ (hd.names p hp name hname).closed
      fieldSet := fun p hp hkind hname ↦ (hnaming.synthetic.append (hd.ids p hp hkind hname)).closed
      primitive := closed_primitiveText hnaming
      literal := fun p hp v hv ↦ (hd.literals p hp v hv).closed
      wrapper := fun w _ ↦ closed_wrapperText w
      junction := fun j _ ↦ closed_junctionText j }
  exact h.of_keptByTemplates hkept

/-! ## Members, declarations and surfaces -/

theorem IsTidy.label {key : String} (hkey : IsTidy key) : IsTidy (key ++ ": ") :=
  hkey.append (by decide)

theorem closed_labelled {key text : String} (hkey : IsTidy key) (h : Closed text.toList) :
    Closed (key ++ ": " ++ text).toList :=
  closed_append hkey.label.closed h

theorem closed_signature {s : Signature} (hinput : Closed (s.input.render naming).toList)
    (houtput : Closed (s.output.render naming).toList) : Closed (s.render naming).toList := by
  have htext : (s.render naming).toList =
      ('(' :: (("input: ".toList ++ (s.input.render naming).toList) ++ [')'])) ++
        (" => Promise<".toList ++ ((s.output.render naming).toList ++ ">".toList)) := by
    simp [Signature.render]
  have hlabel : IsTidy "input: " := by decide
  have harrow : IsTidy " => Promise<" := by decide
  have hend : IsTidy ">" := by decide
  rw [htext]
  exact ((hlabel.closed.append hinput).bracketed .round).append
    (harrow.closed.append (houtput.append hend.closed))

theorem closed_declaration (hnaming : naming.Tidy) (hd : d.Tidy) {p : String × Descriptor}
    (hp : p ∈ d.types.entries) {e : Declaration}
    (h : d.types.declare p.1 p.2 = .ok (some e)) : Closed (e.render naming).toList := by
  rw [Registry.declare] at h
  cases hbody : p.2.body with
  | fieldSet f fields =>
      rw [hbody] at h
      obtain ⟨members, hmembers, he⟩ := exists_of_bind_eq_ok h
      obtain rfl := Option.some.inj (Except.ok.inj he)
      rw [mapM_eq_ok_iff] at hmembers
      have hlines : ∀ line ∈ members.map (Member.render naming), Closed line.toList := by
        intro line hline
        obtain ⟨member, hmember, rfl⟩ := List.mem_map.1 hline
        obtain ⟨q, hpair⟩ := exists_mem_zip_right hmembers.length_eq hmember
        have hkey := hd.fields p hp f fields hbody q (List.of_mem_zip hpair).1
        obtain ⟨t, ht, hm⟩ := exists_of_bind_eq_ok (List.forall₂_zip hmembers hpair)
        obtain rfl := Except.ok.inj hm
        rw [Registry.expand_eq_ok_iff] at ht
        exact (closed_labelled hkey (ht.closed hnaming hd)).attach q.2.note
      have hequals : IsTidy " = " := by decide
      have hname := hd.declaredName hnaming hp (by rw [hbody]; rfl)
      have hhead := ((isTidy_keyword p.2.displayName.isSome).append hname).append hequals
      exact (closed_append hhead.closed (closed_bracedLines hlines)).attach p.2.note
  | _ =>
      rw [hbody] at h
      cases h

mutual

theorem closed_surface (hnaming : naming.Tidy) (hd : d.Tidy) {key : String} {e : Entry}
    {s : Surface} (hkey : IsTidy key) (he : e.Tidy) (h : d.types.surface e = .ok s) :
    Closed (s.renderMember naming key).toList := by
  match e with
  | .endpoint e =>
      rw [Registry.surface] at h
      obtain ⟨signature, hsignature, h⟩ := exists_of_bind_eq_ok h
      obtain rfl := Except.ok.inj h
      obtain ⟨hinput, houtput⟩ := Registry.signature_eq_ok hsignature
      rw [Registry.expand_eq_ok_iff] at hinput houtput
      rw [Surface.renderMember]
      exact (closed_labelled hkey
        (closed_signature (hinput.closed hnaming hd) (houtput.closed hnaming hd))).attach e.note
  | .branch children =>
      rw [Registry.surface] at h
      obtain ⟨members, hmembers, h⟩ := exists_of_bind_eq_ok h
      obtain rfl := Except.ok.inj h
      rw [Surface.renderMember]
      exact closed_labelled hkey
        (closed_bracedLines (closed_surfaces hnaming hd he hmembers))
  | .foreign x =>
      rw [Registry.surface] at h
      cases h

theorem closed_surfaces (hnaming : naming.Tidy) (hd : d.Tidy) {es : List (String × Entry)}
    {ss : List (String × Surface)} (hes : TidyLevel es) (h : d.types.surfaces es = .ok ss) :
    ∀ line ∈ Surface.renderMembers naming ss, Closed line.toList := by
  match es with
  | [] =>
      rw [Registry.surfaces] at h
      obtain rfl := Except.ok.inj h
      exact List.forall_mem_nil _
  | (key, e) :: rest =>
      obtain ⟨hkey, he, hrest⟩ := hes
      rw [Registry.surfaces] at h
      obtain ⟨s, hs, h⟩ := exists_of_bind_eq_ok h
      obtain ⟨ss, hss, h⟩ := exists_of_bind_eq_ok h
      obtain rfl := Except.ok.inj h
      rw [Surface.renderMembers]
      exact List.forall_mem_cons.2 ⟨closed_surface hnaming hd hkey he hs,
        closed_surfaces hnaming hd hrest hss⟩

end

theorem closed_jsonAlias (hnaming : naming.Tidy) : Closed naming.jsonAlias.toList := by
  have hname := hnaming.json.closed
  -- The text is taken apart along its brackets, each pair around what it encloses.
  have htext : naming.jsonAlias.toList = "type ".toList ++ (naming.jsonTypeName.toList ++
      (" = number | string | boolean | null | undefined | ".toList ++
      (naming.jsonTypeName.toList ++ (('[' :: ([] ++ [']'])) ++ (" | ".toList ++
      (('\x7b' :: ((" toJSON".toList ++ (('(' :: ([] ++ [')'])) ++ ": string ".toList)) ++
        ['\x7d'])) ++ (" | ".toList ++ ('\x7b' :: ((" ".toList ++
        (('[' :: ("key: string".toList ++ [']'])) ++ (": ".toList ++
        (naming.jsonTypeName.toList ++ " ".toList)))) ++ ['\x7d']))))))))) := by
    simp [Naming.jsonAlias]
  have htype : IsTidy "type " := by decide
  have hscalars : IsTidy " = number | string | boolean | null | undefined | " := by decide
  have hor : IsTidy " | " := by decide
  have hmethod : IsTidy " toJSON" := by decide
  have hresult : IsTidy ": string " := by decide
  have hspace : IsTidy " " := by decide
  have hkey : IsTidy "key: string" := by decide
  have hcolon : IsTidy ": " := by decide
  have hobject := (hmethod.closed.append
    ((closed_nil.bracketed .round).append hresult.closed)).bracketed .brace
  have hindex := (hspace.closed.append ((hkey.closed.bracketed .square).append
    (hcolon.closed.append (hname.append hspace.closed)))).bracketed .brace
  rw [htext]
  exact htype.closed.append (hname.append (hscalars.closed.append (hname.append
    ((closed_nil.bracketed .square).append (hor.closed.append
      (hobject.append (hor.closed.append hindex)))))))

theorem closed_render (hnaming : naming.Tidy) (hd : d.Tidy) {m : Module}
    (h : d.toModule = .ok m) : Closed (m.render naming).toList := by
  have hexport : IsTidy "export type " := by decide
  have hequals : IsTidy " = " := by decide
  have htree : Closed (Surface.renderTree naming m.surface).toList :=
    closed_bracedLines
      (closed_surfaces hnaming hd hd.entries (Description.surfaces_of_toModule h).2)
  refine closed_intercalate (closed_lineFeed.cons closed_lineFeed) fun part hpart ↦ ?_
  rw [Module.parts, List.mem_append, List.mem_append] at hpart
  rcases hpart with (hpart | hpart) | hpart
  · split at hpart
    · rw [List.mem_singleton.1 hpart]
      exact closed_jsonAlias hnaming
    · cases hpart
  · obtain ⟨e, he, rfl⟩ := List.mem_map.1 hpart
    obtain ⟨p, hp, hdeclare⟩ := (Description.mem_declarations_iff h).1 he
    exact closed_declaration hnaming hd hp hdeclare
  · rw [List.mem_singleton.1 hpart]
    exact closed_append ((hexport.append hnaming.api).append hequals).closed htree

end

/-! ## Generating with the layout -/

/-- The layout does not refuse what is generated from a tidy description under tidy names, whatever
its comments hold. It gives a text exactly if there is something to lay out whose margins can be
made. -/
theorem generate_layout_of_tidy {naming : Naming} {d : Description} (hnaming : naming.Tidy)
    (hd : d.Tidy) (indent : Int) :
    (∀ r, generate { toNaming := naming, formatter := .layout (some indent) } d ≠
      .error (.format (.refused r))) ∧
    ((∃ text, generate { toNaming := naming, formatter := .layout (some indent) } d = .ok text) ↔
      ∃ source, generate { toNaming := naming, formatter := .identity } d = .ok source ∧
        Fits indent source) := by
  refine ⟨fun r hr ↦ ?_, ?_, ?_⟩
  · rw [generate] at hr
    split at hr
    · cases hr
    · next m hm =>
      split at hr
      · next e he =>
        obtain rfl := GenerationError.format.inj (Except.error.inj hr)
        have hrefused := Formatter.exists_layout_refused_iff.1 ⟨r, he⟩
        rw [exists_format_eq_error_scan_iff] at hrefused
        obtain ⟨placed, hplaced⟩ :=
          exists_scan_iff_balanced.2 (closed_render hnaming hd hm).balanced
        exact hrefused placed hplaced
      · cases hr
  · rintro ⟨text, h⟩
    obtain ⟨m, hm, htext⟩ := generate_eq_ok_iff.1 h
    have hfits := (exists_format_iff.1 ⟨text, Formatter.layout_eq_ok_iff.1 htext⟩).2
    exact ⟨_, generate_eq_ok_iff.2 ⟨m, hm, rfl⟩, hfits⟩
  · rintro ⟨source, h, hfits⟩
    obtain ⟨m, hm, hsource⟩ := generate_eq_ok_iff.1 h
    obtain rfl := Except.ok.inj hsource
    obtain ⟨text, htext⟩ := exists_format_iff.2 ⟨(closed_render hnaming hd hm).balanced, hfits⟩
    exact ⟨text, generate_eq_ok_iff.2 ⟨m, hm, Formatter.layout_eq_ok_iff.2 htext⟩⟩

/-- Marks stand in a literal text and in a comment. -/
def markedTexts : Description where
  types := Table.ofList
    [("1", .ofBody .literal none .none (.literal (.str "\x7b // ["))),
      ("2", .ofBody (.fieldSet .object) none ⟨some "*/ ' )", none⟩ (.fieldSet .object .empty))]
  entries := [("open", .endpoint ⟨.str "1", .str "2", .none⟩)]

theorem markedTexts_generate :
    Naming.Tidy {} ∧ markedTexts.Tidy ∧
      ∃ source text, generate { formatter := .identity } markedTexts = .ok source ∧
        Fits 2 source ∧ generate { formatter := .layout (some 2) } markedTexts = .ok text := by
  have hnaming : Naming.Tidy {} := ⟨by decide, by decide, by decide⟩
  have htidy : markedTexts.Tidy := by
    refine ⟨?_, ?_, ?_, ?_, by decide, trivial, trivial⟩
    · exact List.forall_mem_cons.2 ⟨nofun, List.forall_mem_singleton.2 nofun⟩
    · exact List.forall_mem_cons.2 ⟨nofun, List.forall_mem_singleton.2 fun _ _ ↦ by decide⟩
    · refine List.forall_mem_cons.2 ⟨?_, List.forall_mem_singleton.2 nofun⟩
      rintro v ⟨⟩
      have hquotes : '"' ∉ "\x7b // [".toList ∧ '\\' ∉ "\x7b // [".toList := by decide
      refine ⟨by decide, fun c hc ↦ ⟨?_, ?_⟩⟩
      · rintro rfl
        exact hquotes.1 hc
      · rintro rfl
        exact hquotes.2 hc
    · refine List.forall_mem_cons.2 ⟨nofun, List.forall_mem_singleton.2 ?_⟩
      rintro f fields ⟨⟩
      exact List.forall_mem_nil _
  have hliteral : markedTexts.types.expand (.str "1") = .ok (.literal (.str "\x7b // [")) :=
    Registry.expand_eq_ok_iff.2 (.literal rfl rfl rfl)
  have hobject : markedTexts.types.expand (.str "2") = .ok (.synthetic "2") :=
    Registry.expand_eq_ok_iff.2 (.fieldSet rfl rfl rfl)
  have hsurfaces : markedTexts.types.surfaces markedTexts.entries = .ok
      [("open", .endpoint ⟨.literal (.str "\x7b // ["), .synthetic "2"⟩ .none)] := by
    rw [markedTexts, Registry.surfaces, Registry.surface, Registry.signature, ← markedTexts,
      hliteral, hobject]
    rfl
  have hmodule : markedTexts.toModule = .ok
      ⟨false, [⟨"2", "Object", none, [], ⟨some "*/ ' )", none⟩⟩],
        [("open", .endpoint ⟨.literal (.str "\x7b // ["), .synthetic "2"⟩ .none)]⟩ := by
    rw [Description.toModule, hsurfaces]
    rfl
  have hsource : generate { formatter := .identity } markedTexts = .ok (
      "/**\n* @remarks *\\/ ' )\n*/\ntype Type2 = \x7b\x7d\n\n" ++
      "export type __API__ = \x7b\nopen: (input: \"\x7b // [\") => Promise<Type2>\n\x7d") :=
    generate_eq_ok_iff.2 ⟨_, hmodule, rfl⟩
  have hfits : Fits 2 (
      "/**\n* @remarks *\\/ ' )\n*/\ntype Type2 = \x7b\x7d\n\n" ++
      "export type __API__ = \x7b\nopen: (input: \"\x7b // [\") => Promise<Type2>\n\x7d") :=
    (exists_format_iff.1 ⟨_, rfl⟩).2
  obtain ⟨text, htext⟩ := (generate_layout_of_tidy hnaming htidy 2).2.2 ⟨_, hsource, hfits⟩
  exact ⟨hnaming, htidy, _, text, hsource, hfits, htext⟩

/-- Nothing is refused, but the margin of a namespace within a namespace cannot be made. -/
theorem wideMargin_not_generated :
    Naming.Tidy {} ∧ Description.Tidy ⟨.empty, [("a", .branch [])]⟩ ∧
      generate { formatter := .identity } ⟨.empty, [("a", .branch [])]⟩ =
        .ok "export type __API__ = \x7b\na: \x7b\x7d\n\x7d" ∧
      ∀ text, generate { formatter := .layout (some (-9223372036854775809)) }
        ⟨.empty, [("a", .branch [])]⟩ ≠ .ok text := by
  have hnaming : Naming.Tidy {} := ⟨by decide, by decide, by decide⟩
  have htidy : Description.Tidy ⟨.empty, [("a", .branch [])]⟩ :=
    ⟨by simp [Table.empty], by simp [Table.empty], by simp [Table.empty], by simp [Table.empty],
      by decide, trivial, trivial⟩
  have hmargin : generate { formatter := .layout (some (-9223372036854775809)) }
      ⟨.empty, [("a", .branch [])]⟩ = .error (.format (.broken (.margin .outOfRange))) := rfl
  refine ⟨hnaming, htidy, rfl, fun text h ↦ ?_⟩
  cases hmargin.symm.trans h

end Typings
