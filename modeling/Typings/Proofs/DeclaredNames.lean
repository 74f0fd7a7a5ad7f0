import Typings.Proofs.Contents

/-!
# The names that a module declares

A module gives names to types in a row of statements. Names of one source never meet: display names
are claimed, and the names made from ids differ as the ids do. Names of different sources can meet,
and then the module declares one name twice.
-/

namespace Typings

/-! ## Statements -/

/-- A statement of a module. -/
structure Statement where
  note : Note
  exported : Bool
  name : String
  type : String

def Statement.render (s : Statement) : String :=
  s.note.attach ((if s.exported then "export type " else "type ") ++ s.name ++ " = " ++ s.type)

/-- The type of the values that can be written as JSON. -/
def Naming.jsonType (naming : Naming) : String :=
  "number | string | boolean | null | undefined | " ++ naming.jsonTypeName ++
    "[] | \x7b toJSON(): string \x7d | \x7b [key: string]: " ++ naming.jsonTypeName ++ " \x7d"

def Declaration.statement (naming : Naming) (d : Declaration) : Statement :=
  { note := d.note, exported := d.exportName.isSome, name := d.name naming
    type := bracedLines (d.members.map (Member.render naming)) }

def Module.statements (naming : Naming) (m : Module) : List Statement :=
  (if m.needsJson then [⟨.none, false, naming.jsonTypeName, naming.jsonType⟩] else []) ++
    m.declarations.map (Declaration.statement naming) ++
    [⟨.none, true, naming.apiTypeName, Surface.renderTree naming m.surface⟩]

theorem Note.attach_none (text : String) : Note.none.attach text = text := by
  have hblock : Note.none.block = [] := rfl
  rw [attach, hblock, List.nil_append, String.intercalate_singleton]

theorem Statement.render_none (exported : Bool) (name type : String) :
    render ⟨.none, exported, name, type⟩ =
      (if exported then "export type " else "type ") ++ name ++ " = " ++ type :=
  Note.attach_none _

theorem Naming.jsonAlias_eq (naming : Naming) :
    naming.jsonAlias = "type " ++ naming.jsonTypeName ++ " = " ++ naming.jsonType := by
  have hequals : " = number | string | boolean | null | undefined | " =
      " = " ++ "number | string | boolean | null | undefined | " := by decide
  unfold jsonAlias jsonType
  dsimp only
  rw [hequals]
  generalize naming.jsonTypeName = name
  simp only [String.append_assoc]

theorem Module.parts_eq_map_render (naming : Naming) (m : Module) :
    m.parts naming = (m.statements naming).map Statement.render := by
  have hdeclaration : Statement.render ∘ Declaration.statement naming = Declaration.render naming :=
    rfl
  rw [parts, statements, List.map_append, List.map_append, List.map_map, List.map_singleton,
    Statement.render_none, hdeclaration]
  congr 2
  cases m.needsJson
  · rfl
  · rw [if_pos rfl, if_pos rfl, List.map_singleton, Statement.render_none, naming.jsonAlias_eq]
    rfl

/-! ## Names -/

theorem Module.names_statements {d : Description} {m : Module} (h : d.toModule = .ok m)
    (naming : Naming) :
    (m.statements naming).map Statement.name =
      (if d.types.hasJson then [naming.jsonTypeName] else []) ++
        d.types.entries.filterMap (fun p ↦ p.2.declaredName? naming p.1) ++
        [naming.apiTypeName] := by
  have hdeclaration : Statement.name ∘ Declaration.statement naming = (·.name naming) := rfl
  rw [statements, (Description.surfaces_of_toModule h).1, List.map_append, List.map_append,
    List.map_map, hdeclaration, Description.names_of_toModule h]
  cases d.types.hasJson <;> rfl

/-- Names of different sources do not meet. -/
structure Description.NamesApart (naming : Naming) (d : Description) : Prop where
  /-- No display name that is exported is made up for another field set. -/
  synthetic : ∀ p ∈ d.types.entries, ∀ q ∈ d.types.entries, p.2.body.isFieldSet = true →
    p.2.displayName = none → q.2.claim? ≠ some (naming.synthetic p.1)
  json : d.types.hasJson = true → ∀ p ∈ d.types.entries,
    p.2.declaredName? naming p.1 ≠ some naming.jsonTypeName
  api : ∀ p ∈ d.types.entries, p.2.declaredName? naming p.1 ≠ some naming.apiTypeName
  aliases : d.types.hasJson = true → naming.jsonTypeName ≠ naming.apiTypeName

theorem Naming.synthetic_injective (naming : Naming) {x y : String}
    (h : naming.synthetic x = naming.synthetic y) : x = y := by
  have hchars := congrArg String.toList h
  simp only [synthetic, String.toList_append, List.append_cancel_left_eq] at hchars
  exact String.toList_injective hchars

theorem Descriptor.declaredName?_eq_some_iff {naming : Naming} {id s : String} {d : Descriptor} :
    d.declaredName? naming id = some s ↔
      d.claim? = some s ∨
        d.body.isFieldSet = true ∧ d.displayName = none ∧ naming.synthetic id = s := by
  rw [declaredName?, claim?]
  cases d.body with
  | fieldSet f fields => cases d.displayName <;> simp [Body.isFieldSet]
  | _ => simp [Body.isFieldSet]

/-- Two field sets are declared by one name only if one of them is called by a name of its own and
the other by one made from its id. -/
theorem Description.nodup_declaredNames_iff {d : Description} {naming : Naming}
    (h : d.Generable) :
    (d.types.entries.filterMap fun p ↦ p.2.declaredName? naming p.1).Nodup ↔
      ∀ p ∈ d.types.entries, ∀ q ∈ d.types.entries, p.2.body.isFieldSet = true →
        p.2.displayName = none → q.2.claim? ≠ some (naming.synthetic p.1) := by
  rw [Table.nodup_filterMap_iff fun p : String × Descriptor ↦ p.2.declaredName? naming p.1]
  simp only [Descriptor.declaredName?_eq_some_iff]
  constructor
  · intro hnames p hp q hq hbody hname hclaim
    have hid : p.1 = q.1 := hnames p hp q hq _ (.inr ⟨hbody, hname, rfl⟩) (.inl hclaim)
    obtain rfl : p = q := List.inj_on_of_nodup_map d.types.nodup_keys hp hq hid
    rw [Descriptor.claim?, hname] at hclaim
    split at hclaim <;> cases hclaim
  · rintro hapart p hp q hq s (hclaim | ⟨hbody, hname, hs⟩) (hclaim' | ⟨hbody', hname', hs'⟩)
    · exact h.names p hp q hq s hclaim hclaim'
    · exact absurd (hs' ▸ hclaim) (hapart q hq p hp hbody' hname')
    · exact absurd (hs ▸ hclaim') (hapart p hp q hq hbody hname)
    · exact naming.synthetic_injective (hs.trans hs'.symm)

theorem Description.nodup_names_iff {d : Description} {naming : Naming} (h : d.Generable) :
    ((if d.types.hasJson then [naming.jsonTypeName] else []) ++
        d.types.entries.filterMap (fun p ↦ p.2.declaredName? naming p.1) ++
        [naming.apiTypeName]).Nodup ↔
      d.NamesApart naming := by
  have hnotMem (s : String) :
      s ∉ d.types.entries.filterMap (fun p ↦ p.2.declaredName? naming p.1) ↔
        ∀ p ∈ d.types.entries, p.2.declaredName? naming p.1 ≠ some s := by
    simp only [List.mem_filterMap, not_exists, not_and]
  -- The alias for JSON values may be missing, so the other names come first.
  have hothers : (d.types.entries.filterMap (fun p ↦ p.2.declaredName? naming p.1) ++
        [naming.apiTypeName]).Nodup ↔
      (∀ p ∈ d.types.entries, ∀ q ∈ d.types.entries, p.2.body.isFieldSet = true →
        p.2.displayName = none → q.2.claim? ≠ some (naming.synthetic p.1)) ∧
      ∀ p ∈ d.types.entries, p.2.declaredName? naming p.1 ≠ some naming.apiTypeName := by
    rw [← List.concat_eq_append, List.nodup_concat, hnotMem, nodup_declaredNames_iff h, and_comm]
  cases hjson : d.types.hasJson with
  | false =>
      rw [if_neg Bool.false_ne_true, List.nil_append, hothers]
      constructor
      · rintro ⟨hsynthetic, hapi⟩
        exact ⟨hsynthetic, by simp [hjson], hapi, by simp [hjson]⟩
      · intro hapart
        exact ⟨hapart.synthetic, hapart.api⟩
  | true =>
      rw [if_pos rfl, List.append_assoc, List.singleton_append, List.nodup_cons, hothers,
        List.mem_append, not_or, hnotMem, List.mem_singleton]
      constructor
      · rintro ⟨⟨hjsonApart, haliases⟩, hsynthetic, hapi⟩
        exact ⟨hsynthetic, fun _ ↦ hjsonApart, hapi, fun _ ↦ haliases⟩
      · intro hapart
        exact ⟨⟨hapart.json hjson, hapart.aliases hjson⟩, hapart.synthetic, hapart.api⟩

/-- The text of a module is that of its statements, and no two of them declare one name exactly if
names of different sources do not meet. -/
theorem statement_names_nodup_iff {options : Options} {d : Description} {text : String}
    (h : generate options d = .ok text) :
    ∃ m, d.toModule = .ok m ∧
      options.formatter ("\n\n".intercalate
        ((m.statements options.toNaming).map Statement.render)) = .ok text ∧
      (m.statements options.toNaming).map Statement.name =
        (if d.types.hasJson then [options.jsonTypeName] else []) ++
          d.types.entries.filterMap (fun p ↦ p.2.declaredName? options.toNaming p.1) ++
          [options.apiTypeName] ∧
      (((m.statements options.toNaming).map Statement.name).Nodup ↔
        d.NamesApart options.toNaming) := by
  obtain ⟨m, hmodule, htext⟩ := generate_eq_ok_iff.1 h
  have hnames := Module.names_statements hmodule options.toNaming
  refine ⟨m, hmodule, ?_, hnames, ?_⟩
  · rw [← Module.parts_eq_map_render]
    exact htext
  · rw [hnames]
    exact Description.nodup_names_iff (Description.exists_toModule_iff.1 ⟨m, hmodule⟩)

/-- A value that can be written as JSON, and field sets with and without a name. -/
def allSources : Description where
  types := Table.ofList
    [("1", .ofBody (.primitive .json) none .none (.primitive .json)),
      ("2", .ofBody (.fieldSet .object) none .none
        (.fieldSet .object (Table.ofList [("value", ⟨.str "1", .none⟩)]))),
      ("3", .ofBody (.fieldSet .struct) (some "Page") .none
        (.fieldSet .struct (Table.ofList [("items", ⟨.str "2", .none⟩)])))]
  entries := []

theorem allSources_names_nodup :
    ∃ text, generate { formatter := .identity } allSources = .ok text ∧
      ∃ m, allSources.toModule = .ok m ∧
        (m.statements {}).map Statement.name = ["JsonType", "Type2", "Page", "__API__"] ∧
        allSources.NamesApart {} := by
  have hjson : allSources.types.Resolves (.str "1") :=
    ⟨_, Registry.expand_eq_ok_iff.2 (.primitive rfl rfl rfl)⟩
  have hobject : allSources.types.Resolves (.str "2") :=
    ⟨_, Registry.expand_eq_ok_iff.2 (.fieldSet rfl rfl rfl)⟩
  have hchecks : ∀ c ∈ allSources.checks, c.fault? allSources.types = none := by
    change ∀ c ∈ [Check.kind _, .kind _, .type (.str "1"), .kind _, .type (.str "2"),
      .name [] "Page"], _
    simp only [List.forall_mem_cons, Registry.fault?_type_eq_none_iff]
    exact ⟨rfl, rfl, hjson, rfl, hobject, rfl, by simp⟩
  obtain ⟨m, hmodule⟩ := Description.exists_toModule_iff.2
    (allSources.checks_pass_iff_generable.1 hchecks)
  have h : generate { formatter := .identity } allSources = .ok (m.render {}) :=
    generate_eq_ok_iff.2 ⟨m, hmodule, rfl⟩
  obtain ⟨m, hmodule, -, hnames, hapart⟩ := statement_names_nodup_iff h
  refine ⟨_, h, m, hmodule, hnames, hapart.1 ?_⟩
  rw [hnames]
  decide

/-- Field sets with and without a name that are called the same, and one that is called as the type
of the endpoint tree. -/
def sharedNames : Description where
  types := Table.ofList
    [("1", .ofBody (.fieldSet .object) none .none (.fieldSet .object .empty)),
      ("2", .ofBody (.fieldSet .struct) (some "Type1") .none (.fieldSet .struct .empty)),
      ("3", .ofBody (.fieldSet .object) (some "__API__") .none (.fieldSet .object .empty))]
  entries := []

theorem sharedNames_declared_twice :
    generate { formatter := .identity } sharedNames = .ok (
        "type Type1 = \x7b\x7d\n\n" ++ "export type Type1 = \x7b\x7d\n\n" ++
        "export type __API__ = \x7b\x7d\n\n" ++ "export type __API__ = \x7b\x7d") ∧
      ∃ m, sharedNames.toModule = .ok m ∧
        (m.statements {}).map Statement.name = ["Type1", "Type1", "__API__", "__API__"] :=
  ⟨rfl, _, rfl, rfl⟩

end Typings
