import Typings.Proofs.Contents

/-!
# What a module refers to

Type expressions refer to types by name. The references of a module are those of the types that are
met on the way from its fields and endpoints. A field set is declared in the same module, and so is
the alias for JSON values; a type of another kind that has a display name is referred to by it
although nothing declares it.
-/

namespace Typings

/-! ## References in a type expression -/

namespace TypeExpr

/-- A type expression that is a name and no more. -/
def IsReference : TypeExpr → Prop
  | named _ | synthetic _ | primitive .json => True
  | _ => False

mutual

def references : TypeExpr → List TypeExpr
  | named name => [named name]
  | synthetic id => [synthetic id]
  | primitive .json => [primitive .json]
  | primitive _ | literal _ => []
  | wrapper _ item => references item
  | junction _ items => referencesEach items

def referencesEach : List TypeExpr → List TypeExpr
  | [] => []
  | t :: rest => references t ++ referencesEach rest

end

theorem referencesEach_eq_flatMap (ts : List TypeExpr) :
    referencesEach ts = ts.flatMap references := by
  induction ts with
  | nil => rfl
  | cons t ts ih => rw [referencesEach, ih, List.flatMap_cons]

theorem references_subset_of_mem_parts {t u : TypeExpr} (h : u ∈ t.parts) :
    u.references ⊆ t.references := by
  cases t with
  | wrapper w item =>
      obtain rfl := List.mem_singleton.1 h
      rw [references]
      exact List.Subset.refl _
  | junction j items =>
      rw [references, referencesEach_eq_flatMap]
      exact fun v hv ↦ List.mem_flatMap.2 ⟨u, h, hv⟩
  | _ => cases h

theorem IsReference.references_eq {t : TypeExpr} (h : t.IsReference) : t.references = [t] := by
  match t with
  | named _ | synthetic _ | primitive .json => rw [references]

end TypeExpr

namespace Registry

variable {r : Registry} {id x : String} {t u : TypeExpr}

/-- A reference in an expansion is what a type expands to that is reached from the start. -/
theorem Expands.exists_of_mem_references (h : r.Expands id t) (hu : u ∈ t.references) :
    u.IsReference ∧ ∃ x, r.Reaches id x ∧ r.Expands x u := by
  induction h with
  | named hd hname =>
      rw [TypeExpr.references, List.mem_singleton] at hu
      exact hu ▸ ⟨trivial, _, .refl, .named hd hname⟩
  | fieldSet hd hname hbody =>
      rw [TypeExpr.references, List.mem_singleton] at hu
      exact hu ▸ ⟨trivial, _, .refl, .fieldSet hd hname hbody⟩
  | @primitive id d p hd hname hbody =>
      cases p with
      | json =>
          rw [TypeExpr.references, List.mem_singleton] at hu
          exact hu ▸ ⟨trivial, _, .refl, .primitive hd hname hbody⟩
      | _ =>
          rw [TypeExpr.references] at hu
          · cases hu
          · intro hp
            cases hp
  | literal =>
      rw [TypeExpr.references] at hu
      cases hu
  | @wrapper id d w item t hd hname hbody _ ih =>
      rw [TypeExpr.references] at hu
      obtain ⟨hreference, x, hreaches, hx⟩ := ih hu
      have hstep : r.Step id item.text := ⟨d, hd, hname, by simp [hbody, Body.members]⟩
      exact ⟨hreference, x, .head hstep hreaches, hx⟩
  | @junction id d j items ts hd hname hbody _ hlength _ ih =>
      rw [TypeExpr.references, TypeExpr.referencesEach_eq_flatMap] at hu
      obtain ⟨t, ht, hu⟩ := List.mem_flatMap.1 hu
      obtain ⟨item, hp⟩ := exists_mem_zip_right hlength ht
      obtain ⟨hreference, x, hreaches, hx⟩ := ih _ hp hu
      have hitem := (List.of_mem_zip hp).1
      have hstep : r.Step id item.text :=
        ⟨d, hd, hname, by simpa [hbody, Body.members] using ⟨item, hitem, rfl⟩⟩
      exact ⟨hreference, x, .head hstep hreaches, hx⟩

theorem Expands.reaches_references (h : r.Expands id t) (hx : r.Reaches id x) :
    ∃ u, r.Expands x u ∧ u.references ⊆ t.references := by
  induction hx with
  | refl => exact ⟨t, h, List.Subset.refl _⟩
  | tail _ hstep ih =>
      obtain ⟨u, hu, hsubset⟩ := ih
      obtain ⟨v, hpart, hv⟩ := hu.step hstep
      exact ⟨v, hv, List.Subset.trans (TypeExpr.references_subset_of_mem_parts hpart) hsubset⟩

end Registry

/-! ## The type expressions of a module -/

mutual

/-- The signatures below an entry, in order. -/
def Surface.signatures : Surface → List Signature
  | .endpoint signature _ => [signature]
  | .branch members => levelSignatures members

def levelSignatures : List (String × Surface) → List Signature
  | [] => []
  | (_, s) :: rest => s.signatures ++ levelSignatures rest

end

mutual

/-- The endpoints below an entry, in order. -/
def Entry.endpoints : Entry → List Endpoint
  | .endpoint e => [e]
  | .branch children => levelEndpoints children
  | .foreign _ => []

def levelEndpoints : List (String × Entry) → List Endpoint
  | [] => []
  | (_, e) :: rest => e.endpoints ++ levelEndpoints rest

end

/-- The type expressions in a module: those of the fields that it declares, and the inputs and
outputs of its endpoints. -/
def Module.types (m : Module) : List TypeExpr :=
  (m.declarations.flatMap fun d ↦ d.members.map Member.type) ++
    (levelSignatures m.surface).flatMap fun s ↦ [s.input, s.output]

/-- The ids of the types that a module has expressions for. -/
def Description.roots (d : Description) : List TypeId :=
  (d.types.entries.flatMap fun p ↦ p.2.body.references) ++
    (levelEndpoints d.entries).flatMap fun e ↦ [e.input, e.output]

namespace Registry

variable {r : Registry}

theorem signature_eq_ok {e : Endpoint} {s : Signature} (h : r.signature e = .ok s) :
    r.expand e.input = .ok s.input ∧ r.expand e.output = .ok s.output := by
  obtain ⟨input, hinput, h⟩ := exists_of_bind_eq_ok h
  obtain ⟨output, houtput, h⟩ := exists_of_bind_eq_ok h
  obtain rfl := Except.ok.inj h
  exact ⟨hinput, houtput⟩

mutual

theorem signatures_of_surface {e : Entry} {s : Surface} (h : r.surface e = .ok s) :
    List.Forall₂ (fun e s ↦ r.signature e = .ok s) e.endpoints s.signatures := by
  match e with
  | .endpoint e =>
      rw [surface] at h
      obtain ⟨signature, hsignature, h⟩ := exists_of_bind_eq_ok h
      obtain rfl := Except.ok.inj h
      exact .cons hsignature .nil
  | .branch children =>
      rw [surface] at h
      obtain ⟨members, hmembers, h⟩ := exists_of_bind_eq_ok h
      obtain rfl := Except.ok.inj h
      exact signatures_of_surfaces hmembers
  | .foreign x =>
      rw [surface] at h
      cases h

theorem signatures_of_surfaces {es : List (String × Entry)} {ss : List (String × Surface)}
    (h : r.surfaces es = .ok ss) :
    List.Forall₂ (fun e s ↦ r.signature e = .ok s) (levelEndpoints es) (levelSignatures ss) := by
  match es with
  | [] =>
      rw [surfaces] at h
      obtain rfl := Except.ok.inj h
      exact .nil
  | (key, e) :: rest =>
      rw [surfaces] at h
      obtain ⟨s, hs, h⟩ := exists_of_bind_eq_ok h
      obtain ⟨ss, hss, h⟩ := exists_of_bind_eq_ok h
      obtain rfl := Except.ok.inj h
      rw [levelEndpoints, levelSignatures]
      exact List.rel_append (signatures_of_surface hs) (signatures_of_surfaces hss)

end

end Registry

/-- The type expressions of a module are the expansions of the ids that it has them for. -/
theorem Description.types_of_toModule {d : Description} {m : Module} (h : d.toModule = .ok m) :
    List.Forall₂ (fun x t ↦ d.types.expand x = .ok t) d.roots m.types := by
  refine List.rel_append ?_ ?_
  · obtain ⟨results, hresults, hdeclarations⟩ := declarations_of_toModule h
    have hflatMap : (m.declarations.flatMap fun e ↦ e.members.map Member.type) =
        results.flatMap fun result ↦ result.toList.flatMap fun e ↦ e.members.map Member.type := by
      rw [hdeclarations, List.reduceOption, List.filterMap_eq_flatMap_toList, List.flatMap_assoc]
      rfl
    rw [hflatMap]
    refine List.rel_flatMap hresults fun p result hdeclare ↦ ?_
    obtain ⟨hkind, hresult⟩ := Registry.declare_eq_ok hdeclare
    -- A type of another kind yields no declaration, and no field of it is looked at.
    cases result with
    | none =>
        rw [Body.references_eq_nil hkind.symm]
        exact .nil
    | some e =>
        simp only [Option.toList_some, List.flatMap_singleton]
        rw [List.forall₂_map_right_iff]
        exact (hresult e rfl).2.2
  · have hsignatures := Registry.signatures_of_surfaces (surfaces_of_toModule h).2
    refine List.rel_flatMap hsignatures fun e s hsignature ↦ ?_
    obtain ⟨hinput, houtput⟩ := Registry.signature_eq_ok hsignature
    exact .cons hinput (.cons houtput .nil)

/-! ## What the references stand for -/

def Module.references (m : Module) : List TypeExpr := m.types.flatMap TypeExpr.references

/-- A type is met while a field or an endpoint is written. -/
def Description.Meets (d : Description) (x : String) : Prop :=
  ∃ root ∈ d.roots, d.types.Reaches root.text x

namespace Description

variable {d : Description} {m : Module} {x : String}

theorem mem_references_iff (h : d.toModule = .ok m) {t : TypeExpr} :
    t ∈ m.references ↔ t.IsReference ∧ ∃ x, d.Meets x ∧ d.types.Expands x t := by
  have htypes := types_of_toModule h
  rw [Module.references, List.mem_flatMap]
  constructor
  · rintro ⟨u, hu, ht⟩
    obtain ⟨root, hpair⟩ := exists_mem_zip_right htypes.length_eq hu
    have hroot := Registry.expand_eq_ok_iff.1 (List.forall₂_zip htypes hpair)
    obtain ⟨hreference, x, hreaches, hx⟩ := hroot.exists_of_mem_references ht
    exact ⟨hreference, x, ⟨root, (List.of_mem_zip hpair).1, hreaches⟩, hx⟩
  · rintro ⟨hreference, x, ⟨root, hroot, hreaches⟩, hx⟩
    obtain ⟨u, hpair⟩ := exists_mem_zip_left htypes.length_eq hroot
    have hu := Registry.expand_eq_ok_iff.1 (List.forall₂_zip htypes hpair)
    obtain ⟨v, hv, hsubset⟩ := hu.reaches_references hreaches
    obtain rfl := hx.unique hv
    refine ⟨u, (List.of_mem_zip hpair).2, hsubset ?_⟩
    rw [hreference.references_eq]
    exact List.mem_singleton_self t

theorem Meets.exists_get? (h : d.toModule = .ok m) (hx : d.Meets x) :
    ∃ e, d.types.get? x = some e ∧ e.body ≠ .bare := by
  obtain ⟨root, hroot, hreaches⟩ := hx
  have htypes := types_of_toModule h
  obtain ⟨u, hpair⟩ := exists_mem_zip_left htypes.length_eq hroot
  have hu := Registry.expand_eq_ok_iff.1 (List.forall₂_zip htypes hpair)
  obtain ⟨e, he⟩ := hu.expandable.registered x hreaches
  have hgenerable := exists_toModule_iff.1 ⟨m, h⟩
  exact ⟨e, he, hgenerable.declarable _ (Table.get?_eq_some_iff.1 he)⟩

end Description

namespace Registry

variable {r : Registry} {naming : Naming} {x : String} {e : Descriptor}

theorem mention_of_displayName {name : String} (he : r.get? x = some e)
    (hname : e.displayName = some name) : r.mention naming (.str x) = .ok name :=
  mention_eq_ok_iff.2 ⟨_, .named he hname, rfl⟩

theorem mention_of_isFieldSet (he : r.get? x = some e) (hbody : e.body.isFieldSet = true) :
    r.mention naming (.str x) = .ok (e.displayName.getD (naming.synthetic x)) := by
  cases hname : e.displayName with
  | some name => exact mention_of_displayName he hname
  | none =>
      cases hfields : e.body with
      | fieldSet f fields => exact mention_eq_ok_iff.2 ⟨_, .fieldSet he hname hfields, rfl⟩
      | _ => simp [hfields, Body.isFieldSet] at hbody

theorem mention_of_isJson (he : r.get? x = some e) (hname : e.displayName = none)
    (hjson : e.isJson = true) : r.mention naming (.str x) = .ok naming.jsonTypeName := by
  rw [Descriptor.isJson] at hjson
  split at hjson
  · next hbody => exact mention_eq_ok_iff.2 ⟨_, .primitive he hname hbody, rfl⟩
  · cases hjson

theorem hasJson_of_get? (he : r.get? x = some e) (hjson : e.isJson = true) : r.hasJson = true :=
  List.any_eq_true.2 ⟨e, List.mem_map_of_mem (Table.get?_eq_some_iff.1 he), hjson⟩

end Registry

theorem Descriptor.isFieldSet_eq_not_isInline {e : Descriptor} (h : e.body ≠ .bare) :
    e.body.isFieldSet = !e.isInline := by
  rw [isInline]
  cases hbody : e.body <;> simp_all [Body.isFieldSet]

/-- Every type that a module refers to is registered. If it is a field set, then one declaration is
its own, and it is referred to by the name that is declared there; if it is JSON data without a
name, then it is referred to by the alias, which the module holds. A type of any other kind is
referred to if it has a display name, and then by that, and no declaration is its own. -/
theorem references_declared {options : Options} {d : Description} {text : String}
    (h : generate options d = .ok text) :
    ∃ m, d.toModule = .ok m ∧ options.formatter (m.render options.toNaming) = .ok text ∧
      (∀ t, t ∈ m.references ↔ t.IsReference ∧ ∃ x, d.Meets x ∧ d.types.Expands x t) ∧
      ∀ x, d.Meets x → ∃ e, d.types.get? x = some e ∧
        (e.isInline = false → ∃ declaration,
          (∀ other, other ∈ m.declarations ∧ other.id = x ↔ other = declaration) ∧
          d.types.declare x e = .ok (some declaration) ∧
          d.types.mention options.toNaming (.str x) =
            .ok (declaration.name options.toNaming)) ∧
        (e.isJson = true → e.displayName = none → m.needsJson = true ∧
          d.types.mention options.toNaming (.str x) = .ok options.jsonTypeName) ∧
        (e.isInline = true → ∀ name, e.displayName = some name →
          (∀ other ∈ m.declarations, other.id ≠ x) ∧
          d.types.mention options.toNaming (.str x) = .ok name) := by
  obtain ⟨m, hmodule, htext⟩ := generate_eq_ok_iff.1 h
  refine ⟨m, hmodule, htext, fun t ↦ Description.mem_references_iff hmodule, fun x hx ↦ ?_⟩
  obtain ⟨e, he, hbare⟩ := hx.exists_get? hmodule
  obtain ⟨result, hdeclare⟩ := Description.exists_declare hmodule (Table.get?_eq_some_iff.1 he)
  have hown (other : Declaration) :
      other ∈ m.declarations ∧ other.id = x ↔ result = some other := by
    rw [Description.mem_declarations_and_id_iff hmodule he, hdeclare, Except.ok.injEq]
  obtain ⟨hkind, hresult⟩ := Registry.declare_eq_ok hdeclare
  rw [Descriptor.isFieldSet_eq_not_isInline hbare] at hkind
  refine ⟨e, he, fun hinline ↦ ?_, fun hjson hname ↦ ?_, fun hinline name hname ↦ ⟨?_, ?_⟩⟩
  · obtain ⟨declaration, rfl⟩ : ∃ declaration, result = some declaration :=
      Option.isSome_iff_exists.1 (by rw [hkind, hinline]; rfl)
    obtain ⟨hid, hname, -⟩ := hresult declaration rfl
    refine ⟨declaration, fun other ↦ ?_, hdeclare, ?_⟩
    · rw [hown, Option.some.injEq, eq_comm]
    · rw [Declaration.name, hid, hname]
      refine Registry.mention_of_isFieldSet he ?_
      rw [Descriptor.isFieldSet_eq_not_isInline hbare, hinline]
      rfl
  · rw [(Description.surfaces_of_toModule hmodule).1]
    exact ⟨Registry.hasJson_of_get? he hjson, Registry.mention_of_isJson he hname hjson⟩
  · intro other hother hid
    obtain rfl := (hown other).1 ⟨hother, hid⟩
    rw [hinline] at hkind
    cases hkind
  · exact Registry.mention_of_displayName he hname

/-- Types of every sort that is referred to: field sets with and without a name, JSON data, and a
list with a display name. -/
def manyReferences : Description where
  types := Table.ofList
    [("1", .ofBody (.primitive .json) none .none (.primitive .json)),
      ("2", .ofBody (.fieldSet .object) none .none
        (.fieldSet .object (Table.ofList [("value", ⟨.str "1", .none⟩)]))),
      ("3", .ofBody (.wrapper .list) none .none (.wrapper .list (.str "2"))),
      ("4", .ofBody (.fieldSet .struct) (some "Page") .none
        (.fieldSet .struct (Table.ofList [("items", ⟨.str "3", .none⟩)])))]
  entries := [("first", .endpoint ⟨.str "1", .str "4", .none⟩)]

theorem manyReferences_declared :
    ∃ text, generate { formatter := .identity } manyReferences = .ok text ∧
      ∃ m, manyReferences.toModule = .ok m ∧
        ∃ declaration, (∀ other, other ∈ m.declarations ∧ other.id = "2" ↔ other = declaration) ∧
          manyReferences.types.mention {} (.str "2") = .ok (declaration.name {}) := by
  have hjson : manyReferences.types.Resolves (.str "1") :=
    ⟨_, Registry.expand_eq_ok_iff.2 (.primitive rfl rfl rfl)⟩
  have hlist : manyReferences.types.Resolves (.str "3") :=
    ⟨_, Registry.expand_eq_ok_iff.2 (.wrapper rfl rfl rfl (.fieldSet rfl rfl rfl))⟩
  have hpage : manyReferences.types.Resolves (.str "4") :=
    ⟨_, Registry.expand_eq_ok_iff.2 (.named rfl rfl)⟩
  have hchecks : ∀ c ∈ manyReferences.checks, c.fault? manyReferences.types = none := by
    change ∀ c ∈ [Check.kind _, .kind _, .type (.str "1"), .kind _, .kind _, .type (.str "3"),
      .name [] "Page", .type (.str "1"), .type (.str "4")], _
    simp only [List.forall_mem_cons, Registry.fault?_type_eq_none_iff]
    exact ⟨rfl, rfl, hjson, rfl, rfl, hlist, rfl, hjson, hpage, by simp⟩
  obtain ⟨m, hmodule⟩ := Description.exists_toModule_iff.2
    (manyReferences.checks_pass_iff_generable.1 hchecks)
  have h : generate { formatter := .identity } manyReferences = .ok (m.render {}) :=
    generate_eq_ok_iff.2 ⟨m, hmodule, rfl⟩
  obtain ⟨m, hmodule, -, -, hmeets⟩ := references_declared h
  have hroots : manyReferences.roots = [.str "1", .str "3", .str "1", .str "4"] := rfl
  have hstep : manyReferences.types.Step "3" "2" := ⟨_, rfl, rfl, List.mem_singleton_self _⟩
  obtain ⟨e, he, hfieldSet, -, -⟩ := hmeets "2" ⟨.str "3", by simp [hroots], .single hstep⟩
  obtain rfl := Option.some.inj he
  obtain ⟨declaration, hdeclaration, -, hmention⟩ := hfieldSet rfl
  exact ⟨_, h, m, hmodule, declaration, hdeclaration, hmention⟩

/-- A text with a display name. -/
def namedText : Description where
  types :=
    Table.ofList [("1", .ofBody (.primitive .string) (some "Email") .none (.primitive .string))]
  entries := [("check", .endpoint ⟨.str "1", .str "1", .none⟩)]

/-- The display name stands in the text, and nothing but the type of the endpoint tree is declared
there. -/
theorem namedText_not_declared :
    ∃ m, namedText.toModule = .ok m ∧
      generate { formatter := .identity } namedText = .ok
        "export type __API__ = \x7b\ncheck: (input: Email) => Promise<Email>\n\x7d" ∧
      namedText.Meets "1" ∧ namedText.types.mention {} (.str "1") = .ok "Email" ∧
      m.declarations = [] ∧ m.needsJson = false := by
  have hexpand : namedText.types.expand (.str "1") = .ok (.named "Email") :=
    Registry.expand_eq_ok_iff.2 (.named rfl rfl)
  have hsurfaces : namedText.types.surfaces namedText.entries =
      .ok [("check", .endpoint ⟨.named "Email", .named "Email"⟩ .none)] := by
    rw [namedText, Registry.surfaces, Registry.surface, Registry.signature, ← namedText, hexpand]
    rfl
  have hmodule : namedText.toModule = .ok
      ⟨false, [], [("check", .endpoint ⟨.named "Email", .named "Email"⟩ .none)]⟩ := by
    rw [Description.toModule, hsurfaces]
    rfl
  have hroots : namedText.roots = [.str "1", .str "1"] := rfl
  exact ⟨_, hmodule, generate_eq_ok_iff.2 ⟨_, hmodule, rfl⟩, ⟨.str "1", by simp [hroots], .refl⟩,
    Registry.mention_of_displayName rfl rfl, rfl, rfl⟩

end Typings
