import Mathlib.Data.List.Nodup
import Mathlib.Data.List.ReduceOption
import Typings.Proofs.FirstFault
import Typings.Proofs.Expansion

/-!
# What a module holds

A module that is generated holds one declaration for each field set of the registry, in registry
order, and the signatures of the endpoints of the tree. Its text is a row of statements, each of
which gives a name to a type.
-/

namespace Typings

/-! ## Declarations -/

theorem Table.nodup_filterMap_iff {ν α : Type} {t : Table ν} (f : String × ν → Option α) :
    (t.entries.filterMap f).Nodup ↔
      ∀ p ∈ t.entries, ∀ q ∈ t.entries, ∀ a, f p = some a → f q = some a → p.1 = q.1 := by
  rw [← Table.pairwise_iff f, List.Nodup, List.pairwise_filterMap]
  refine List.Pairwise.iff fun p q ↦ ⟨fun h a hp hq ↦ h a hp a hq rfl, ?_⟩
  rintro h a hp _ hq rfl
  exact h a hp hq

def Body.isFieldSet : Body → Bool
  | .fieldSet _ _ => true
  | _ => false

theorem Body.references_eq_nil {b : Body} (h : b.isFieldSet = false) : b.references = [] := by
  cases b with
  | fieldSet f fields => cases h
  | _ => rfl

/-- The name that a type is declared by, whether it is exported or not. -/
def Descriptor.declaredName? (naming : Naming) (id : String) (d : Descriptor) : Option String :=
  if d.body.isFieldSet then some (d.displayName.getD (naming.synthetic id)) else none

namespace Registry

variable {r : Registry}

theorem declare_eq_ok {id : String} {d : Descriptor} {declaration : Option Declaration}
    (h : r.declare id d = .ok declaration) :
    declaration.isSome = d.body.isFieldSet ∧
      ∀ e, declaration = some e → e.id = id ∧ e.exportName = d.displayName ∧
        List.Forall₂ (fun x (m : Member) ↦ r.expand x = .ok m.type)
          d.body.references e.members := by
  rw [declare] at h
  cases hbody : d.body with
  | fieldSet f fields =>
      rw [hbody] at h
      obtain ⟨members, hmembers, hdeclaration⟩ := exists_of_bind_eq_ok h
      obtain rfl := Except.ok.inj hdeclaration
      refine ⟨rfl, fun e he ↦ ?_⟩
      obtain rfl := Option.some.inj he
      refine ⟨rfl, rfl, ?_⟩
      rw [Body.references, List.forall₂_map_left_iff]
      refine (mapM_eq_ok_iff.1 hmembers).imp fun p m hm ↦ ?_
      obtain ⟨t, ht, hmember⟩ := exists_of_bind_eq_ok hm
      obtain rfl := Except.ok.inj hmember
      exact ht
  | bare =>
      rw [hbody] at h
      cases h
  | _ =>
      rw [hbody] at h
      obtain rfl := Except.ok.inj h
      exact ⟨rfl, by simp⟩

/-- Unless there is a fault, every type has been declared, and the declarations are those of the
types that have one. -/
theorem declarations_emitList {names : Exports} {ds : List (String × Descriptor)}
    (h : (r.emitList names ds).fault = none) :
    ∃ results, List.Forall₂ (fun p result ↦ r.declare p.1 p.2 = .ok result) ds results ∧
      (r.emitList names ds).declarations = results.reduceOption := by
  induction ds generalizing names with
  | nil => exact ⟨[], .nil, rfl⟩
  | cons p ds ih =>
      cases hemit : r.emit names p.1 p.2 with
      | error fault => simp [emitList_cons_error hemit] at h
      | ok result =>
          obtain ⟨declaration, names'⟩ := result
          rw [emitList_cons_ok hemit] at h ⊢
          obtain ⟨results, hresults, hrest⟩ := ih h
          rw [emit_eq] at hemit
          obtain ⟨declaration', hdeclare, hclaim⟩ := exists_of_bind_eq_ok hemit
          obtain ⟨_, _, hpair⟩ := exists_of_bind_eq_ok hclaim
          obtain rfl : declaration' = declaration := congrArg Prod.fst (Except.ok.inj hpair)
          refine ⟨declaration' :: results, .cons hdeclare hresults, ?_⟩
          dsimp only
          rw [hrest]
          cases declaration' with
          | none => rfl
          | some declaration => rfl

theorem toExcept_emitAll_eq_ok {names : Exports} {declarations : List Declaration}
    (h : (r.emitAll names).toExcept = .ok declarations) :
    ∃ results, List.Forall₂ (fun p result ↦ r.declare p.1 p.2 = .ok result) r.entries results ∧
      declarations = results.reduceOption := by
  rw [Emission.toExcept] at h
  split at h
  · cases h
  · next hfault =>
    obtain rfl := Except.ok.inj h
    exact declarations_emitList hfault

/-- What is read off the declarations of some types is what is read off the types themselves. -/
theorem map_reduceOption_of_forall₂ {α : Type} {ds : List (String × Descriptor)}
    {results : List (Option Declaration)} {f : String × Descriptor → Option α}
    {g : Declaration → α}
    (hresults : List.Forall₂ (fun p result ↦ r.declare p.1 p.2 = .ok result) ds results)
    (hfg : ∀ p result, r.declare p.1 p.2 = .ok result → result.map g = f p) :
    results.reduceOption.map g = ds.filterMap f := by
  induction hresults with
  | nil => rfl
  | @cons p result ds results hdeclare _ ih =>
      have hhead := hfg p result hdeclare
      rw [List.filterMap_cons, ← hhead, ← ih]
      cases result <;> rfl

end Registry

theorem generate_of_toModule {d : Description} {m : Module} (h : d.toModule = .ok m)
    (options : Options) : generate options d =
      (options.formatter (m.render options.toNaming)).mapError .format := by
  rw [generate, h]
  dsimp only
  cases options.formatter (m.render options.toNaming) with
  | error e => rfl
  | ok text => rfl

theorem generate_eq_ok_iff {options : Options} {d : Description} {text : String} :
    generate options d = .ok text ↔
      ∃ m, d.toModule = .ok m ∧ options.formatter (m.render options.toNaming) = .ok text := by
  cases hmodule : d.toModule with
  | error f => simp [generate, hmodule]
  | ok m =>
      simp only [generate_of_toModule hmodule, Except.ok.injEq, exists_eq_left']
      cases options.formatter (m.render options.toNaming) <;> simp [Except.mapError]

namespace Description

variable {d : Description} {m : Module}

theorem exists_toModule_iff : (∃ m, d.toModule = .ok m) ↔ d.Generable := by
  rw [← checks_pass_iff_generable, ← List.findSome?_eq_none_iff, ← failure?_toModule,
    failure?_eq_none_iff]

/-- A formatter that takes every source leaves it to the description whether there is a text. -/
theorem exists_generate_iff {naming : Naming} :
    (∃ text, generate { toNaming := naming, formatter := .identity } d = .ok text) ↔
      d.Generable := by
  rw [← exists_toModule_iff]
  constructor
  · rintro ⟨text, h⟩
    obtain ⟨m, hmodule, -⟩ := generate_eq_ok_iff.1 h
    exact ⟨m, hmodule⟩
  · rintro ⟨m, hmodule⟩
    exact ⟨m.render naming, generate_eq_ok_iff.2 ⟨m, hmodule, rfl⟩⟩

theorem surfaces_of_toModule (h : d.toModule = .ok m) :
    m.needsJson = d.types.hasJson ∧ d.types.surfaces d.entries = .ok m.surface := by
  obtain ⟨_, _, h⟩ := exists_of_bind_eq_ok h
  obtain ⟨surface, hsurface, h⟩ := exists_of_bind_eq_ok h
  obtain rfl := Except.ok.inj h
  exact ⟨rfl, hsurface⟩

theorem declarations_of_toModule (h : d.toModule = .ok m) :
    ∃ results, List.Forall₂ (fun p result ↦ d.types.declare p.1 p.2 = .ok result)
      d.types.entries results ∧ m.declarations = results.reduceOption := by
  obtain ⟨declarations, hemission, h⟩ := exists_of_bind_eq_ok h
  obtain ⟨surface, _, h⟩ := exists_of_bind_eq_ok h
  obtain rfl := Except.ok.inj h
  exact Registry.toExcept_emitAll_eq_ok hemission

theorem exists_declare (h : d.toModule = .ok m) {p : String × Descriptor}
    (hp : p ∈ d.types.entries) : ∃ result, d.types.declare p.1 p.2 = .ok result := by
  obtain ⟨results, hresults, -⟩ := declarations_of_toModule h
  obtain ⟨result, hpair⟩ := exists_mem_zip_left hresults.length_eq hp
  exact ⟨result, List.forall₂_zip hresults hpair⟩

theorem mem_declarations_iff (h : d.toModule = .ok m) {e : Declaration} :
    e ∈ m.declarations ↔ ∃ p ∈ d.types.entries, d.types.declare p.1 p.2 = .ok (some e) := by
  obtain ⟨results, hresults, hdeclarations⟩ := declarations_of_toModule h
  rw [hdeclarations, List.reduceOption_mem_iff]
  constructor
  · intro he
    obtain ⟨p, hpair⟩ := exists_mem_zip_right hresults.length_eq he
    exact ⟨p, (List.of_mem_zip hpair).1, List.forall₂_zip hresults hpair⟩
  · rintro ⟨p, hp, hdeclare⟩
    obtain ⟨result, hpair⟩ := exists_mem_zip_left hresults.length_eq hp
    obtain rfl := Except.ok.inj (hdeclare.symm.trans (List.forall₂_zip hresults hpair))
    exact (List.of_mem_zip hpair).2

theorem names_of_toModule (h : d.toModule = .ok m) (naming : Naming) :
    m.declarations.map (·.name naming) =
      d.types.entries.filterMap fun p ↦ p.2.declaredName? naming p.1 := by
  obtain ⟨results, hresults, hdeclarations⟩ := declarations_of_toModule h
  rw [hdeclarations]
  refine Registry.map_reduceOption_of_forall₂ hresults fun p result hdeclare ↦ ?_
  obtain ⟨hkind, hresult⟩ := Registry.declare_eq_ok hdeclare
  rw [Descriptor.declaredName?, ← hkind]
  cases result with
  | none => rfl
  | some e =>
      obtain ⟨hid, hname, _⟩ := hresult e rfl
      simp [Declaration.name, hid, hname]

/-- What is declared under an id is what the type that is registered there is declared as. -/
theorem mem_declarations_and_id_iff (h : d.toModule = .ok m) {x : String} {e : Descriptor}
    (he : d.types.get? x = some e) {declaration : Declaration} :
    declaration ∈ m.declarations ∧ declaration.id = x ↔
      d.types.declare x e = .ok (some declaration) := by
  rw [mem_declarations_iff h]
  constructor
  · rintro ⟨⟨⟨y, e'⟩, hp, hdeclare⟩, hid⟩
    obtain rfl : y = x := ((Registry.declare_eq_ok hdeclare).2 _ rfl).1.symm.trans hid
    obtain rfl := Option.some.inj (he.symm.trans (Table.get?_eq_some_iff.2 hp))
    exact hdeclare
  · intro hdeclare
    exact ⟨⟨_, Table.get?_eq_some_iff.1 he, hdeclare⟩,
      ((Registry.declare_eq_ok hdeclare).2 _ rfl).1⟩

end Description

end Typings
