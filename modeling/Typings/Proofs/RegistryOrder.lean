import Typings.Proofs.DeclaredNames
import Typings.Proofs.References
import Typings.Proofs.RenamedIds

/-!
# The order of the registry

The order in which types are registered is seen in the order of the declarations, and nowhere else.
It may also decide which fault is met first, but not whether there is one.
-/

namespace Typings

theorem Table.get?_of_perm {ν : Type} {t u : Table ν} (h : t.entries.Perm u.entries) (k : String) :
    t.get? k = u.get? k := by
  apply Option.ext
  intro v
  rw [get?_eq_some_iff, get?_eq_some_iff, h.mem_iff]

theorem Body.renamed_self (b : Body) : b.Renamed id b := by
  cases b with
  | primitive p => exact .primitive p
  | literal v => exact .literal v
  | wrapper w item => exact .wrapper w rfl
  | junction j items => exact .junction j (List.forall₂_same.2 fun item _ ↦ rfl)
  | fieldSet f fields => exact .fieldSet f (List.forall₂_same.2 fun p _ ↦ ⟨rfl, rfl, rfl⟩)
  | bare => exact .bare

theorem Descriptor.renamed_self (d : Descriptor) : d.Renamed id d := ⟨rfl, rfl, d.body.renamed_self⟩

namespace Registry

variable {r r' : Registry}

/-- An expansion depends on the types that it looks up, and on nothing else. -/
theorem expand_eq_of_seen {x : TypeId}
    (h : ∀ y, r.LooksUp [] x.text y → r.get? y = r'.get? y) : r.expand x = r'.expand x := by
  have hself : ∀ d e : Descriptor, d = e → d.Alike id e := by
    rintro d _ rfl
    exact d.renamed_self.alike
  have hlinked : ∀ y, r.LooksUp [] x.text y → Linked id Eq r r' y := by
    intro y hy
    cases hd : r.get? y with
    | none => exact .missing hd ((h y hy).symm.trans hd)
    | some d => exact .registered hd ((h y hy).symm.trans hd) rfl fun _ _ ↦ rfl
  apply (agree_expandFrom Function.injective_id hself hlinked).eq
  intro f g hfg
  exact hfg.eq fun _ _ _ hde ↦ hde

theorem expand_eq_of_perm (h : r.entries.Perm r'.entries) : r.expand = r'.expand := by
  funext x
  exact expand_eq_of_seen fun y _ ↦ Table.get?_of_perm h y

theorem declare_congr {d : Descriptor} (h : ∀ x ∈ d.body.references, r.expand x = r'.expand x)
    (id : String) : r.declare id d = r'.declare id d := by
  rw [declare, declare]
  cases hbody : d.body with
  | fieldSet f fields =>
      rw [hbody] at h
      dsimp only
      rw [mapM_congr fun p hp ↦ ?_]
      rw [h p.2.typeId (List.mem_map_of_mem hp)]
  | _ => rfl

mutual

theorem surface_congr {e : Entry}
    (h : ∀ x ∈ e.endpoints.flatMap fun e ↦ [e.input, e.output], r.expand x = r'.expand x) :
    r.surface e = r'.surface e := by
  match e with
  | .endpoint e =>
      rw [surface, surface, signature, signature, h e.input (by simp [Entry.endpoints]),
        h e.output (by simp [Entry.endpoints])]
  | .branch children => rw [surface, surface, surfaces_congr h]
  | .foreign x => rw [surface, surface]

theorem surfaces_congr {es : List (String × Entry)}
    (h : ∀ x ∈ (levelEndpoints es).flatMap fun e ↦ [e.input, e.output],
      r.expand x = r'.expand x) : r.surfaces es = r'.surfaces es := by
  match es with
  | [] => rw [surfaces, surfaces]
  | (key, e) :: rest =>
      rw [levelEndpoints, List.flatMap_append, List.forall_mem_append] at h
      rw [surfaces, surfaces, surface_congr h.1, surfaces_congr h.2]

end

/-- The types that are declared, in order. -/
def fieldSets (r : Registry) : List (String × Descriptor) :=
  r.entries.filter fun p ↦ p.2.body.isFieldSet

/-- The text that a type is declared by; nothing if it is not. -/
def declaredText (r : Registry) (naming : Naming) (p : String × Descriptor) : String :=
  match r.declare p.1 p.2 with
  | .ok (some declaration) => declaration.render naming
  | _ => ""

theorem render_declarations (naming : Naming) {ds : List (String × Descriptor)}
    {results : List (Option Declaration)}
    (h : List.Forall₂ (fun p result ↦ r.declare p.1 p.2 = .ok result) ds results) :
    results.reduceOption.map (Declaration.render naming) =
      (ds.filter fun p ↦ p.2.body.isFieldSet).map (r.declaredText naming) := by
  induction h with
  | nil => rfl
  | @cons p result ds results hdeclare _ ih =>
      have hkind := (declare_eq_ok hdeclare).1
      rw [List.filter_cons, ← hkind]
      cases result with
      | none => exact ih
      | some declaration =>
          rw [List.reduceOption_cons_of_some, List.map_cons, ih]
          have htext : r.declaredText naming p = declaration.render naming := by
            rw [declaredText, hdeclare]
          rw [← htext]
          rfl

end Registry

namespace Description

variable {d d' : Description}

theorem Generable.of_perm (h : d.Generable) (htypes : d.types.entries.Perm d'.types.entries)
    (hentries : d'.entries = d.entries) : d'.Generable := by
  have hresolves (x : TypeId) (hx : d.types.Resolves x) : d'.types.Resolves x := by
    rw [Registry.Resolves, ← Registry.expand_eq_of_perm htypes]
    exact hx
  refine ⟨?_, ?_, ?_, ?_, ?_⟩
  · intro p hp
    exact h.declarable p (htypes.mem_iff.2 hp)
  · intro p hp x hx
    exact hresolves x (h.fields p (htypes.mem_iff.2 hp) x hx)
  · intro p hp q hq
    exact h.names p (htypes.mem_iff.2 hp) q (htypes.mem_iff.2 hq)
  · rw [hentries]
    exact h.entries
  · rw [hentries]
    intro e he
    exact (h.endpoints e he).imp (hresolves _) (hresolves _)

theorem declaredText_of_generable (h : d.Generable) {p : String × Descriptor}
    (hp : p ∈ d.types.fieldSets) (naming : Naming) :
    ∃ e, d.types.declare p.1 p.2 = .ok (some e) ∧
      d.types.declaredText naming p = e.render naming := by
  obtain ⟨hp, hkind⟩ := List.mem_filter.1 hp
  obtain ⟨m, hmodule⟩ := exists_toModule_iff.2 h
  obtain ⟨result, hdeclare⟩ := exists_declare hmodule hp
  rw [← (Registry.declare_eq_ok hdeclare).1] at hkind
  obtain ⟨e, rfl⟩ := Option.isSome_iff_exists.1 hkind
  refine ⟨e, hdeclare, ?_⟩
  rw [Registry.declaredText, hdeclare]

theorem exists_surface_of_generate {naming : Naming} {text : String}
    (h : generate { toNaming := naming, formatter := .identity } d = .ok text) :
    ∃ surface, d.types.surfaces d.entries = .ok surface ∧
      text = "\n\n".intercalate ((if d.types.hasJson then [naming.jsonAlias] else []) ++
        d.types.fieldSets.map (d.types.declaredText naming) ++
        ["export type " ++ naming.apiTypeName ++ " = " ++ Surface.renderTree naming surface]) := by
  obtain ⟨m, hmodule, htext⟩ := generate_eq_ok_iff.1 h
  obtain ⟨hjson, hsurface⟩ := surfaces_of_toModule hmodule
  obtain ⟨results, hresults, hdeclarations⟩ := declarations_of_toModule hmodule
  refine ⟨m.surface, hsurface, ?_⟩
  rw [← hjson, Registry.fieldSets, ← Registry.render_declarations naming hresults, ← hdeclarations]
  exact (Except.ok.inj htext).symm

end Description

/-- Whether there is a module does not depend on the order of the registry. If there is one, its
parts do not either: the declarations, each with its own text, are put in the order of their
types. -/
theorem generate_perm (naming : Naming) {d d' : Description}
    (htypes : d.types.entries.Perm d'.types.entries) (hentries : d'.entries = d.entries) :
    ((∃ text, generate { toNaming := naming, formatter := .identity } d = .ok text) ↔
        ∃ text, generate { toNaming := naming, formatter := .identity } d' = .ok text) ∧
      ∀ text text', generate { toNaming := naming, formatter := .identity } d = .ok text →
        generate { toNaming := naming, formatter := .identity } d' = .ok text' →
        ∃ jsonPart declared surface,
          jsonPart = (if d.types.hasJson then [naming.jsonAlias] else []) ∧
          (∀ p ∈ d.types.fieldSets, ∃ e, d.types.declare p.1 p.2 = .ok (some e) ∧
            declared p = e.render naming) ∧
          d.types.surfaces d.entries = .ok surface ∧
          d.types.fieldSets.Perm d'.types.fieldSets ∧
          text = "\n\n".intercalate (jsonPart ++ d.types.fieldSets.map declared ++
            ["export type " ++ naming.apiTypeName ++ " = " ++ Surface.renderTree naming surface]) ∧
          text' = "\n\n".intercalate (jsonPart ++ d'.types.fieldSets.map declared ++
            ["export type " ++ naming.apiTypeName ++ " = " ++
              Surface.renderTree naming surface]) := by
  have hexpand := Registry.expand_eq_of_perm htypes
  refine ⟨?_, fun text text' h h' ↦ ?_⟩
  · rw [Description.exists_generate_iff, Description.exists_generate_iff]
    exact ⟨fun h ↦ h.of_perm htypes hentries, fun h ↦ h.of_perm htypes.symm hentries.symm⟩
  · have hgenerable : d.Generable := Description.exists_generate_iff.1 ⟨text, h⟩
    obtain ⟨surface, hsurface, htext⟩ := Description.exists_surface_of_generate h
    obtain ⟨surface', hsurface', htext'⟩ := Description.exists_surface_of_generate h'
    have hdeclared : d'.types.declaredText naming = d.types.declaredText naming := by
      funext p
      rw [Registry.declaredText, Registry.declaredText,
        Registry.declare_congr fun x _ ↦ congrFun hexpand x]
    have hjson : d'.types.hasJson = d.types.hasJson := (htypes.map Prod.snd).symm.any_eq
    obtain rfl : surface' = surface := by
      rw [hentries, ← Registry.surfaces_congr fun x _ ↦ congrFun hexpand x, hsurface] at hsurface'
      exact (Except.ok.inj hsurface').symm
    rw [hdeclared, hjson] at htext'
    exact ⟨_, d.types.declaredText naming, surface', rfl,
      fun p hp ↦ Description.declaredText_of_generable hgenerable hp naming, hsurface,
      htypes.filter _, htext, htext'⟩

/-- The same description with its types in the opposite order. -/
def Description.reversed (d : Description) : Description where
  types :=
    { entries := d.types.entries.reverse
      nodup_keys := by
        rw [List.map_reverse, List.nodup_reverse]
        exact d.types.nodup_keys }
  entries := d.entries

theorem pages_generate_reversed :
    ∃ text text' declared surface, generate { formatter := .identity } pages = .ok text ∧
      generate { formatter := .identity } pages.reversed = .ok text' ∧
      text = "\n\n".intercalate
        (pages.types.fieldSets.map declared ++ ["export type __API__ = " ++ surface]) ∧
      text' = "\n\n".intercalate
        (pages.types.fieldSets.reverse.map declared ++ ["export type __API__ = " ++ surface]) := by
  have hperm : pages.types.entries.Perm pages.reversed.types.entries :=
    (List.reverse_perm pages.types.entries).symm
  obtain ⟨hiff, htexts⟩ := generate_perm {} hperm rfl
  obtain ⟨text, h⟩ := Description.exists_generate_iff.2 pages_generable
  obtain ⟨text', h'⟩ := hiff.1 ⟨text, h⟩
  obtain ⟨_, declared, surface, rfl, -, -, -, htext, htext'⟩ := htexts text text' h h'
  have hreverse : pages.reversed.types.fieldSets = pages.types.fieldSets.reverse :=
    List.filter_reverse
  rw [hreverse] at htext'
  exact ⟨text, text', declared, _, h, h', htext, htext'⟩

end Typings
