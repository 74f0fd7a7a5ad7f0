import Typings.Proofs.PlainData
import Typings.Proofs.RenamedIds

/-!
# Descriptions without documentation

What a description says about its types, fields and endpoints goes into the module as it is, and has
no part in how types are expanded, declared or refused. So a description without it generates the
same module without it.
-/

namespace Typings

/-! ## Leaving the documentation out -/

def Field.uncommented (f : Field) : Field := { f with note := .none }

def Body.uncommented : Body → Body
  | .fieldSet f fields => .fieldSet f (fields.map Field.uncommented)
  | b => b

def Extra.uncommented : Extra → Extra
  | .fields table => .fields (table.map Field.uncommented)
  | x => x

/-- The same type without its note. The name is the one common field that says something else. -/
def Descriptor.uncommented (d : Descriptor) : Descriptor :=
  { d with
    note := .none
    opened := d.opened.filter fun p ↦ p.1 = .name
    body := d.body.uncommented
    extras := d.extras.map fun p ↦ (p.1, p.2.uncommented) }

def Registry.uncommented (r : Registry) : Registry := r.map Descriptor.uncommented

def Endpoint.uncommented (e : Endpoint) : Endpoint := { e with note := .none }

mutual

def Entry.uncommented : Entry → Entry
  | .endpoint e => .endpoint e.uncommented
  | .branch children => .branch (uncommentedLevel children)
  | .foreign x => .foreign x

def uncommentedLevel : List (String × Entry) → List (String × Entry)
  | [] => []
  | (key, e) :: rest => (key, e.uncommented) :: uncommentedLevel rest

end

def Description.uncommented (d : Description) : Description :=
  { types := d.types.uncommented, entries := uncommentedLevel d.entries }

def Member.uncommented (m : Member) : Member := { m with note := .none }

def Declaration.uncommented (d : Declaration) : Declaration :=
  { d with members := d.members.map Member.uncommented, note := .none }

mutual

def Surface.uncommented : Surface → Surface
  | .endpoint signature _ => .endpoint signature .none
  | .branch members => .branch (uncommentedMembers members)

def uncommentedMembers : List (String × Surface) → List (String × Surface)
  | [] => []
  | (key, s) :: rest => (key, s.uncommented) :: uncommentedMembers rest

end

def Module.uncommented (m : Module) : Module :=
  { m with
    declarations := m.declarations.map Declaration.uncommented
    surface := uncommentedMembers m.surface }

def Fault.uncommented : Fault → Fault
  | .unsupportedField d => .unsupportedField d.uncommented
  | .unsupportedDeclaration d => .unsupportedDeclaration d.uncommented
  | f => f

def GenerationError.uncommented : GenerationError → GenerationError
  | .fault f => .fault f.uncommented
  | .format e => .format e

/-! ## Types -/

/-- The type is the other one without its documentation. -/
def Descriptor.IsUncommentedOf (d e : Descriptor) : Prop := e = d.uncommented

theorem Assoc.find?_filter {κ ν : Type} [DecidableEq κ] (k : κ) (table : List (κ × ν)) :
    find? k (table.filter fun p ↦ p.1 = k) = find? k table := by
  induction table with
  | nil => rfl
  | cons p rest ih =>
      rw [List.filter_cons]
      by_cases hk : p.1 = k
      · simp [hk, find?]
      · simp [hk, find?, ih]

theorem Descriptor.nameValue_uncommented (d : Descriptor) :
    d.uncommented.nameValue = d.nameValue := by
  have hcommon : d.uncommented.common .name = d.common .name := by
    rw [common, common, uncommented]
    dsimp only
    rw [Assoc.find?_filter]
  rw [nameValue, nameValue, hcommon]

theorem Body.alike_uncommented (b : Body) : b.Alike id b.uncommented := by
  cases b with
  | primitive p => exact .primitive p
  | literal v => exact .literal v
  | wrapper w item => exact .wrapper w rfl
  | junction j items => exact .junction j (List.forall₂_same.2 fun _ _ ↦ rfl)
  | fieldSet f fields => exact .fieldSet f f _ _
  | bare => exact .bare

theorem Descriptor.IsUncommentedOf.alike {d e : Descriptor} (h : d.IsUncommentedOf e) :
    d.Alike id e := by
  rw [h]
  exact ⟨d.nameValue_uncommented, d.body.alike_uncommented⟩

theorem Fault.Renamed.eq_uncommented {f g : Fault}
    (h : Fault.Renamed id Descriptor.IsUncommentedOf f g) : g = f.uncommented := by
  cases h with
  | unsupportedField _ hde | unsupportedDeclaration _ hde => rw [hde, Fault.uncommented]
  | cyclic path =>
      rw [List.map_id]
      rfl
  | _ => rfl

/-! ## Modules -/

namespace Registry

variable {r r' : Registry}

theorem forall₂_uncommented (r : Registry) :
    List.Forall₂ (fun p q ↦ q.1 = id p.1 ∧ p.2.IsUncommentedOf q.2) r.entries
      r.uncommented.entries := by
  rw [uncommented, Table.map, List.forall₂_map_right_iff, List.forall₂_same]
  exact fun p _ ↦ ⟨rfl, rfl⟩

theorem expandAlike_uncommented (r : Registry) :
    ExpandAlike id Descriptor.IsUncommentedOf r r.uncommented :=
  agree_expand Function.injective_id (fun _ _ h ↦ h.alike)
    (linked_of_forall₂ Function.injective_id r.forall₂_uncommented fun _ _ _ _ ↦ rfl)

theorem hasJson_uncommented (r : Registry) : r.uncommented.hasJson = r.hasJson := by
  have hjson (d : Descriptor) : d.uncommented.isJson = d.isJson :=
    Descriptor.Alike.isJson (Descriptor.IsUncommentedOf.alike (d := d) rfl)
  rw [hasJson, hasJson, Table.values, Table.values, uncommented, Table.map, List.map_map,
    List.any_map, List.any_map]
  congr 1
  funext p
  exact hjson p.2

theorem agree_member_uncommented (hexpand : ExpandAlike id Descriptor.IsUncommentedOf r r')
    (p : String × Field) :
    Agree (Fault.Renamed id Descriptor.IsUncommentedOf) (fun m m' ↦ m' = m.uncommented)
      (do return (⟨p.1, ← r.expand p.2.typeId, p.2.note⟩ : Member))
      (do return (⟨p.1, ← r'.expand p.2.typeId, .none⟩ : Member)) := by
  refine (hexpand rfl).bind ?_
  rintro t _ rfl
  exact .ok rfl

theorem agree_declare_uncommented (hexpand : ExpandAlike id Descriptor.IsUncommentedOf r r')
    (x : String) (d : Descriptor) :
    Agree (Fault.Renamed id Descriptor.IsUncommentedOf)
      (Option.Rel fun e e' ↦ e' = e.uncommented) (r.declare x d) (r'.declare x d.uncommented) := by
  have halike : d.Alike id d.uncommented := Descriptor.IsUncommentedOf.alike rfl
  have hbare : d.IsUncommentedOf d.uncommented := rfl
  have hbody' : d.uncommented.body = d.body.uncommented := rfl
  rw [declare, declare, halike.displayName, hbody']
  cases hbody : d.body with
  | fieldSet f fields =>
      dsimp only [Body.uncommented]
      rw [Table.map, List.mapM_map]
      refine (Agree.mapM (List.forall₂_same.2 fun p _ ↦ agree_member_uncommented hexpand p)).bind ?_
      intro members members' h
      have hmembers : members' = members.map Member.uncommented := by
        rw [← List.forall₂_eq_eq_eq, List.forall₂_map_right_iff]
        exact h.flip
      rw [hmembers]
      exact .ok (.some rfl)
  | bare => exact .error (.unsupportedDeclaration hbody hbare)
  | _ => exact .ok .none

mutual

theorem agree_surface_uncommented (hexpand : ExpandAlike id Descriptor.IsUncommentedOf r r')
    (e : Entry) :
    Agree (Fault.Renamed id Descriptor.IsUncommentedOf) (fun s s' ↦ s' = s.uncommented)
      (r.surface e) (r'.surface e.uncommented) := by
  match e with
  | .endpoint e =>
      rw [Entry.uncommented, surface, surface]
      refine (agree_signature hexpand rfl rfl).bind ?_
      rintro signature _ rfl
      exact .ok rfl
  | .branch children =>
      rw [Entry.uncommented, surface, surface]
      refine (agree_surfaces_uncommented hexpand children).bind ?_
      rintro members _ rfl
      exact .ok rfl
  | .foreign x =>
      rw [Entry.uncommented, surface, surface]
      exact .error (.unsupportedEntry x)

theorem agree_surfaces_uncommented (hexpand : ExpandAlike id Descriptor.IsUncommentedOf r r')
    (es : List (String × Entry)) :
    Agree (Fault.Renamed id Descriptor.IsUncommentedOf) (fun ss ss' ↦ ss' = uncommentedMembers ss)
      (r.surfaces es) (r'.surfaces (uncommentedLevel es)) := by
  match es with
  | [] =>
      rw [uncommentedLevel, surfaces, surfaces]
      exact .ok rfl
  | (key, e) :: rest =>
      rw [uncommentedLevel, surfaces, surfaces]
      refine (agree_surface_uncommented hexpand e).bind ?_
      rintro s _ rfl
      refine (agree_surfaces_uncommented hexpand rest).bind ?_
      rintro members _ rfl
      exact .ok rfl

end

end Registry

/-- A description without its documentation gives the same module without it, or the same fault. -/
theorem Description.agree_toModule_uncommented (d : Description) :
    Agree (fun f f' ↦ f' = f.uncommented) (fun m m' ↦ m' = m.uncommented) d.toModule
      d.uncommented.toModule := by
  have hexpand : Registry.ExpandAlike id Descriptor.IsUncommentedOf d.types d.types.uncommented :=
    d.types.expandAlike_uncommented
  have hdeclarations : Agree (Fault.Renamed id Descriptor.IsUncommentedOf)
      (List.Forall₂ fun e e' ↦ e' = e.uncommented) (d.types.emitAll .empty).toExcept
      (d.types.uncommented.emitAll .empty).toExcept := by
    refine Registry.agree_emitList .empty d.types.forall₂_uncommented ?_ ?_
    · rintro p q ⟨hid, hq⟩
      rw [hid, hq]
      exact Registry.agree_declare_uncommented hexpand p.1 p.2
    · rintro p q ⟨-, h⟩
      exact h.alike.claim?
  have hmodule : Agree (Fault.Renamed id Descriptor.IsUncommentedOf)
      (fun m m' ↦ m' = m.uncommented) d.toModule d.uncommented.toModule := by
    rw [toModule, toModule]
    refine hdeclarations.bind fun declarations declarations' h ↦ ?_
    refine (Registry.agree_surfaces_uncommented hexpand d.entries).bind ?_
    rintro surface _ rfl
    have hlist : declarations' = declarations.map Declaration.uncommented := by
      rw [← List.forall₂_eq_eq_eq, List.forall₂_map_right_iff]
      exact h.flip
    have hjson : d.uncommented.types.hasJson = d.types.hasJson := d.types.hasJson_uncommented
    rw [hlist, hjson]
    exact .ok rfl
  exact hmodule.imp (fun _ _ h ↦ h.eq_uncommented) fun _ _ h ↦ h

end Typings
