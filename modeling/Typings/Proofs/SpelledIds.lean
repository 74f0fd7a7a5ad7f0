import Typings.Proofs.PlainData
import Typings.Proofs.RenamedIds

/-!
# How ids are spelled

A type is looked up by the text of an id. So whether the ids that refer to types are texts, numbers
or truth values cannot be told from what is generated, nor from how the generation fails: putting
the text in the place of an id is a renaming under which every id keeps its name.
-/

namespace Typings

theorem TypeId.renamed_normal (x : TypeId) : TypeId.Renamed id x x.normal := rfl

theorem Body.renamed_normal (b : Body) : b.Renamed id b.normal := by
  cases b with
  | primitive p => exact .primitive p
  | literal v => exact .literal v
  | wrapper w item => exact .wrapper w item.renamed_normal
  | junction j items =>
      apply Body.Renamed.junction
      rw [List.forall₂_map_right_iff, List.forall₂_same]
      exact fun item _ ↦ item.renamed_normal
  | fieldSet f fields =>
      apply Body.Renamed.fieldSet
      rw [Table.map, List.forall₂_map_right_iff, List.forall₂_same]
      exact fun p _ ↦ ⟨rfl, p.2.typeId.renamed_normal, rfl⟩
  | bare => exact .bare

/-- The type is the normal form of the other one. -/
def Descriptor.IsNormalOf (d e : Descriptor) : Prop := e = d.normal

theorem Descriptor.IsNormalOf.renamed {d e : Descriptor} (h : d.IsNormalOf e) : d.Renamed id e := by
  rw [h]
  exact ⟨rfl, rfl, d.body.renamed_normal⟩

theorem Descriptor.IsNormalOf.eq_of_bare {d e : Descriptor} (h : d.IsNormalOf e)
    (hbody : d.body = .bare) : d = e := by
  rw [h, normal, hbody]
  exact congrArg (fun b ↦ { d with body := b }) hbody

mutual

theorem Entry.renamed_normal (e : Entry) : e.Renamed id e.normal := by
  match e with
  | .endpoint e =>
      rw [Entry.normal]
      exact .endpoint e.input.renamed_normal e.output.renamed_normal rfl
  | .branch children =>
      rw [Entry.normal]
      exact .branch (renamedLevel_normal children)
  | .foreign x => exact .foreign x

theorem renamedLevel_normal (es : List (String × Entry)) :
    RenamedLevel id es (normalLevel es) := by
  match es with
  | [] => exact .nil
  | (key, e) :: rest =>
      rw [normalLevel]
      exact .cons key e.renamed_normal (renamedLevel_normal rest)

end

theorem Description.related_normal (d : Description) :
    d.Related id Descriptor.IsNormalOf d.normal where
  types := by
    rw [Description.normal, Table.map, List.forall₂_map_right_iff, List.forall₂_same]
    exact fun p _ ↦ ⟨rfl, rfl⟩
  fixed _ _ _ _ := rfl
  entries := renamedLevel_normal d.entries

theorem generate_normal (options : Options) (d : Description) :
    generate options d.normal = generate options d := by
  have hagree := d.related_normal.agree_generate Function.injective_id
    (fun _ _ h ↦ h.renamed) options
  have herror (e e' : GenerationError) (h : e.Renamed id Descriptor.IsNormalOf e') : e = e' :=
    h.eq fun _ _ hbody hde ↦ hde.eq_of_bare hbody
  exact (hagree.eq herror).symm

end Typings
