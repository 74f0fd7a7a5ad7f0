import Typings.Proofs.KindDefinitions
import Typings.Proofs.RegistryOrder

/-!
# Derived kinds

A kind that is defined on top of others counts as the built-in kind at the bottom of them, wherever
a type of it stands and whatever fields were added on the way. So such a type can give way to one of
the built-in kind with the same name, documentation and body, and neither the text that is generated
nor the fault changes.
-/

namespace Typings

/-! ## Descent -/

namespace Kind

variable {b : Builtin} {k : Kind}

/-- The names of all fields of a kind. -/
def fieldNames (k : Kind) : List String := CommonField.all.map CommonField.key ++ k.ownFields

/-- A kind descends from a built-in one through any number of definitions on top of each other, each
of which adds fields under other names than those of its parent. -/
inductive DescendsFrom (b : Builtin) : Kind → Prop
  | builtin : DescendsFrom b (ofBuiltin b)
  | derived {parent : Kind} {d : KindDefinition} (h : DescendsFrom b parent)
      (hparent : d.parent = some parent)
      (hfields : ∀ field ∈ d.fields, field ∉ parent.fieldNames) : DescendsFrom b d.kind

theorem addField_base (k : Kind) (field : String) : (k.addField field).base = k.base := by
  rw [addField]
  split <;> split <;> rfl

theorem foldl_addField_base (fields : List String) (k : Kind) :
    (fields.foldl addField k).base = k.base := by
  induction fields generalizing k with
  | nil => rfl
  | cons field fields ih => exact (ih _).trans (addField_base k field)

theorem DescendsFrom.base (h : k.DescendsFrom b) : k.base = some b := by
  induction h with
  | builtin => rfl
  | @derived parent d _ hparent _ ih =>
      rw [KindDefinition.kind, foldl_addField_base, hparent]
      exact ih

/-- No definition on the way opens a common field. -/
theorem DescendsFrom.opened (h : k.DescendsFrom b) : k.opened = [] := by
  induction h with
  | builtin => rfl
  | @derived parent d _ hparent hfields ih =>
      have hclosed : ∀ field ∈ d.fields, CommonField.ofKey? field = none := by
        intro field hfield
        apply CommonField.ofKey?_eq_none
        intro hkey
        exact hfields field hfield (List.mem_append_left _ hkey)
      rw [KindDefinition.kind, (foldl_addField_closed hclosed _).2, hparent]
      exact ih

end Kind

/-! ## The ancestral form of a type -/

theorem Value.ofText_injective : Function.Injective Value.ofText := by
  intro s t h
  cases s with
  | none =>
      cases t with
      | none => rfl
      | some t => cases h
  | some s =>
      cases t with
      | none => cases h
      | some t => exact congrArg some (Value.str.inj h)

theorem Body.eq_of_slot? {b c : Body} (hbuiltin : b.builtin? = c.builtin?)
    (hslot : b.slot? = c.slot?) : b = c := by
  cases b <;> cases c <;> simp_all [Body.builtin?, Body.slot?]

namespace Descriptor

variable {d e : Descriptor} {b : Builtin} {kind : Kind}

/-- A descriptor of the built-in kind from which the kind of another one descends, with the same
values of the fields that are inherited from it. -/
structure IsAncestralOf (d e : Descriptor) : Prop where
  kinds : ∃ b kind, kind.DescendsFrom b ∧ d.IsOf kind ∧ e.IsOf (.ofBuiltin b)
  common : ∀ f, e.common f = d.common f
  own : e.body.slot? = d.body.slot?

/-- Each type of a kind that descends from a built-in one has an ancestral form. -/
theorem isAncestralOf_ofBody (hkind : kind.DescendsFrom b) (h : d.IsOf kind) :
    d.IsAncestralOf (ofBody b d.name d.note d.body) where
  kinds := by
    refine ⟨b, kind, hkind, h, ?_⟩
    have hinhabited : (Kind.ofBuiltin b).isInhabited = true := rfl
    exact ⟨hinhabited, rfl, rfl, h.builtin.trans hkind.base, rfl, rfl⟩
  common f := by
    rw [common_of_closed (h.opened_eq_nil hkind.opened), common_of_closed rfl]
    cases f with
    | _ => rfl
  own := rfl

theorem IsAncestralOf.body_eq (h : d.IsAncestralOf e) : e.body = d.body := by
  obtain ⟨b, kind, hkind, hd, he⟩ := h.kinds
  apply Body.eq_of_slot? _ h.own
  rw [he.builtin, hd.builtin, hkind.base]
  rfl

theorem IsAncestralOf.commonText_eq (h : d.IsAncestralOf e) : e.commonText = d.commonText := by
  obtain ⟨b, kind, hkind, hd, he⟩ := h.kinds
  have hd := hd.opened_eq_nil hkind.opened
  have he := he.opened_eq_nil rfl
  funext f
  apply Value.ofText_injective
  rw [← common_of_closed hd, ← common_of_closed he]
  exact h.common f

theorem IsAncestralOf.renamed (h : d.IsAncestralOf e) : d.Renamed id e where
  name := by rw [nameValue, h.common, nameValue]
  note := by
    have hdescription := congrFun h.commonText_eq .description
    have hdeprecated := congrFun h.commonText_eq .deprecated
    exact congrArg₂ Note.mk hdescription hdeprecated
  body := by
    rw [h.body_eq]
    exact d.body.renamed_self

/-- What descends from a built-in kind has a body of that kind. -/
theorem IsAncestralOf.body_ne_bare (h : d.IsAncestralOf e) : d.body ≠ .bare := by
  obtain ⟨b, kind, hkind, hd, -⟩ := h.kinds
  intro hbare
  have hbuiltin := hd.builtin
  rw [hbare, hkind.base] at hbuiltin
  cases hbuiltin

end Descriptor

/-! ## Descriptions -/

mutual

theorem Entry.renamed_self (e : Entry) : e.Renamed id e := by
  match e with
  | .endpoint e => exact .endpoint rfl rfl rfl
  | .branch children => exact .branch (renamedLevel_self children)
  | .foreign x => exact .foreign x

theorem renamedLevel_self (es : List (String × Entry)) : RenamedLevel id es es := by
  match es with
  | [] => exact .nil
  | (key, e) :: rest => exact .cons key e.renamed_self (renamedLevel_self rest)

end

/-- A type that is the same as another one or its ancestral form. -/
def Descriptor.MayBecome (d e : Descriptor) : Prop := e = d ∨ d.IsAncestralOf e

/-- A description in which any types of derived kinds have given way to their ancestral forms. -/
structure Description.MayBecome (d d' : Description) : Prop where
  types : List.Forall₂ (fun p q ↦ q.1 = p.1 ∧ p.2.MayBecome q.2) d.types.entries d'.types.entries
  entries : d'.entries = d.entries

namespace Descriptor.MayBecome

variable {d e : Descriptor}

theorem renamed (h : d.MayBecome e) : d.Renamed id e := by
  rcases h with rfl | h
  · exact e.renamed_self
  · exact h.renamed

theorem eq_of_bare (hbody : d.body = .bare) (h : d.MayBecome e) : d = e := by
  rcases h with rfl | h
  · rfl
  · exact absurd hbody h.body_ne_bare

end Descriptor.MayBecome

theorem Description.MayBecome.related {d d' : Description} (h : d.MayBecome d') :
    d.Related id Descriptor.MayBecome d' where
  types := h.types
  fixed _ _ _ _ := rfl
  entries := by
    rw [h.entries]
    exact renamedLevel_self d.entries

/-- Types of derived kinds generate what their ancestral forms do: the same text or the same
error. -/
theorem generate_of_mayBecome {d d' : Description} (h : d.MayBecome d') (options : Options) :
    generate options d' = generate options d := by
  have hagree := h.related.agree_generate Function.injective_id (fun _ _ hde ↦ hde.renamed) options
  have herror (e e' : GenerationError) (he : e.Renamed id Descriptor.MayBecome e') : e = e' :=
    he.eq fun _ _ ↦ Descriptor.MayBecome.eq_of_bare
  exact (hagree.eq herror).symm

/-! ## An example -/

namespace Catalog

/-- A kind of lists with a field that is named like the one of field sets. -/
def paged : KindDefinition := onTop "PagedType" none (.ofBuiltin (.wrapper .list)) ["fields"]

def localized : KindDefinition :=
  onTop "LocalizedType" none (.ofBuiltin (.primitive .string)) ["locale"]

/-- A kind on top of one that is itself derived. -/
def title : KindDefinition := onTop "TitleType" none localized.kind ["length", "value"]

def entity : KindDefinition := onTop "Entity" none (.ofBuiltin (.fieldSet .struct)) ["table"]

end Catalog

/-- A descriptor of a kind that opens no common field, without documentation. -/
def Kind.descriptor (kind : Kind) (name : Option String) (body : Body)
    (extras : List (String × Extra)) : Descriptor :=
  { tag := kind.tag, label := kind.label, name, note := .none, opened := [], body, extras }

open Catalog in
/-- The same pages, three of their types being of derived kinds. -/
def derivedPages : Description where
  types := Table.ofList
    [("1", paged.kind.descriptor none (.wrapper .list (.str "2")) [("fields", .fields .empty)]),
      ("2", title.kind.descriptor none (.primitive .string)
        [("locale", .value .null), ("length", .value (.int 80)), ("value", .value (.str ""))]),
      ("3", entity.kind.descriptor (some "Page")
        (.fieldSet .struct (Table.ofList [("items", ⟨.str "1", .none⟩)]))
        [("table", .value (.str "pages"))]),
      ("4", .ofBody (.fieldSet .object) none .none
        (.fieldSet .object (Table.ofList [("page", ⟨.int 3, .none⟩)])))]
  entries := pages.entries

open Catalog in
theorem generate_derivedPages : derivedPages.MayBecome pages ∧
    ∃ text, generate { formatter := .identity } pages = .ok text ∧
      generate { formatter := .identity } derivedPages = .ok text := by
  have hpaged : paged.kind.DescendsFrom (.wrapper .list) := .derived .builtin rfl (by decide)
  have hlocalized : localized.kind.DescendsFrom (.primitive .string) :=
    .derived .builtin rfl (by decide)
  have htitle : title.kind.DescendsFrom (.primitive .string) := .derived hlocalized rfl (by decide)
  have hentity : entity.kind.DescendsFrom (.fieldSet .struct) := .derived .builtin rfl (by decide)
  have hpages : derivedPages.MayBecome pages := by
    refine ⟨?_, rfl⟩
    refine .cons ⟨rfl, .inr ?_⟩ (.cons ⟨rfl, .inr ?_⟩ (.cons ⟨rfl, .inr ?_⟩ ?_))
    · exact Descriptor.isAncestralOf_ofBody hpaged ⟨rfl, rfl, rfl, rfl, rfl, rfl⟩
    · exact Descriptor.isAncestralOf_ofBody htitle ⟨rfl, rfl, rfl, rfl, rfl, rfl⟩
    · exact Descriptor.isAncestralOf_ofBody hentity ⟨rfl, rfl, rfl, rfl, rfl, rfl⟩
    · exact .cons ⟨rfl, .inl rfl⟩ .nil
  obtain ⟨text, htext⟩ := Description.exists_generate_iff.2 pages_generable
  have hsame := generate_of_mayBecome hpages { formatter := .identity }
  exact ⟨hpages, text, htext, hsame ▸ htext⟩

end Typings
