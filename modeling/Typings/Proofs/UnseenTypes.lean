import Typings.Proofs.RegistryOrder

/-!
# Types that are never looked up

A type that is written in place shows only where an expansion looks its id up. So whatever else is
registered of that sort can be changed, moved, added or taken away, broken and circular types
included, and neither the module nor the fault changes. Only the alias for JSON values depends on a
type that may not be looked up.
-/

namespace Typings

namespace Registry

variable {r r' : Registry}

/-- What is looked up stays among ids that are closed under the members of their types. -/
theorem LooksUp.mem_of_closed {path ids : List String} {id x : String} (h : r.LooksUp path id x)
    (hid : id ∈ ids) (hclosed : ∀ id ∈ ids, ∀ d, r.get? id = some d →
      ∀ item ∈ d.body.members, item.text ∈ ids) : x ∈ ids := by
  induction h with
  | self path id => exact hid
  | @member path id x d item hd _ _ hitem _ ih => exact ih (hclosed id hid d hd item hitem.mem)

theorem emit_of_isInline (names : Exports) (id : String) {d : Descriptor}
    (h : d.isInline = true) : r.emit names id d = .ok (none, names) := by
  rw [Descriptor.isInline] at h
  rw [emit, declare]
  cases hbody : d.body with
  | fieldSet f fields | bare =>
      rw [hbody] at h
      cases h
  | _ => rfl

/-- Types that are written in place declare nothing, whatever they refer to. -/
theorem emitList_filter (names : Exports) (ds : List (String × Descriptor)) :
    r.emitList names (ds.filter fun p ↦ !p.2.isInline) = r.emitList names ds := by
  induction ds generalizing names with
  | nil => rfl
  | cons p rest ih =>
      rw [List.filter_cons]
      cases hinline : p.2.isInline with
      | true =>
          rw [emitList_cons_ok (emit_of_isInline names p.1 hinline)]
          exact ih names
      | false =>
          change r.emitList names (p :: rest.filter _) = _
          cases hemit : r.emit names p.1 p.2 with
          | error fault => rw [emitList_cons_error hemit, emitList_cons_error hemit]
          | ok result => rw [emitList_cons_ok hemit, emitList_cons_ok hemit, ih]

theorem emitList_congr {ds : List (String × Descriptor)}
    (h : ∀ p ∈ ds, ∀ x ∈ p.2.body.references, r.expand x = r'.expand x) (names : Exports) :
    r.emitList names ds = r'.emitList names ds := by
  induction ds generalizing names with
  | nil => rfl
  | cons p rest ih =>
      obtain ⟨hp, hrest⟩ := List.forall_mem_cons.1 h
      have hemit : r.emit names p.1 p.2 = r'.emit names p.1 p.2 := by
        rw [emit, emit, declare_congr hp]
      cases hresult : r.emit names p.1 p.2 with
      | error fault =>
          rw [emitList_cons_error hresult, emitList_cons_error (hemit ▸ hresult)]
      | ok result =>
          rw [emitList_cons_ok hresult, emitList_cons_ok (hemit ▸ hresult), ih hrest]

end Registry

namespace Description

/-- An id is looked up while some field or endpoint is expanded. -/
def LooksUp (d : Description) (x : String) : Prop :=
  ∃ root ∈ d.roots, d.types.LooksUp [] root.text x

/-- Descriptions that differ, if at all, in types that are written in place and that the first one
does not look up. -/
structure SameSeen (d d' : Description) : Prop where
  entries : d.entries = d'.entries
  declared : (d.types.entries.filter fun p ↦ !p.2.isInline) =
    d'.types.entries.filter fun p ↦ !p.2.isInline
  seen : ∀ x, d.LooksUp x → d.types.get? x = d'.types.get? x
  json : d.types.hasJson = d'.types.hasJson

variable {d d' : Description}

theorem SameSeen.expand_eq (h : d.SameSeen d') {x : TypeId} (hx : x ∈ d.roots) :
    d.types.expand x = d'.types.expand x :=
  Registry.expand_eq_of_seen fun y hy ↦ h.seen y ⟨x, hx, hy⟩

theorem SameSeen.toModule_eq (h : d.SameSeen d') : d.toModule = d'.toModule := by
  have hemit : d.types.emitAll .empty = d'.types.emitAll .empty := by
    rw [Registry.emitAll, Registry.emitAll, ← Registry.emitList_filter,
      ← Registry.emitList_filter (r := d'.types), ← h.declared]
    apply Registry.emitList_congr
    intro p hp x hx
    apply h.expand_eq
    exact List.mem_append_left _ (List.mem_flatMap.2 ⟨p, List.mem_of_mem_filter hp, hx⟩)
  have hsurfaces : d.types.surfaces d.entries = d'.types.surfaces d'.entries := by
    rw [← h.entries]
    apply Registry.surfaces_congr
    intro x hx
    exact h.expand_eq (List.mem_append_right _ hx)
  rw [toModule, toModule, hemit, hsurfaces, h.json]

end Description

/-- Types that are written in place and never looked up are dead: they influence neither the text
nor the error. -/
theorem generate_eq_of_sameSeen {d d' : Description} (h : d.SameSeen d') (options : Options) :
    generate options d = generate options d' := by
  rw [generate, generate, h.toModule_eq]

/-- Two more types, one with a member that is not registered and one that contains itself, and the
others in another order. -/
def clutteredPages : Description where
  types := Table.ofList
    [("5", .ofBody (.wrapper .nullable) none .none (.wrapper .nullable (.str "9"))),
      ("3", .ofBody (.fieldSet .struct) (some "Page") .none
        (.fieldSet .struct (Table.ofList [("items", ⟨.str "1", .none⟩)]))),
      ("2", .ofBody (.primitive .string) none .none (.primitive .string)),
      ("4", .ofBody (.fieldSet .object) none .none
        (.fieldSet .object (Table.ofList [("page", ⟨.int 3, .none⟩)]))),
      ("6", .ofBody (.wrapper .list) none .none (.wrapper .list (.str "6"))),
      ("1", .ofBody (.wrapper .list) none .none (.wrapper .list (.str "2")))]
  entries := pages.entries

theorem generate_clutteredPages :
    pages.SameSeen clutteredPages ∧ generate {} pages = generate {} clutteredPages := by
  have hclosed : ∀ id ∈ ["1", "2", "3", "4"], ∀ d, pages.types.get? id = some d →
      ∀ item ∈ d.body.members, item.text ∈ ["1", "2", "3", "4"] := by
    simp only [List.forall_mem_cons]
    refine ⟨?_, ?_, ?_, ?_, List.forall_mem_nil _⟩
    all_goals
      rintro _ ⟨⟩
      decide
  have hroots : ∀ root ∈ pages.roots, root.text ∈ ["1", "2", "3", "4"] := by
    change ∀ root ∈ [Value.str "1", .int 3, .str "4", .str "1"], _
    decide
  have hseen : pages.SameSeen clutteredPages := by
    refine ⟨rfl, rfl, ?_, rfl⟩
    rintro x ⟨root, hroot, hx⟩
    have hmem := hx.mem_of_closed (hroots root hroot) hclosed
    simp only [List.mem_cons, List.not_mem_nil, or_false] at hmem
    rcases hmem with rfl | rfl | rfl | rfl
    all_goals rfl
  exact ⟨hseen, generate_eq_of_sameSeen hseen {}⟩

end Typings
