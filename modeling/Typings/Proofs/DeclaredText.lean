import Typings.Proofs.CommentLines
import Typings.Proofs.References
import Typings.Proofs.RegistryOrder

/-!
# Types are declared by the names that mention them

A declaration takes its name from the id and the descriptor that it is made of; where a type is
referred to, its name comes from what its id expands to. The two are the same, and so every
declaration holds the fields of its type with the texts that their types have anywhere else.
-/

namespace Typings

open Comment

/-- The text that stands for a body with the comment of a note before it, if there is one. Within
the comment every line begins with a star, and none but the last ends it. -/
inductive Note.Heads (note : Note) (body : String) : String → Prop
  | bare (h : note.isEmpty = true) : Heads note body body
  | commented {lines : List String} (h : note.isEmpty = false)
      (hlines : ∀ line ∈ lines, "* ".toList <+: line.toList ∧ ¬ HoldsEnd line.toList) :
      Heads note body ("\n".intercalate (["/**"] ++ lines ++ ["*/"] ++ [body]))

theorem Note.heads_attach (note : Note) (body : String) : note.Heads body (note.attach body) := by
  cases h : note.isEmpty with
  | true =>
      rw [attach_of_isEmpty h]
      exact .bare h
  | false =>
      rw [attach, block_eq h]
      refine .commented h fun line hline ↦ ?_
      obtain ⟨spoken, hspoken, rfl⟩ := List.mem_map.1 hline
      have htext : (String.ofList ("* ".toList ++ spoken)).toList = "* ".toList ++ spoken :=
        String.toList_ofList
      rw [htext]
      refine ⟨List.prefix_append _ _, ?_⟩
      simp [holdsEnd_cons, not_holdsEnd_of_mem_spokenLines hspoken]

namespace Registry

variable {r : Registry} {naming : Naming} {declarations : List Declaration}

/-- The text of a field: its key with the text by which its type is mentioned. -/
def FieldText (r : Registry) (naming : Naming) (p : String × Field) (text : String) : Prop :=
  ∃ type, r.mention naming p.2.typeId = .ok type ∧ p.2.note.Heads (p.1 ++ ": " ++ type) text

/-- The text of a declaration: the type under an id is named as it is mentioned, exported exactly if
it has a display name, and given field by field. -/
inductive DeclaredAs (r : Registry) (naming : Naming) : String × Descriptor → String → Prop
  | mk {id : String} {d : Descriptor} {f : FieldSet} {fields : Table Field} {name text : String}
      {members : List String} (hbody : d.body = .fieldSet f fields)
      (hname : r.mention naming (.str id) = .ok name)
      (hmembers : List.Forall₂ (r.FieldText naming) fields.entries members)
      (htext : d.note.Heads ((if d.displayName.isSome then "export type " else "type ") ++ name ++
        " = " ++ bracedLines members) text) :
      DeclaredAs r naming (id, d) text

theorem fieldText_of_expand {key : String} {field : Field} {t : TypeExpr}
    (h : r.expand field.typeId = .ok t) :
    r.FieldText naming (key, field) (Member.render naming ⟨key, t, field.note⟩) :=
  ⟨t.render naming, mention_of_expand h, field.note.heads_attach _⟩

theorem declaredAs_of_declare {id : String} {d : Descriptor} {e : Declaration}
    (hd : r.get? id = some d) (h : r.declare id d = .ok (some e)) :
    r.DeclaredAs naming (id, d) (e.render naming) := by
  have hkind := (declare_eq_ok h).1
  have hname : r.mention naming (.str id) = _ := mention_of_isFieldSet hd hkind.symm
  rw [declare] at h
  split at h
  · next f fields hbody =>
    obtain ⟨members, hmembers, he⟩ := exists_of_bind_eq_ok h
    obtain rfl := Option.some.inj (Except.ok.inj he)
    refine .mk hbody hname ?_ (d.note.heads_attach _)
    rw [List.forall₂_map_right_iff]
    refine (mapM_eq_ok_iff.1 hmembers).imp fun p m hm ↦ ?_
    obtain ⟨t, ht, hmember⟩ := exists_of_bind_eq_ok hm
    obtain rfl := Except.ok.inj hmember
    exact fieldText_of_expand ht
  · cases h
  · cases h

theorem declaredAs_declaredText {results : List (Option Declaration)}
    (h : List.Forall₂ (fun p result ↦ r.declare p.1 p.2 = .ok result) r.entries results)
    {p : String × Descriptor} (hp : p ∈ r.fieldSets) :
    r.DeclaredAs naming p (r.declaredText naming p) := by
  obtain ⟨hp, hkind⟩ := List.mem_filter.1 hp
  obtain ⟨result, hpair⟩ := exists_mem_zip_left h.length_eq hp
  have hdeclare := List.forall₂_zip h hpair
  rw [← (declare_eq_ok hdeclare).1] at hkind
  obtain ⟨e, rfl⟩ := Option.isSome_iff_exists.1 hkind
  rw [declaredText, hdeclare]
  exact declaredAs_of_declare (Table.get?_eq_some_iff.2 hp) hdeclare

/-- If all types can be declared, there is one text for each field set, in registry order, and none
for what is written in place. The text declares the field set under the name by which it is
mentioned, and each of its fields by the text by which the type of the field is mentioned. -/
theorem declared_as_mentioned (naming : Naming)
    (h : (r.emitAll .empty).toExcept = .ok declarations) :
    List.Forall₂ (r.DeclaredAs naming) r.fieldSets (declarations.map (Declaration.render naming)) ∧
      ∀ p ∈ r.entries, p ∈ r.fieldSets ↔ p.2.isInline = false := by
  obtain ⟨results, hresults, rfl⟩ := toExcept_emitAll_eq_ok h
  constructor
  · rw [render_declarations naming hresults, List.forall₂_map_right_iff]
    exact List.forall₂_same.2 fun p hp ↦ declaredAs_declaredText hresults hp
  · intro p hp
    obtain ⟨result, hpair⟩ := exists_mem_zip_left hresults.length_eq hp
    have hdeclare := List.forall₂_zip hresults hpair
    have hbody : p.2.body ≠ .bare := by
      intro hbare
      rw [declare, hbare] at hdeclare
      cases hdeclare
    rw [fieldSets, List.mem_filter, Descriptor.isFieldSet_eq_not_isInline hbody]
    simp [hp]

/-- A documented field set without a name, a list with one, and a field set of a kind that adds a
field. -/
def linkedPages : Registry :=
  Table.ofList
    [("1", .ofBody (.primitive .json) none .none (.primitive .json)),
      ("2", .ofBody (.fieldSet .object) none ⟨some "A */ cell", none⟩
        (.fieldSet .object (Table.ofList [("value", ⟨.int 1, ⟨none, some "soon"⟩⟩)]))),
      ("3", .ofBody (.wrapper .list) (some "Cells") .none (.wrapper .list (.str "2"))),
      ("4", { tag := "Page", label := "PageType", name := some "Page", note := .none, opened := []
              body := .fieldSet .struct (Table.ofList [("cells", ⟨.str "3", .none⟩),
                ("next", ⟨.str "4", .none⟩), ("first", ⟨.str "2", .none⟩)])
              extras := [("size", .value (.int 3))] })]

theorem linkedPages_declared : ∃ declarations,
    (linkedPages.emitAll .empty).toExcept = .ok declarations ∧
      List.Forall₂ (linkedPages.DeclaredAs {}) linkedPages.fieldSets
        (declarations.map (Declaration.render {})) ∧
      linkedPages.fieldSets.map Prod.fst = ["2", "4"] ∧
      linkedPages.mention {} (.str "2") = .ok "Type2" ∧
      linkedPages.mention {} (.str "4") = .ok "Page" := by
  have hjson : linkedPages.Resolves (.int 1) :=
    ⟨_, expand_eq_ok_iff.2 (.primitive rfl rfl rfl)⟩
  have hcell : linkedPages.Resolves (.str "2") := ⟨_, expand_eq_ok_iff.2 (.fieldSet rfl rfl rfl)⟩
  have hcells : linkedPages.Resolves (.str "3") := ⟨_, expand_eq_ok_iff.2 (.named rfl rfl)⟩
  have hpage : linkedPages.Resolves (.str "4") := ⟨_, expand_eq_ok_iff.2 (.named rfl rfl)⟩
  have hchecks : ∀ c ∈ typeChecks [] linkedPages.entries, c.fault? linkedPages = none := by
    change ∀ c ∈ [Check.kind _, .kind _, .type (.int 1), .kind _, .kind _, .type (.str "3"),
      .type (.str "4"), .type (.str "2"), .name [] "Page"], _
    simp only [List.forall_mem_cons, fault?_type_eq_none_iff]
    exact ⟨rfl, rfl, hjson, rfl, rfl, hcells, hpage, hcell, rfl, by simp⟩
  have hfault : (linkedPages.emitAll .empty).fault = none := by
    rw [emitAll, fault_emitList]
    exact List.findSome?_eq_none_iff.2 hchecks
  have hemission : (linkedPages.emitAll .empty).toExcept =
      .ok (linkedPages.emitAll .empty).declarations := by
    rw [Emission.toExcept, hfault]
  exact ⟨_, hemission, (declared_as_mentioned {} hemission).1, rfl,
    mention_eq_ok_iff.2 ⟨_, .fieldSet rfl rfl rfl, rfl⟩, mention_of_displayName rfl rfl⟩

end Registry

end Typings
