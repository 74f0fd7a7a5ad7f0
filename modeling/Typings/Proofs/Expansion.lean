import Mathlib.Logic.Relation
import Typings.Proofs.Outcome
import Typings.TypeExpr

/-!
# Expansion by rules

`Registry.expandFrom` carries the path of ids that has led to a type, and gives up where the path
closes. `Registry.Expands` says by rules that know of no path what a type expands to. The two agree:
on success the path cannot be observed. From there it follows which types expand at all: those from
which inline steps reach only types with a rule, and no way back.
-/

namespace Typings

open TypeExpr

/-- The ids of the types that a type is made of. -/
def Body.members : Body → List TypeId
  | .wrapper _ item => [item]
  | .junction _ items => items
  | .primitive _ | .literal _ | .fieldSet _ _ | .bare => []

/-! ## Trees -/

theorem TypeExpr.renderItems_eq_map (naming : Naming) (ts : List TypeExpr) :
    renderItems naming ts = ts.map (render naming) := by
  induction ts with
  | nil => rfl
  | cons t ts ih => rw [renderItems, ih, List.map_cons]

/-- What a composite is directly made of. -/
def TypeExpr.parts : TypeExpr → List TypeExpr
  | .wrapper _ item => [item]
  | .junction _ items => items
  | .primitive _ | .literal _ | .named _ | .synthetic _ => []

theorem TypeExpr.sizeOf_lt_of_mem_parts {t u : TypeExpr} (h : u ∈ t.parts) :
    sizeOf u < sizeOf t := by
  cases t with
  | wrapper w item =>
      obtain rfl := List.mem_singleton.1 h
      simp only [wrapper.sizeOf_spec]
      omega
  | junction j items =>
      have hsize : sizeOf u < sizeOf items := List.sizeOf_lt_of_mem h
      simp only [junction.sizeOf_spec]
      omega
  | _ => cases h

namespace Registry

variable {r : Registry} {path : List String} {id : String} {d : Descriptor}

/-! ## Inline steps -/

/-- A step of inline expansion leads from a type that is written in place to one of its members. -/
def Step (r : Registry) (id member : String) : Prop :=
  ∃ d, r.get? id = some d ∧ d.displayName = none ∧ member ∈ d.body.members.map Value.text

abbrev Reaches (r : Registry) : String → String → Prop := Relation.ReflTransGen r.Step

/-- Every id of a path leads to the id that is to be expanded next. -/
def LeadsTo (r : Registry) (path : List String) (id : String) : Prop :=
  ∀ x ∈ path, Relation.TransGen r.Step x id

theorem leadsTo_nil (r : Registry) (id : String) : r.LeadsTo [] id := by
  intro x hx
  cases hx

theorem LeadsTo.step {member : String} (h : r.LeadsTo path id) (hstep : r.Step id member) :
    r.LeadsTo (path ++ [id]) member := by
  intro x hx
  rcases List.mem_append.1 hx with hx | hx
  · exact .tail (h x hx) hstep
  · exact List.mem_singleton.1 hx ▸ .single hstep

/-- The texts of members can be joined: each member that is known by a name is known by a text. -/
def Joinable (r : Registry) (items : List TypeId) : Prop :=
  ∀ item ∈ items, ∀ d, r.find? item = some d → ∀ name, d.nameValue = some name →
    ∃ s, name = .str s

theorem misnamed?_eq_none_iff {items : List TypeId} :
    r.misnamed? items = none ↔ r.Joinable items := by
  simp only [misnamed?, List.findSome?_eq_none_iff, Prod.forall, List.mem_zipIdx_iff_getElem?]
  constructor
  · intro h item hitem d hd name hname
    obtain ⟨n, hn⟩ := List.mem_iff_getElem?.1 hitem
    have hfault := h item n (by simpa using hn)
    rw [hd, Option.bind_some, hname] at hfault
    cases name <;> simp_all
  · intro h item n hn
    have hitem : item ∈ items := List.mem_of_getElem? (by simpa using hn)
    cases hd : r.find? item with
    | none => rfl
    | some d =>
        cases hname : d.nameValue with
        | none => simp [hname]
        | some name =>
            obtain ⟨s, rfl⟩ := h item hitem d hd name hname
            simp [hname]

/-! ## The rules -/

/-- What a type expands to. -/
inductive Expands (r : Registry) : String → TypeExpr → Prop
  | named {id : String} {d : Descriptor} {name : String} (hd : r.get? id = some d)
      (hname : d.displayName = some name) : Expands r id (.named name)
  | fieldSet {id : String} {d : Descriptor} {f : FieldSet} {fields : Table Field}
      (hd : r.get? id = some d) (hname : d.displayName = none)
      (hbody : d.body = .fieldSet f fields) : Expands r id (.synthetic id)
  | primitive {id : String} {d : Descriptor} {p : Primitive} (hd : r.get? id = some d)
      (hname : d.displayName = none) (hbody : d.body = .primitive p) : Expands r id (.primitive p)
  | literal {id : String} {d : Descriptor} {v : Value} (hd : r.get? id = some d)
      (hname : d.displayName = none) (hbody : d.body = .literal v) : Expands r id (.literal v)
  | wrapper {id : String} {d : Descriptor} {w : Wrapper} {item : TypeId} {t : TypeExpr}
      (hd : r.get? id = some d) (hname : d.displayName = none) (hbody : d.body = .wrapper w item)
      (hitem : Expands r item.text t) : Expands r id (.wrapper w t)
  | junction {id : String} {d : Descriptor} {j : Junction} {items : List TypeId}
      {ts : List TypeExpr} (hd : r.get? id = some d) (hname : d.displayName = none)
      (hbody : d.body = .junction j items) (hjoin : r.Joinable items)
      (hlength : items.length = ts.length)
      (hitems : ∀ p ∈ items.zip ts, Expands r p.1.text p.2) : Expands r id (.junction j ts)

theorem forall₂_expands_iff {items : List TypeId} {ts : List TypeExpr} :
    List.Forall₂ (fun item t ↦ r.Expands item.text t) items ts ↔
      items.length = ts.length ∧ ∀ p ∈ items.zip ts, r.Expands p.1.text p.2 := by
  rw [List.forall₂_iff_zip]
  exact and_congr_right fun _ ↦ ⟨fun h p hp ↦ h hp, fun h _ _ hp ↦ h _ hp⟩

theorem Expands.of_wrapper {w : Wrapper} {item : TypeId} {u : TypeExpr} (h : r.Expands id u)
    (hd : r.get? id = some d) (hname : d.displayName = none) (hbody : d.body = .wrapper w item) :
    ∃ t, u = .wrapper w t ∧ r.Expands item.text t := by
  cases h with
  | named hd' | fieldSet hd' | primitive hd' | literal hd' | junction hd' =>
      obtain rfl := Option.some.inj (hd.symm.trans hd')
      simp_all
  | wrapper hd' _ hbody' hitem =>
      obtain rfl := Option.some.inj (hd.symm.trans hd')
      obtain ⟨rfl, rfl⟩ := Body.wrapper.inj (hbody.symm.trans hbody')
      exact ⟨_, rfl, hitem⟩

theorem Expands.of_junction {j : Junction} {items : List TypeId} {u : TypeExpr}
    (h : r.Expands id u) (hd : r.get? id = some d) (hname : d.displayName = none)
    (hbody : d.body = .junction j items) :
    r.Joinable items ∧ ∃ ts, u = .junction j ts ∧
      List.Forall₂ (fun item t ↦ r.Expands item.text t) items ts := by
  cases h with
  | named hd' | fieldSet hd' | primitive hd' | literal hd' | wrapper hd' =>
      obtain rfl := Option.some.inj (hd.symm.trans hd')
      simp_all
  | junction hd' _ hbody' hjoin hlength hitems =>
      obtain rfl := Option.some.inj (hd.symm.trans hd')
      obtain ⟨rfl, rfl⟩ := Body.junction.inj (hbody.symm.trans hbody')
      exact ⟨hjoin, _, rfl, forall₂_expands_iff.2 ⟨hlength, hitems⟩⟩

/-! ## Steps shrink expansions -/

/-- A member of a type expands to a part of what the type expands to. -/
theorem Expands.step {t : TypeExpr} {member : String} (h : r.Expands id t)
    (hstep : r.Step id member) : ∃ u ∈ t.parts, r.Expands member u := by
  obtain ⟨d', hd', hname', hmember⟩ := hstep
  cases h with
  | named hd hname =>
      obtain rfl := Option.some.inj (hd.symm.trans hd')
      rw [hname] at hname'
      cases hname'
  | fieldSet hd _ hbody | primitive hd _ hbody | literal hd _ hbody =>
      obtain rfl := Option.some.inj (hd.symm.trans hd')
      simp [hbody, Body.members] at hmember
  | @wrapper _ d w item t hd hname hbody hitem =>
      obtain rfl := Option.some.inj (hd.symm.trans hd')
      obtain rfl : member = item.text := by simpa [hbody, Body.members] using hmember
      exact ⟨t, List.mem_singleton_self t, hitem⟩
  | @junction _ d j items ts hd hname hbody hjoin hlength hitems =>
      obtain rfl := Option.some.inj (hd.symm.trans hd')
      obtain ⟨item, hitem, rfl⟩ : ∃ item ∈ items, item.text = member := by
        simpa [hbody, Body.members] using hmember
      obtain ⟨t, hp⟩ := exists_mem_zip_left hlength hitem
      exact ⟨t, (List.of_mem_zip hp).2, hitems _ hp⟩

theorem Expands.reaches {t : TypeExpr} {x : String} (h : r.Expands id t) (hx : r.Reaches id x) :
    ∃ u, r.Expands x u := by
  induction hx with
  | refl => exact ⟨t, h⟩
  | tail _ hstep ih =>
      obtain ⟨u, hu⟩ := ih
      obtain ⟨v, _, hv⟩ := hu.step hstep
      exact ⟨v, hv⟩

/-- A type that reached itself would expand to a part of its own expansion, and so on for ever. -/
theorem Expands.acyclic {t : TypeExpr} (h : r.Expands id t) : ¬ Relation.TransGen r.Step id id := by
  intro hcycle
  have hshrink : ∀ {x y : String}, Relation.TransGen r.Step x y → ∀ {t : TypeExpr},
      r.Expands x t → ∃ u, r.Expands y u ∧ sizeOf u < sizeOf t := by
    intro x y hxy t ht
    induction hxy with
    | single hstep =>
        obtain ⟨u, hpart, hu⟩ := ht.step hstep
        exact ⟨u, hu, TypeExpr.sizeOf_lt_of_mem_parts hpart⟩
    | tail _ hstep ih =>
        obtain ⟨u, hu, hlt⟩ := ih
        obtain ⟨v, hpart, hv⟩ := hu.step hstep
        exact ⟨v, hv, Nat.lt_trans (TypeExpr.sizeOf_lt_of_mem_parts hpart) hlt⟩
  induction hn : sizeOf t using Nat.strongRecOn generalizing t with
  | ind n ih =>
      obtain ⟨u, hu, hlt⟩ := hshrink hcycle h
      exact ih (sizeOf u) (hn ▸ hlt) hu rfl

/-! ## Agreement with the expansion along a path -/

/-- A path does not make an expansion succeed. -/
theorem expands_of_expandFrom {t : TypeExpr} (h : r.expandFrom path id = .ok t) :
    r.Expands id t := by
  fun_induction expandFrom r path id generalizing t with
  | case1 => cases h
  | case2 path id d hd name hname => exact Except.ok.inj h ▸ .named hd hname
  | case3 path id d hd f fields hbody hname => exact Except.ok.inj h ▸ .fieldSet hd hname hbody
  | case4 => cases h
  | case5 path id d hd hname _ _ p _ hbody => exact Except.ok.inj h ▸ .primitive hd hname hbody
  | case6 path id d hd hname _ _ v _ hbody => exact Except.ok.inj h ▸ .literal hd hname hbody
  | case7 path id d hd hname _ _ w item _ hbody ih =>
      cases hitem : r.expandFrom (path ++ [id]) item.text with
      | error fault => simp [hitem, Except.map] at h
      | ok u =>
          rw [hitem] at h
          exact Except.ok.inj h ▸ .wrapper hd hname hbody (ih hitem)
  | case8 => cases h
  | case9 => cases h
  | case10 path id d hd hname _ _ j items ts hjoin hts _ hbody ih =>
      have hforall := (mapM_eq_ok_iff.1 hts).imp fun item u hu ↦ ih item hu
      obtain ⟨hlength, hitems⟩ := forall₂_expands_iff.1 hforall
      exact Except.ok.inj h ▸
        .junction hd hname hbody (misnamed?_eq_none_iff.1 hjoin) hlength hitems
  | case11 => cases h
  | case12 => cases h

/-- A path from which an expansion cannot be reached again does not make it fail. -/
theorem Expands.expandFrom_eq {t : TypeExpr} (h : r.Expands id t)
    (hpath : ∀ x ∈ path, ¬ r.Reaches id x) : r.expandFrom path id = .ok t := by
  -- A member avoids the path because the type does, and the type itself because it is acyclic.
  have havoid : ∀ {path : List String} {id member : String} {t : TypeExpr}, r.Expands id t →
      (∀ x ∈ path, ¬ r.Reaches id x) → r.Step id member →
      ∀ x ∈ path ++ [id], ¬ r.Reaches member x := by
    intro path id member t h hpath hstep x hx hreach
    rcases List.mem_append.1 hx with hx | hx
    · exact hpath x hx (.head hstep hreach)
    · obtain rfl := List.mem_singleton.1 hx
      exact h.acyclic (.head' hstep hreach)
  induction h generalizing path with
  | named hd hname | fieldSet hd hname hbody =>
      rw [expandFrom]
      split <;> simp_all
  | @primitive id d _ hd hname hbody | @literal id d _ hd hname hbody =>
      have hid : id ∉ path := fun hx ↦ hpath id hx .refl
      rw [expandFrom]
      split <;> simp_all
  | @wrapper id d w item t hd hname hbody hitem ih =>
      have hid : id ∉ path := fun hx ↦ hpath id hx .refl
      have hstep : r.Step id item.text := ⟨d, hd, hname, by simp [hbody, Body.members]⟩
      have hmember := ih (havoid (.wrapper hd hname hbody hitem) hpath hstep)
      rw [expandFrom]
      split <;> simp_all [Except.map]
  | @junction id d j items ts hd hname hbody hjoin hlength hitems ih =>
      have hid : id ∉ path := fun hx ↦ hpath id hx .refl
      have hmembers : items.mapM (fun item ↦ r.expandFrom (path ++ [id]) item.text) = .ok ts := by
        rw [mapM_eq_ok_iff, List.forall₂_iff_zip]
        refine ⟨hlength, fun {item u} hp ↦ ih (item, u) hp ?_⟩
        have hitem := (List.of_mem_zip hp).1
        have hstep : r.Step id item.text :=
          ⟨d, hd, hname, by simpa [hbody, Body.members] using ⟨item, hitem, rfl⟩⟩
        exact havoid (.junction hd hname hbody hjoin hlength hitems) hpath hstep
      have hnames := misnamed?_eq_none_iff.2 hjoin
      rw [expandFrom]
      split <;> simp_all

/-- Expansion from the start does what the rules say. -/
theorem expandFrom_nil_eq_ok_iff {t : TypeExpr} :
    r.expandFrom [] id = .ok t ↔ r.Expands id t :=
  ⟨expands_of_expandFrom, fun h ↦ h.expandFrom_eq (by simp)⟩

theorem Expands.unique {t u : TypeExpr} (ht : r.Expands id t) (hu : r.Expands id u) : t = u := by
  rw [← expandFrom_nil_eq_ok_iff] at ht hu
  exact Except.ok.inj (ht.symm.trans hu)

theorem expand_eq_ok_iff {x : TypeId} {t : TypeExpr} :
    r.expand x = .ok t ↔ r.Expands x.text t :=
  expandFrom_nil_eq_ok_iff

theorem Expands.eq_named {t : TypeExpr} {v : Value} (h : r.Expands id t)
    (hv : (r.get? id).bind Descriptor.nameValue = some v) : t = .named v.text := by
  have hname (d : Descriptor) (hd : r.get? id = some d) : d.displayName = some v.text := by
    rw [hd, Option.bind_some] at hv
    rw [Descriptor.displayName, hv, Option.map_some]
  cases h with
  | named hd hname' => rw [Option.some.inj (hname'.symm.trans (hname _ hd))]
  | fieldSet hd hname' | primitive hd hname' | literal hd hname' | wrapper hd hname'
  | junction hd hname' => cases hname'.symm.trans (hname _ hd)

/-- What is resolved to a name that is no text is mentioned by the text of it. -/
theorem mention_eq_map_render (r : Registry) (naming : Naming) (x : TypeId) :
    r.mention naming x = (r.expand x).map (·.render naming) := by
  rw [mention, resolve]
  cases ht : r.expand x with
  | error fault => rfl
  | ok t =>
      cases hv : (r.find? x).bind Descriptor.nameValue with
      | none => rfl
      | some v =>
          rw [(expand_eq_ok_iff.1 ht).eq_named hv]
          rfl

theorem mention_eq_ok_iff {naming : Naming} {x : TypeId} {text : String} :
    r.mention naming x = .ok text ↔ ∃ t, r.Expands x.text t ∧ t.render naming = text := by
  rw [mention_eq_map_render]
  constructor
  · intro h
    cases ht : r.expand x with
    | error fault => simp [ht, Except.map] at h
    | ok t =>
        rw [ht] at h
        exact ⟨t, expand_eq_ok_iff.1 ht, Except.ok.inj h⟩
  · rintro ⟨t, ht, rfl⟩
    rw [expand_eq_ok_iff.2 ht, Except.map]

theorem mention_of_expand {naming : Naming} {x : TypeId} {t : TypeExpr} (h : r.expand x = .ok t) :
    r.mention naming x = .ok (t.render naming) :=
  mention_eq_ok_iff.2 ⟨t, expand_eq_ok_iff.1 h, rfl⟩

/-! ## Which types expand -/

/-- What is reached from a type by inline steps is in order. -/
structure Expandable (r : Registry) (id : String) : Prop where
  registered : ∀ x, r.Reaches id x → ∃ d, r.get? x = some d
  ruled : ∀ x d, r.Reaches id x → r.get? x = some d → d.displayName = none → d.body ≠ .bare
  joinable : ∀ x d j items, r.Reaches id x → r.get? x = some d → d.displayName = none →
    d.body = .junction j items → r.Joinable items
  acyclic : ∀ x, r.Reaches id x → ¬ Relation.TransGen r.Step x x

theorem Expandable.of_reaches {x : String} (h : r.Expandable id) (hx : r.Reaches id x) :
    r.Expandable x where
  registered y hy := h.registered y (hx.trans hy)
  ruled y d hy := h.ruled y d (hx.trans hy)
  joinable y d j items hy := h.joinable y d j items (hx.trans hy)
  acyclic y hy := h.acyclic y (hx.trans hy)

theorem Expands.expandable {t : TypeExpr} (h : r.Expands id t) : r.Expandable id where
  registered x hx := by
    obtain ⟨u, hu⟩ := h.reaches hx
    cases hu with
    | named hd | fieldSet hd | primitive hd | literal hd | wrapper hd | junction hd =>
        exact ⟨_, hd⟩
  ruled x d hx hd hname hbody := by
    obtain ⟨u, hu⟩ := h.reaches hx
    cases hu with
    | named hd' | fieldSet hd' | primitive hd' | literal hd' | wrapper hd' | junction hd' =>
        obtain rfl := Option.some.inj (hd.symm.trans hd')
        simp_all
  joinable x d j items hx hd hname hbody := by
    obtain ⟨u, hu⟩ := h.reaches hx
    cases hu with
    | named hd' | fieldSet hd' | primitive hd' | literal hd' | wrapper hd' =>
        obtain rfl := Option.some.inj (hd.symm.trans hd')
        simp_all
    | junction hd' hname' hbody' hjoin =>
        obtain rfl := Option.some.inj (hd.symm.trans hd')
        obtain ⟨rfl, rfl⟩ := Body.junction.inj (hbody.symm.trans hbody')
        exact hjoin
  acyclic x hx := by
    obtain ⟨u, hu⟩ := h.reaches hx
    exact hu.acyclic

/-- The expansion goes down until it ends: every step enters an id that is not on the path, and
there are only so many. -/
theorem Expandable.exists_expands (h : r.Expandable id) (hpath : r.LeadsTo path id) :
    ∃ t, r.Expands id t := by
  induction hn : (unvisited r path).length using Nat.strongRecOn generalizing path id with
  | ind n ih =>
      obtain ⟨d, hd⟩ := h.registered id .refl
      cases hname : d.displayName with
      | some name => exact ⟨_, .named hd hname⟩
      | none =>
          have hid : id ∉ path := fun hx ↦ h.acyclic id .refl (hpath id hx)
          have hlt := length_unvisited_append_lt (Assoc.mem_keys_of_find? hd) hid
          have hmember : ∀ item ∈ d.body.members, ∃ t, r.Expands item.text t := by
            intro item hitem
            have hstep : r.Step id item.text := ⟨d, hd, hname, List.mem_map_of_mem hitem⟩
            exact ih _ (hn ▸ hlt) (h.of_reaches (.single hstep)) (hpath.step hstep) rfl
          cases hbody : d.body with
          | primitive p => exact ⟨_, .primitive hd hname hbody⟩
          | literal v => exact ⟨_, .literal hd hname hbody⟩
          | wrapper w item =>
              obtain ⟨t, ht⟩ := hmember item (by simp [hbody, Body.members])
              exact ⟨_, .wrapper hd hname hbody ht⟩
          | junction j items =>
              rw [hbody] at hmember
              obtain ⟨ts, hts⟩ := exists_forall₂ hmember
              obtain ⟨hlength, hitems⟩ := forall₂_expands_iff.1 hts
              have hjoin := h.joinable id d j items .refl hd hname hbody
              exact ⟨_, .junction hd hname hbody hjoin hlength hitems⟩
          | fieldSet f fields => exact ⟨_, .fieldSet hd hname hbody⟩
          | bare => exact absurd hbody (h.ruled id d .refl hd hname)

theorem exists_expands_iff_expandable : (∃ t, r.Expands id t) ↔ r.Expandable id := by
  constructor
  · rintro ⟨t, h⟩
    exact h.expandable
  · intro h
    exact h.exists_expands (r.leadsTo_nil id)

/-- A type is mentioned exactly if what it is made of inline is in order; and no inline cycle passes
through a type that has a name or is declared. -/
theorem exists_mention_iff_expandable (r : Registry) (naming : Naming) (x : TypeId) :
    ((∃ text, r.mention naming x = .ok text) ↔ r.Expandable x.text) ∧
      ∀ y d, r.get? y = some d →
        (d.displayName ≠ none ∨ ∃ f fields, d.body = .fieldSet f fields) →
          ¬ Relation.TransGen r.Step y y := by
  refine ⟨?_, ?_⟩
  · rw [← exists_expands_iff_expandable]
    constructor
    · rintro ⟨text, h⟩
      obtain ⟨t, ht, _⟩ := mention_eq_ok_iff.1 h
      exact ⟨t, ht⟩
    · rintro ⟨t, ht⟩
      exact ⟨t.render naming, mention_eq_ok_iff.2 ⟨t, ht, rfl⟩⟩
  · intro y d hd hcut hcycle
    obtain ⟨m, ⟨d', hd', hname, hm⟩, _⟩ := Relation.TransGen.head'_iff.1 hcycle
    obtain rfl := Option.some.inj (hd.symm.trans hd')
    rcases hcut with hnamed | ⟨f, fields, hbody⟩
    · exact hnamed hname
    · simp [hbody, Body.members] at hm

/-- A list of trees, a tree being nothing but such a list. -/
def recursiveName : Registry :=
  Table.ofList
    [("1", .ofBody (.wrapper .list) none .none (.wrapper .list (.str "2"))),
      ("2", .ofBody (.junction .union) (some "Tree") .none (.junction .union [.str "1"]))]

theorem recursiveName_mentioned :
    (∃ text, recursiveName.mention {} (.str "1") = .ok text) ∧
      ¬ Relation.TransGen recursiveName.Step "2" "2" := by
  obtain ⟨hmention, hcut⟩ := exists_mention_iff_expandable recursiveName {} (.str "1")
  have hexpands : recursiveName.Expands "1" (.wrapper .list (.named "Tree")) :=
    .wrapper rfl rfl rfl (.named rfl rfl)
  exact ⟨hmention.2 hexpands.expandable, hcut "2" _ rfl (.inl (by decide))⟩

/-! ## Names that are no texts -/

/-- A union of one type whose kind opens its name, and which is known as the number five. -/
def numberedUnion : Registry :=
  Table.ofList
    [("1", { tag := "Numbered", label := "Numbered", name := none, note := .none
             opened := [(.name, .int 5)], body := .primitive .string, extras := [] }),
      ("2", .ofBody (.junction .union) none .none (.junction .union [.str "1"]))]

theorem numberedUnion_get? {x : String} {d : Descriptor} (hd : numberedUnion.get? x = some d) :
    (x = "1" ∧ d.nameValue = some (.int 5) ∧ d.body = .primitive .string) ∨
      (x = "2" ∧ d.nameValue = none ∧ d.body = .junction .union [.str "1"]) := by
  simp only [numberedUnion, Table.get?, Table.ofList, Assoc.ofList, List.foldl, Assoc.insert,
    Assoc.find?, String.reduceEq, if_false] at hd
  split at hd
  · next h =>
      obtain rfl := Option.some.inj hd
      exact .inl ⟨h.symm, rfl, rfl⟩
  · split at hd
    · next h =>
        obtain rfl := Option.some.inj hd
        exact .inr ⟨h.symm, rfl, rfl⟩
    · cases hd

theorem numberedUnion_step {x y : String} (h : numberedUnion.Step x y) : x = "2" ∧ y = "1" := by
  obtain ⟨d, hd, hname, hy⟩ := h
  rcases numberedUnion_get? hd with ⟨_, hvalue, _⟩ | ⟨rfl, _, hbody⟩
  · simp [Descriptor.displayName, hvalue] at hname
  · exact ⟨rfl, by simpa [hbody, Body.members, Value.text] using hy⟩

/-- All that is reached from the union is registered and ruled, and nothing reaches itself; still it
is not mentioned, since a number cannot be joined. -/
theorem numberedUnion_not_mentioned :
    (∀ x, numberedUnion.Reaches "2" x → ∃ d, numberedUnion.get? x = some d) ∧
      (∀ x d, numberedUnion.Reaches "2" x → numberedUnion.get? x = some d →
        d.displayName = none → d.body ≠ .bare) ∧
      (∀ x, numberedUnion.Reaches "2" x → ¬ Relation.TransGen numberedUnion.Step x x) ∧
      ∀ text, numberedUnion.mention {} (.str "2") ≠ .ok text := by
  refine ⟨fun x hx ↦ ?_, fun x d _ hd _ ↦ ?_, fun x _ hcycle ↦ ?_, fun text h ↦ ?_⟩
  · rcases Relation.ReflTransGen.cases_tail hx with rfl | ⟨y, _, hstep⟩
    · exact ⟨_, rfl⟩
    · exact (numberedUnion_step hstep).2 ▸ ⟨_, rfl⟩
  · rcases numberedUnion_get? hd with ⟨_, _, hbody⟩ | ⟨_, _, hbody⟩ <;> simp [hbody]
  · obtain ⟨y, hfirst, _⟩ := Relation.TransGen.head'_iff.1 hcycle
    obtain ⟨z, _, hlast⟩ := Relation.TransGen.tail'_iff.1 hcycle
    have hends := (numberedUnion_step hfirst).1.symm.trans (numberedUnion_step hlast).2
    simp at hends
  · obtain ⟨t, ht, _⟩ := mention_eq_ok_iff.1 h
    have hjoin := ht.expandable.joinable "2" _ .union [.str "1"] .refl rfl rfl rfl
    obtain ⟨s, hs⟩ := hjoin (.str "1") (by simp) _ rfl (.int 5) rfl
    cases hs

end Registry

end Typings
