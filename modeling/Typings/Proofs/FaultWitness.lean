import Mathlib.Data.List.Chain
import Typings.Proofs.FirstFault
import Typings.Proofs.RenamedIds

/-!
# What an expansion fails with

To expand a type is to go through ids depth first and from left to right, without entering an id
again that is still being expanded. An expansion fails with the first thing on this walk that is
wrong, and what the fault names is really there: an id that is reached and not registered, a reached
type without a rule, a closed trail of inline steps, or a member that cannot be joined.
-/

namespace Typings

open TypeExpr

/-! ## The walk through a type -/

/-- A moment of an expansion. The path holds the ids that are being expanded, outermost first. -/
inductive Visit where
  /-- An id is come to. -/
  | enter (path : List String) (id : String)
  /-- All members of an id have been gone through. -/
  | leave (path : List String) (id : String)

namespace Registry

variable {r : Registry} {path : List String} {id x : String} {v : Visit} {fault : Fault}

/-- All that is come to from an id, depth first and from left to right. Only a type without a
display name that is not on the path is entered. -/
def walk (r : Registry) (path : List String) (id : String) : List Visit :=
  .enter path id ::
    match hd : r.get? id with
    | none => []
    | some d =>
      if h : d.displayName = none ∧ id ∉ path then
        have := length_unvisited_append_lt (Assoc.mem_keys_of_find? hd) h.2
        d.body.members.flatMap (fun item ↦ walk r (path ++ [id]) item.text) ++ [.leave path id]
      else []
termination_by (unvisited r path).length

theorem walk_eq (r : Registry) (path : List String) (id : String) :
    r.walk path id = .enter path id ::
      match r.get? id with
      | none => []
      | some d =>
        if d.displayName = none ∧ id ∉ path then
          d.body.members.flatMap (fun item ↦ r.walk (path ++ [id]) item.text) ++ [.leave path id]
        else [] := by
  rw [walk]
  split
  · next hd => simp only [hd]
  · next d hd => simp only [hd, dite_eq_ite]

/-! ## What can be wrong -/

/-- What is wrong with joining the members of a body. -/
def joinFault? (r : Registry) : Body → Option Fault
  | .junction _ items => r.misnamed? items
  | _ => none

/-- What is wrong at one moment. An id that is come to must be registered; unless it is mentioned by
a name, it must not be on the path, and there must be a rule for it. When it is left, its members
must be fit to be joined. -/
def visitFault? (r : Registry) : Visit → Option Fault
  | .enter path id =>
    match r.get? id with
    | none => some (.unresolved (.str id))
    | some d =>
      if d.displayName ≠ none ∨ d.body.isFieldSet then none
      else if id ∈ path then some (.cyclic (path ++ [id]))
      else if d.isInline then none
      else some (.unsupportedField d)
  | .leave _ id => (r.get? id).bind fun d ↦ r.joinFault? d.body

theorem findSome?_flatMap {α β γ : Type} (f : β → Option γ) (g : α → List β) (xs : List α) :
    (xs.flatMap g).findSome? f = xs.findSome? fun x ↦ (g x).findSome? f := by
  induction xs with
  | nil => rfl
  | cons x xs ih =>
      rw [List.flatMap_cons, List.findSome?_append, List.findSome?_cons, ih]
      cases (g x).findSome? f <;> rfl

/-- A type that is expanded in place fails if there is no rule for it, or else with its first member
that fails, or else if its members cannot be joined. -/
theorem failure?_expandInPlace (member : TypeId → Except Fault TypeExpr) {d : Descriptor}
    (h : d.body.isFieldSet = false) :
    failure? (r.expandInPlace member d) =
      (if d.isInline then none else some (.unsupportedField d)).or
        ((d.body.members.findSome? fun item ↦ failure? (member item)).or
          (r.joinFault? d.body)) := by
  rw [expandInPlace, Descriptor.isInline]
  cases hbody : d.body with
  | fieldSet f fields => simp [hbody, Body.isFieldSet] at h
  | wrapper w item =>
      refine (failure?_bind_pure _ _).trans ?_
      simp only [Body.members, joinFault?, List.findSome?_singleton, Option.or_none]
      rfl
  | junction j items =>
      simp only [Body.members, joinFault?, if_true, Option.none_or, ← failure?_mapM]
      refine failure?_bind fun ts _ ↦ ?_
      cases r.misnamed? items <;> rfl
  | _ => rfl

theorem failure?_expandFrom (r : Registry) (path : List String) (id : String) :
    failure? (r.expandFrom path id) = (r.walk path id).findSome? r.visitFault? := by
  induction hn : (unvisited r path).length using Nat.strongRecOn generalizing path id with
  | ind n ih =>
      rw [expandFrom_eq_inPlace, walk_eq, List.findSome?_cons, visitFault?]
      cases hd : r.get? id with
      | none => rfl
      | some d =>
          dsimp only
          cases hname : d.displayName with
          | some name => rfl
          | none =>
              cases hkind : d.body.isFieldSet with
              | true =>
                  have hmembers : d.body.members = [] ∧ r.joinFault? d.body = none := by
                    cases hbody : d.body <;> simp_all [Body.isFieldSet, Body.members, joinFault?]
                  by_cases hid : id ∈ path <;> simp [hid, hmembers, visitFault?, hd, failure?]
              | false =>
                  by_cases hid : id ∈ path
                  · simp [hid, failure?]
                  · have hlt := length_unvisited_append_lt (Assoc.mem_keys_of_find? hd) hid
                    have hmember (item : TypeId) := ih _ (hn ▸ hlt) (path ++ [id]) item.text rfl
                    have hleave : r.visitFault? (.leave path id) = r.joinFault? d.body := by
                      rw [visitFault?, hd, Option.bind_some]
                    simp only [if_neg hid, failure?_expandInPlace _ hkind, hmember]
                    simp only [hid, not_false_eq_true, and_self, if_true, List.findSome?_append,
                      findSome?_flatMap, List.findSome?_singleton, hleave]
                    cases d.isInline <;> rfl

/-! ## Trails of inline steps -/

/-- The ids of a path and the one after them lead from `x` by inline steps, none being on the path
twice. -/
structure Trail (r : Registry) (x : String) (path : List String) (id : String) : Prop where
  start : (path ++ [id]).head? = some x
  steps : (path ++ [id]).IsChain r.Step
  nodup : path.Nodup

theorem trail_nil (r : Registry) (x : String) : r.Trail x [] x where
  start := rfl
  steps := .singleton x
  nodup := List.nodup_nil

theorem Trail.step {member : String} (h : r.Trail x path id) (hid : id ∉ path)
    (hstep : r.Step id member) : r.Trail x (path ++ [id]) member where
  start := by rw [List.head?_append, h.start, Option.some_or]
  steps := by
    rw [List.append_assoc]
    exact List.isChain_append_cons_cons.2 ⟨h.steps, hstep, .singleton member⟩
  nodup := by
    rw [← List.concat_eq_append]
    exact h.nodup.concat hid

theorem Trail.reaches (h : r.Trail x path id) : r.Reaches x id := by
  have hne : path ++ [id] ≠ [] := by simp
  have hends := List.relationReflTransGen_of_exists_isChain _ h.steps hne
  have hhead : (path ++ [id]).head hne = x :=
    Option.some.inj ((List.head?_eq_some_head hne).symm.trans h.start)
  rwa [hhead, List.getLast_append_singleton] at hends

/-- What holds at every moment of the walk from `x`. -/
inductive Reached (r : Registry) (x : String) : Visit → Prop
  | enter {path : List String} {id : String} (h : r.Trail x path id) : Reached r x (.enter path id)
  | leave {path : List String} {id : String} {d : Descriptor} (h : r.Trail x path id)
      (hd : r.get? id = some d) (hname : d.displayName = none) : Reached r x (.leave path id)

theorem reached_of_mem_walk (h : r.Trail x path id) (hv : v ∈ r.walk path id) :
    r.Reached x v := by
  induction hn : (unvisited r path).length using Nat.strongRecOn generalizing path id with
  | ind n ih =>
      rw [walk_eq] at hv
      rcases List.mem_cons.1 hv with rfl | hv
      · exact .enter h
      · split at hv
        · cases hv
        · next d hd =>
          split at hv
          · next hopen =>
            obtain ⟨hname, hid⟩ := hopen
            rcases List.mem_append.1 hv with hv | hv
            · obtain ⟨item, hitem, hv⟩ := List.mem_flatMap.1 hv
              have hstep : r.Step id item.text := ⟨d, hd, hname, List.mem_map_of_mem hitem⟩
              have hlt := length_unvisited_append_lt (Assoc.mem_keys_of_find? hd) hid
              exact ih _ (hn ▸ hlt) (h.step hid hstep) hv rfl
            · rw [List.mem_singleton.1 hv]
              exact .leave h hd hname
          · cases hv

/-! ## What a fault tells of a type -/

/-- What a fault tells of the expansion of `x` is so. -/
inductive Blames (r : Registry) (x : String) : Fault → Prop
  | unresolved {id : String} (hid : r.Reaches x id) (habsent : r.get? id = none) :
      Blames r x (.unresolved (.str id))
  | unsupported {id : String} {d : Descriptor} (hid : r.Reaches x id) (hd : r.get? id = some d)
      (hname : d.displayName = none) (hinline : d.isInline = false)
      (hkind : d.body.isFieldSet = false) : Blames r x (.unsupportedField d)
  /-- The path goes from `x` along inline steps, and ends with the only id that is on it twice. -/
  | cyclic {path : List String} {id : String} (hstart : (path ++ [id]).head? = some x)
      (hsteps : (path ++ [id]).IsChain r.Step) (hnodup : path.Nodup) (hcount : path.count id = 1) :
      Blames r x (.cyclic (path ++ [id]))
  /-- The member is the first that is known under a name that is no text. -/
  | nameNotText {id : String} {d e : Descriptor} {j : Junction} {before after : List TypeId}
      {item : TypeId} {name : Value} (hid : r.Reaches x id) (hd : r.get? id = some d)
      (hname : d.displayName = none) (hbody : d.body = .junction j (before ++ item :: after))
      (hbefore : r.Joinable before) (he : r.find? item = some e) (hvalue : e.nameValue = some name)
      (htext : ∀ s, name ≠ .str s) : Blames r x (.nameNotText before.length name)

theorem misnamed?_eq_some {items : List TypeId} (h : r.misnamed? items = some fault) :
    ∃ before item after e name, items = before ++ item :: after ∧ r.Joinable before ∧
      r.find? item = some e ∧ e.nameValue = some name ∧ (∀ s, name ≠ .str s) ∧
      fault = .nameNotText before.length name := by
  obtain ⟨front, ⟨item, position⟩, back, hitems, hfault, hfront⟩ := List.findSome?_eq_some_iff.1 h
  obtain ⟨before, rest, rfl, rfl, hrest⟩ := List.zipIdx_eq_append_iff.1 hitems
  obtain ⟨item', after, rfl, hitem, -⟩ := List.zipIdx_eq_cons_iff.1 hrest.symm
  obtain ⟨rfl, rfl⟩ := Prod.mk.inj hitem
  have hbefore : r.Joinable before := by
    rw [← misnamed?_eq_none_iff]
    exact List.findSome?_eq_none_iff.2 hfront
  dsimp only at hfault
  rw [Nat.zero_add] at hfault
  cases he : r.find? item with
  | none => simp [he] at hfault
  | some e =>
      rw [he, Option.bind_some] at hfault
      split at hfault
      · cases hfault
      · cases hfault
      · next name htext hvalue =>
        refine ⟨before, item, after, e, name, rfl, hbefore, he, hvalue, ?_, ?_⟩
        · rintro s rfl
          exact htext s rfl
        · exact (Option.some.inj hfault).symm

/-- Whatever is wrong at a moment of the walk tells the truth. -/
theorem Reached.blames (hv : r.Reached x v) (h : r.visitFault? v = some fault) :
    r.Blames x fault := by
  cases hv with
  | @enter path id htrail =>
      rw [visitFault?] at h
      split at h
      · next hd =>
        obtain rfl := Option.some.inj h
        exact .unresolved htrail.reaches hd
      · next d hd =>
        split at h
        · cases h
        · next hnamed =>
          obtain ⟨hname, hkind⟩ : d.displayName = none ∧ d.body.isFieldSet = false := by
            simpa using hnamed
          split at h
          · next hid =>
            obtain rfl := Option.some.inj h
            exact .cyclic htrail.start htrail.steps htrail.nodup
              (List.count_eq_one_of_mem htrail.nodup hid)
          · split at h
            · cases h
            · next hinline =>
              obtain rfl := Option.some.inj h
              exact .unsupported htrail.reaches hd hname (by simpa using hinline) hkind
  | @leave path id d htrail hd hname =>
      rw [visitFault?, hd, Option.bind_some] at h
      cases hbody : d.body with
      | junction j items =>
          rw [hbody] at h
          obtain ⟨before, item, after, e, name, rfl, hbefore, he, hvalue, htext, rfl⟩ :=
            misnamed?_eq_some h
          exact .nameNotText htrail.reaches hd hname hbody hbefore he hvalue htext
      | _ =>
          rw [hbody] at h
          cases h

theorem failure?_mention (r : Registry) (naming : Naming) (id : TypeId) :
    failure? (r.mention naming id) = (r.walk [] id.text).findSome? r.visitFault? := by
  rw [← failure?_expandFrom, mention_eq_map_render, expand]
  cases r.expandFrom [] id.text <;> rfl

/-- A type is not mentioned exactly if something is wrong on the walk through it. The fault is the
first thing that is, and what it tells is so. -/
theorem mention_fails_first (r : Registry) (naming : Naming) (id : TypeId) (fault : Fault) :
    (r.mention naming id = .error fault ↔
      ∃ before v after, r.walk [] id.text = before ++ v :: after ∧
        r.visitFault? v = some fault ∧ ∀ u ∈ before, r.visitFault? u = none) ∧
    (r.mention naming id = .error fault → r.Blames id.text fault) := by
  have hfirst : r.mention naming id = .error fault ↔
      (r.walk [] id.text).findSome? r.visitFault? = some fault := by
    rw [← failure?_mention r naming]
    cases r.mention naming id <;> simp [failure?]
  refine ⟨by rw [hfirst, List.findSome?_eq_some_iff], fun h ↦ ?_⟩
  obtain ⟨v, hv, hfault⟩ := List.exists_of_findSome?_eq_some (hfirst.1 h)
  exact (reached_of_mem_walk (r.trail_nil _) hv).blames hfault

/-- A union below which a cycle and two ids that are not registered compete. -/
def tangled : Registry :=
  Table.ofList
    [("1", .ofBody (.junction .union) none .none (.junction .union [.str "2", .str "9"])),
      ("2", .ofBody (.wrapper .list) none .none (.wrapper .list (.int 3))),
      ("3", .ofBody (.junction .intersect) none .none
        (.junction .intersect [.str "4", .int 2, .str "8"])),
      ("4", .ofBody (.primitive .string) none .none (.primitive .string))]

theorem tangled_mention :
    tangled.mention {} (.int 1) = .error (.cyclic ["1", "2", "3", "2"]) ∧
      tangled.Blames "1" (.cyclic ["1", "2", "3", "2"]) := by
  have hstring : tangled.walk ["1", "2", "3"] "4" =
      [.enter ["1", "2", "3"] "4", .leave ["1", "2", "3"] "4"] := by
    rw [walk_eq]
    rfl
  have hclosed : tangled.walk ["1", "2", "3"] "2" = [.enter ["1", "2", "3"] "2"] := by
    rw [walk_eq]
    rfl
  have hunion : tangled.walk [] "1" = .enter [] "1" ::
      (tangled.walk ["1"] "2" ++ (tangled.walk ["1"] "9" ++ []) ++ [.leave [] "1"]) := by
    rw [walk_eq]
    rfl
  have hlist : tangled.walk ["1"] "2" =
      .enter ["1"] "2" :: (tangled.walk ["1", "2"] "3" ++ [] ++ [.leave ["1"] "2"]) := by
    rw [walk_eq]
    rfl
  have hintersect : tangled.walk ["1", "2"] "3" = .enter ["1", "2"] "3" ::
      (tangled.walk ["1", "2", "3"] "4" ++ (tangled.walk ["1", "2", "3"] "2" ++
        (tangled.walk ["1", "2", "3"] "8" ++ [])) ++ [.leave ["1", "2"] "3"]) := by
    rw [walk_eq]
    rfl
  have hwalk : tangled.walk [] "1" = [.enter [] "1", .enter ["1"] "2", .enter ["1", "2"] "3",
      .enter ["1", "2", "3"] "4", .leave ["1", "2", "3"] "4"] ++ .enter ["1", "2", "3"] "2" ::
        (tangled.walk ["1", "2", "3"] "8" ++ [.leave ["1", "2"] "3", .leave ["1"] "2"] ++
          tangled.walk ["1"] "9" ++ [.leave [] "1"]) := by
    rw [hunion, hlist, hintersect, hstring, hclosed]
    simp
  obtain ⟨hfirst, hblames⟩ :=
    mention_fails_first tangled {} (.int 1) (.cyclic ["1", "2", "3", "2"])
  have h := hfirst.2 ⟨_, _, _, hwalk, rfl, by
    simp only [List.forall_mem_cons]
    exact ⟨rfl, rfl, rfl, rfl, rfl, List.forall_mem_nil _⟩⟩
  exact ⟨h, hblames h⟩

end Registry

end Typings
