import Mathlib.Logic.Equiv.Basic
import Typings.Proofs.Contents
import Typings.Proofs.Composition

/-!
# Renamed ids

A description whose ids are replaced, one by one and everywhere, generates the same text, unless an
id is shown as the name of a field set. Both fail alike too, with faults that differ in the ids.
-/

namespace Typings

/-! ## Renamings -/

section

variable (σ : String → String)

/-- An id that addresses the new name of what another one addresses. -/
def TypeId.Renamed (x y : TypeId) : Prop := y.text = σ x.text

structure Field.Renamed (f g : Field) : Prop where
  typeId : TypeId.Renamed σ f.typeId g.typeId
  note : g.note = f.note

inductive Body.Renamed : Body → Body → Prop
  | primitive (p : Primitive) : Renamed (.primitive p) (.primitive p)
  | literal (v : Value) : Renamed (.literal v) (.literal v)
  | wrapper (w : Wrapper) {x y : TypeId} (h : TypeId.Renamed σ x y) :
      Renamed (.wrapper w x) (.wrapper w y)
  | junction (j : Junction) {xs ys : List TypeId} (h : List.Forall₂ (TypeId.Renamed σ) xs ys) :
      Renamed (.junction j xs) (.junction j ys)
  | fieldSet (f : FieldSet) {fields fields' : Table Field}
      (h : List.Forall₂ (fun p q ↦ q.1 = p.1 ∧ Field.Renamed σ p.2 q.2)
        fields.entries fields'.entries) :
      Renamed (.fieldSet f fields) (.fieldSet f fields')
  | bare : Renamed .bare .bare

/-- Bodies that are expanded alike, for which the fields of a field set do not matter. -/
inductive Body.Alike : Body → Body → Prop
  | primitive (p : Primitive) : Alike (.primitive p) (.primitive p)
  | literal (v : Value) : Alike (.literal v) (.literal v)
  | wrapper (w : Wrapper) {x y : TypeId} (h : TypeId.Renamed σ x y) :
      Alike (.wrapper w x) (.wrapper w y)
  | junction (j : Junction) {xs ys : List TypeId} (h : List.Forall₂ (TypeId.Renamed σ) xs ys) :
      Alike (.junction j xs) (.junction j ys)
  | fieldSet (f f' : FieldSet) (fields fields' : Table Field) :
      Alike (.fieldSet f fields) (.fieldSet f' fields')
  | bare : Alike .bare .bare

/-- Types with one name that are expanded alike. -/
structure Descriptor.Alike (d e : Descriptor) : Prop where
  name : e.nameValue = d.nameValue
  body : Body.Alike σ d.body e.body

/-- Types with one name and one documentation whose ids correspond. -/
structure Descriptor.Renamed (d e : Descriptor) : Prop where
  name : e.nameValue = d.nameValue
  note : e.note = d.note
  body : Body.Renamed σ d.body e.body

mutual

inductive Entry.Renamed : Entry → Entry → Prop
  | endpoint {e e' : Endpoint} (hinput : TypeId.Renamed σ e.input e'.input)
      (houtput : TypeId.Renamed σ e.output e'.output) (hnote : e'.note = e.note) :
      Entry.Renamed (.endpoint e) (.endpoint e')
  | branch {level level' : List (String × Entry)} (h : RenamedLevel level level') :
      Entry.Renamed (.branch level) (.branch level')
  | foreign (x : Value) : Entry.Renamed (.foreign x) (.foreign x)

inductive RenamedLevel : List (String × Entry) → List (String × Entry) → Prop
  | nil : RenamedLevel [] []
  | cons (key : String) {e e' : Entry} {rest rest' : List (String × Entry)}
      (h : Entry.Renamed e e') (hrest : RenamedLevel rest rest') :
      RenamedLevel ((key, e) :: rest) ((key, e') :: rest')

end

variable (R : Descriptor → Descriptor → Prop)

/-- Faults of one kind, at ids that correspond and at related types. -/
inductive Fault.Renamed : Fault → Fault → Prop
  | unresolved (id : String) : Renamed (.unresolved (.str id)) (.unresolved (.str (σ id)))
  | unsupportedField {d e : Descriptor} (hbody : d.body = .bare) (h : R d e) :
      Renamed (.unsupportedField d) (.unsupportedField e)
  | unsupportedDeclaration {d e : Descriptor} (hbody : d.body = .bare) (h : R d e) :
      Renamed (.unsupportedDeclaration d) (.unsupportedDeclaration e)
  | unsupportedEntry (x : Value) : Renamed (.unsupportedEntry x) (.unsupportedEntry x)
  | duplicateName (name : String) : Renamed (.duplicateName name) (.duplicateName name)
  | cyclic (path : List String) : Renamed (.cyclic path) (.cyclic (path.map σ))
  | nameNotText (position : Nat) (name : Value) :
      Renamed (.nameNotText position name) (.nameNotText position name)

inductive GenerationError.Renamed : GenerationError → GenerationError → Prop
  | fault {f g : Fault} (h : Fault.Renamed σ R f g) : Renamed (.fault f) (.fault g)
  | format (e : FormatError) : Renamed (.format e) (.format e)

/-- What is registered under an id and under its new name: nothing or related types, where a field
set without a name keeps its id. -/
inductive Registry.Linked (r r' : Registry) (id : String) : Prop
  | missing (hd : r.get? id = none) (he : r'.get? (σ id) = none)
  | registered {d e : Descriptor} (hd : r.get? id = some d) (he : r'.get? (σ id) = some e)
      (h : R d e) (hfixed : d.body.isFieldSet = true → d.displayName = none → σ id = id)

end

/-! ## Expansion -/

variable {σ : String → String} {R : Descriptor → Descriptor → Prop} {r r' : Registry}

theorem Body.Renamed.alike {b c : Body} (h : b.Renamed σ c) : b.Alike σ c := by
  cases h with
  | primitive p => exact .primitive p
  | literal v => exact .literal v
  | wrapper w h => exact .wrapper w h
  | junction j h => exact .junction j h
  | fieldSet f h => exact .fieldSet f f _ _
  | bare => exact .bare

theorem Descriptor.Renamed.alike {d e : Descriptor} (h : d.Renamed σ e) : d.Alike σ e :=
  ⟨h.name, h.body.alike⟩

theorem Body.Alike.isFieldSet {b c : Body} (h : b.Alike σ c) : c.isFieldSet = b.isFieldSet := by
  cases h with
  | _ => rfl

namespace Descriptor.Alike

variable {d e : Descriptor}

theorem displayName (h : d.Alike σ e) : e.displayName = d.displayName := by
  rw [Descriptor.displayName, h.name, Descriptor.displayName]

theorem claim? (h : d.Alike σ e) : e.claim? = d.claim? := by
  have hbody := h.body
  rw [Descriptor.claim?, Descriptor.claim?, h.displayName]
  generalize d.body = b at hbody ⊢
  generalize e.body = c at hbody ⊢
  cases hbody with
  | _ => rfl

theorem isJson (h : d.Alike σ e) : e.isJson = d.isJson := by
  have hbody := h.body
  rw [Descriptor.isJson, Descriptor.isJson]
  generalize d.body = b at hbody ⊢
  generalize e.body = c at hbody ⊢
  cases hbody with
  | _ => rfl

end Descriptor.Alike

/-- Faults at ids that keep their names are equal if the types that they show are. -/
theorem Fault.Renamed.eq {f g : Fault} (h : Fault.Renamed id R f g)
    (hR : ∀ d e, d.body = .bare → R d e → d = e) : f = g := by
  cases h with
  | unsupportedField hbody hde | unsupportedDeclaration hbody hde => rw [hR _ _ hbody hde]
  | cyclic path => rw [List.map_id]
  | _ => rfl

theorem GenerationError.Renamed.eq {e e' : GenerationError} (h : e.Renamed id R e')
    (hR : ∀ d e, d.body = .bare → R d e → d = e) : e = e' := by
  cases h with
  | format e => rfl
  | fault hf => rw [hf.eq hR]

/-- Declarations that are exported under one name, if at all, and have one text. -/
structure Declaration.Alike (d e : Declaration) : Prop where
  exportName : e.exportName = d.exportName
  render : ∀ naming, e.render naming = d.render naming

namespace Registry

/-- Ids that correspond are expanded alike. -/
def ExpandAlike (σ : String → String) (R : Descriptor → Descriptor → Prop) (r r' : Registry) :
    Prop :=
  ∀ {x y : TypeId}, TypeId.Renamed σ x y → Agree (Fault.Renamed σ R) Eq (r.expand x) (r'.expand y)

/-- Expands a type in place, its members being expanded by `member`. -/
def expandInPlace (r : Registry) (member : TypeId → Except Fault TypeExpr) (d : Descriptor) :
    Except Fault TypeExpr :=
  match d.body with
  | .primitive p => .ok (.primitive p)
  | .literal v => .ok (.literal v)
  | .wrapper w item => do return .wrapper w (← member item)
  | .junction j items => do
    let ts ← items.mapM member
    match r.misnamed? items with
    | some fault => throw fault
    | none => return .junction j ts
  | .fieldSet _ _ | .bare => .error (.unsupportedField d)

theorem expandFrom_eq_inPlace (r : Registry) (path : List String) (id : String) :
    r.expandFrom path id =
      match r.get? id with
      | none => .error (.unresolved (.str id))
      | some d =>
        match d.displayName with
        | some name => .ok (.named name)
        | none =>
          match d.body.isFieldSet with
          | true => .ok (.synthetic id)
          | false =>
            if id ∈ path then .error (.cyclic (path ++ [id]))
            else r.expandInPlace (fun item ↦ r.expandFrom (path ++ [id]) item.text) d := by
  rw [expandFrom_eq]
  cases r.get? id with
  | none => rfl
  | some d =>
      dsimp only
      rw [expandInPlace]
      cases d.displayName with
      | some name => rfl
      | none =>
          cases d.body with
          | _ => rfl

theorem misnamed?_eq (r : Registry) (items : List TypeId) :
    r.misnamed? items =
      (items.map fun item ↦ (r.find? item).bind Descriptor.nameValue).zipIdx.findSome?
        fun (name, position) ↦
          match name with
          | none | some (.str _) => none
          | some name => some (.nameNotText position name) := by
  rw [misnamed?, List.zipIdx_map, List.findSome?_map]
  rfl

theorem exists_of_misnamed? {items : List TypeId} {fault : Fault}
    (h : r.misnamed? items = some fault) : ∃ position name, fault = .nameNotText position name := by
  obtain ⟨⟨item, position⟩, -, hfault⟩ := List.exists_of_findSome?_eq_some h
  dsimp only at hfault
  split at hfault
  · cases hfault
  · cases hfault
  · next name _ _ => exact ⟨position, name, (Option.some.inj hfault).symm⟩

/-- The ids that are looked up when the type registered under one is expanded after a path. The
members of a type are come to one after the other, none if the path closes at the type, and none
after the first that fails. -/
inductive LooksUp (r : Registry) : List String → String → String → Prop
  | self (path : List String) (id : String) : LooksUp r path id id
  | member {path : List String} {id x : String} {d : Descriptor} {item : TypeId}
      (hd : r.get? id = some d) (hname : d.displayName = none) (hid : id ∉ path)
      (hitem : Visits (fun item ↦ r.expandFrom (path ++ [id]) item.text) d.body.members item)
      (hx : LooksUp r (path ++ [id]) item.text x) : LooksUp r path id x

section

variable (hσ : Function.Injective σ) (hR : ∀ d e, R d e → d.Alike σ e)

include hR in
theorem misnamed?_renamed {items items' : List TypeId}
    (h : List.Forall₂ (TypeId.Renamed σ) items items')
    (hlinked : ∀ item ∈ items, Linked σ R r r' item.text) :
    r'.misnamed? items' = r.misnamed? items := by
  have hnames : List.Forall₂ (fun x y ↦ (r.find? x).bind Descriptor.nameValue =
      (r'.find? y).bind Descriptor.nameValue) items items' := by
    refine ((List.forall₂_and_left items items').2 ⟨hlinked, h⟩).imp ?_
    rintro x y ⟨hx, hxy⟩
    rw [find?, find?, hxy]
    cases hx with
    | missing hd he => rw [hd, he]
    | registered hd he hde _ =>
        rw [hd, he]
        exact (hR _ _ hde).name.symm
  rw [misnamed?_eq r, misnamed?_eq r']
  congr 2
  rw [← List.forall₂_eq_eq_eq, List.forall₂_map_left_iff, List.forall₂_map_right_iff]
  exact hnames.flip.imp fun _ _ h ↦ h.symm

include hR in
/-- Types are expanded alike in place if the members are that are come to. -/
theorem agree_expandInPlace {d e : Descriptor} (h : R d e) (hinline : d.body.isFieldSet = false)
    {f g : TypeId → Except Fault TypeExpr}
    (hlinked : ∀ x, Visits f d.body.members x → Linked σ R r r' x.text)
    (hfg : ∀ x, Visits f d.body.members x → ∀ y, TypeId.Renamed σ x y →
      Agree (Fault.Renamed σ R) Eq (f x) (g y)) :
    Agree (Fault.Renamed σ R) Eq (r.expandInPlace f d) (r'.expandInPlace g e) := by
  have hbody := (hR d e h).body
  rw [expandInPlace, expandInPlace]
  generalize hb : d.body = b at hbody hinline hlinked hfg ⊢
  generalize e.body = c at hbody ⊢
  cases hbody with
  | primitive p => exact .ok rfl
  | literal v => exact .ok rfl
  | bare => exact .error (.unsupportedField hb h)
  | fieldSet f f' fields fields' => cases hinline
  | @wrapper w x y hxy =>
      have hitem := hfg x (visits_head f x []) y hxy
      exact hitem.bind fun t t' ht ↦ .ok (congrArg (TypeExpr.wrapper w) ht)
  | @junction j items items' hitems =>
      have hmembers := Agree.mapM_of_visits hitems fun x y hx hxy ↦ hfg x hx y hxy
      refine hmembers.bind_of_eq_ok fun ts ts' hok hts ↦ ?_
      obtain rfl := List.forall₂_eq_eq_eq ▸ hts
      rw [misnamed?_renamed hR hitems fun x hx ↦ hlinked x (visits_of_mapM hok hx)]
      cases hfault : r.misnamed? items with
      | some fault =>
          obtain ⟨position, name, rfl⟩ := exists_of_misnamed? hfault
          exact .error (.nameNotText position name)
      | none => exact .ok rfl

include hσ hR in
/-- Expansions agree if what the first one looks up is linked. The induction is on the ids of the
first registry that are still to be visited. -/
theorem agree_expandFrom {path : List String} {id : String}
    (hlinked : ∀ x, r.LooksUp path id x → Linked σ R r r' x) :
    Agree (Fault.Renamed σ R) Eq (r.expandFrom path id) (r'.expandFrom (path.map σ) (σ id)) := by
  induction hn : (TypeExpr.unvisited r path).length using Nat.strongRecOn
    generalizing path id with
  | ind n ih =>
      rw [expandFrom_eq_inPlace, expandFrom_eq_inPlace r']
      cases hlinked id (.self path id) with
      | missing hd he =>
          rw [hd, he]
          exact .error (.unresolved id)
      | @registered d e hd he hde hfixed =>
          have halike := hR d e hde
          rw [hd, he]
          dsimp only
          rw [halike.displayName, halike.body.isFieldSet]
          cases hname : d.displayName with
          | some name => exact .ok rfl
          | none =>
              dsimp only
              cases hkind : d.body.isFieldSet with
              | true => exact .ok (congrArg TypeExpr.synthetic (hfixed hkind hname).symm)
              | false =>
                  have hpath : path.map σ ++ [σ id] = (path ++ [id]).map σ := by simp
                  have hcycle : σ id ∈ path.map σ ↔ id ∈ path := List.mem_map_of_injective hσ
                  rw [hpath]
                  by_cases hid : id ∈ path
                  · rw [if_pos hid, if_pos (hcycle.2 hid)]
                    exact .error (.cyclic (path ++ [id]))
                  · rw [if_neg hid, if_neg (mt hcycle.1 hid)]
                    apply agree_expandInPlace hR hde hkind
                    · intro x hx
                      exact hlinked x.text (.member hd hname hid hx (.self _ _))
                    · intro x hx y hxy
                      have hkey := Assoc.mem_keys_of_find? hd
                      have hlt := TypeExpr.length_unvisited_append_lt hkey hid
                      rw [hxy]
                      apply ih _ (hn ▸ hlt) _ rfl
                      intro z hz
                      exact hlinked z (.member hd hname hid hx hz)

include hσ hR in
theorem agree_expand (hlinked : ∀ x, Linked σ R r r' x) : ExpandAlike σ R r r' := by
  intro x y h
  rw [expand, expand, h]
  exact agree_expandFrom hσ hR fun z _ ↦ hlinked z

end

/-! ## Declarations -/

section

variable {D : Declaration → Declaration → Prop} (hR : ∀ d e, R d e → d.Renamed σ e)
  (hexpand : ExpandAlike σ R r r')

include hexpand in
theorem agree_member {p q : String × Field} (hkey : q.1 = p.1) (h : p.2.Renamed σ q.2) :
    Agree (Fault.Renamed σ R) Eq
      (do return (⟨p.1, ← r.expand p.2.typeId, p.2.note⟩ : Member))
      (do return (⟨q.1, ← r'.expand q.2.typeId, q.2.note⟩ : Member)) := by
  refine (hexpand h.typeId).bind ?_
  rintro t _ rfl
  rw [hkey, h.note]
  exact .ok rfl

include hR hexpand in
theorem agree_declare {id : String} {d e : Descriptor} (h : R d e)
    (hfixed : d.body.isFieldSet = true → d.displayName = none → σ id = id) :
    Agree (Fault.Renamed σ R) (Option.Rel Declaration.Alike) (r.declare id d)
      (r'.declare (σ id) e) := by
  have hrenamed := hR d e h
  have hbody := hrenamed.body
  rw [declare, declare]
  generalize hb : d.body = b at hbody hfixed ⊢
  generalize e.body = c at hbody ⊢
  cases hbody with
  | @fieldSet f fields fields' hfields =>
      have hmembers := hfields.imp fun p q hpq ↦ agree_member hexpand hpq.1 hpq.2
      refine (Agree.mapM hmembers).bind fun members members' heq ↦ .ok (.some ?_)
      obtain rfl := List.forall₂_eq_eq_eq ▸ heq
      refine ⟨hrenamed.alike.displayName, fun naming ↦ ?_⟩
      rw [Declaration.render, Declaration.render, Declaration.name, Declaration.name]
      dsimp only
      rw [hrenamed.alike.displayName, hrenamed.note]
      cases hname : d.displayName with
      | some name => rfl
      | none => rw [hfixed rfl hname]
  | bare => exact .error (.unsupportedDeclaration hb h)
  | _ => exact .ok .none

theorem agree_claimAny (names : Exports) (name : Option String) :
    Agree (Fault.Renamed σ R) Eq (names.claimAny name) (names.claimAny name) := by
  cases name with
  | none => exact .ok rfl
  | some name =>
      rw [Exports.claimAny, Exports.claim]
      split
      · exact .error (.duplicateName name)
      · exact .ok rfl

/-- Declarations are claimed alike if the types claim the same names. -/
theorem agree_emit (names : Exports) {p q : String × Descriptor}
    (hdeclare : Agree (Fault.Renamed σ R) (Option.Rel D) (r.declare p.1 p.2) (r'.declare q.1 q.2))
    (hclaim : q.2.claim? = p.2.claim?) :
    Agree (Fault.Renamed σ R) (fun a b ↦ Option.Rel D a.1 b.1 ∧ b.2 = a.2)
      (r.emit names p.1 p.2) (r'.emit names q.1 q.2) := by
  rw [emit_eq, emit_eq, hclaim]
  refine hdeclare.bind fun declaration declaration' hD ↦ ?_
  refine (agree_claimAny names p.2.claim?).bind ?_
  rintro names' _ rfl
  exact .ok ⟨hD, rfl⟩

theorem toExcept_emitList_cons (names : Exports) (p : String × Descriptor)
    (ds : List (String × Descriptor)) :
    (r.emitList names (p :: ds)).toExcept = (do
      let (declaration, names') ← r.emit names p.1 p.2
      let later ← (r.emitList names' ds).toExcept
      return declaration.toList ++ later) := by
  cases hemit : r.emit names p.1 p.2 with
  | error fault =>
      rw [emitList_cons_error hemit]
      rfl
  | ok result =>
      obtain ⟨declaration, names'⟩ := result
      rw [emitList_cons_ok hemit]
      change _ = (r.emitList names' ds).toExcept >>= _
      rw [Emission.toExcept, Emission.toExcept]
      cases (r.emitList names' ds).fault with
      | none => rfl
      | some fault => rfl

theorem agree_emitList {T : String × Descriptor → String × Descriptor → Prop} (names : Exports)
    {ds ds' : List (String × Descriptor)} (h : List.Forall₂ T ds ds')
    (hdeclare : ∀ p q, T p q → Agree (Fault.Renamed σ R) (Option.Rel D) (r.declare p.1 p.2)
      (r'.declare q.1 q.2)) (hclaim : ∀ p q, T p q → q.2.claim? = p.2.claim?) :
    Agree (Fault.Renamed σ R) (List.Forall₂ D)
      (r.emitList names ds).toExcept (r'.emitList names ds').toExcept := by
  induction h generalizing names with
  | nil => exact .ok .nil
  | @cons p q ds ds' hpq _ ih =>
      rw [toExcept_emitList_cons, toExcept_emitList_cons]
      refine (agree_emit names (hdeclare p q hpq) (hclaim p q hpq)).bind ?_
      rintro ⟨declaration, names'⟩ ⟨declaration', _⟩ ⟨hD, rfl⟩
      refine (ih _).bind fun later later' hlater ↦ .ok ?_
      cases hD with
      | none => exact hlater
      | some h => exact .cons h hlater

end

/-! ## Endpoints -/

theorem agree_signature (hexpand : ExpandAlike σ R r r') {e e' : Endpoint}
    (hinput : TypeId.Renamed σ e.input e'.input) (houtput : TypeId.Renamed σ e.output e'.output) :
    Agree (Fault.Renamed σ R) Eq (r.signature e) (r'.signature e') := by
  refine (hexpand hinput).bind ?_
  rintro input _ rfl
  refine (hexpand houtput).bind ?_
  rintro output _ rfl
  exact .ok rfl

mutual

theorem agree_surface (hexpand : ExpandAlike σ R r r') {e e' : Entry} (h : e.Renamed σ e') :
    Agree (Fault.Renamed σ R) Eq (r.surface e) (r'.surface e') := by
  cases h with
  | endpoint hinput houtput hnote =>
      rw [surface, surface, hnote]
      refine (agree_signature hexpand hinput houtput).bind ?_
      rintro signature _ rfl
      exact .ok rfl
  | branch h =>
      rw [surface, surface]
      refine (agree_surfaces hexpand h).bind ?_
      rintro members _ rfl
      exact .ok rfl
  | foreign x =>
      rw [surface, surface]
      exact .error (.unsupportedEntry x)

theorem agree_surfaces (hexpand : ExpandAlike σ R r r') {level level' : List (String × Entry)}
    (h : RenamedLevel σ level level') :
    Agree (Fault.Renamed σ R) Eq (r.surfaces level) (r'.surfaces level') := by
  cases h with
  | nil =>
      rw [surfaces, surfaces]
      exact .ok rfl
  | cons key he hrest =>
      rw [surfaces, surfaces]
      refine (agree_surface hexpand he).bind ?_
      rintro s _ rfl
      refine (agree_surfaces hexpand hrest).bind ?_
      rintro members _ rfl
      exact .ok rfl

end

end Registry

/-! ## Descriptions -/

/-- A description whose ids are renamed, its types being related, and in which each field set
without a name keeps its id. -/
structure Description.Related (σ : String → String) (R : Descriptor → Descriptor → Prop)
    (d d' : Description) : Prop where
  types : List.Forall₂ (fun p q ↦ q.1 = σ p.1 ∧ R p.2 q.2) d.types.entries d'.types.entries
  fixed : ∀ p ∈ d.types.entries, p.2.body.isFieldSet = true → p.2.displayName = none → σ p.1 = p.1
  entries : RenamedLevel σ d.entries d'.entries

theorem Assoc.find?_related {ds ds' : List (String × Descriptor)} (hσ : Function.Injective σ)
    (h : List.Forall₂ (fun p q ↦ q.1 = σ p.1 ∧ R p.2 q.2) ds ds') (x : String) :
    Option.Rel R (find? x ds) (find? (σ x) ds') := by
  induction h with
  | nil => exact .none
  | @cons p q ds ds' hpq _ ih =>
      rw [find?, find?, hpq.1]
      by_cases hx : p.1 = x
      · rw [if_pos hx, if_pos (congrArg σ hx)]
        exact .some hpq.2
      · rw [if_neg hx, if_neg (hσ.ne hx)]
        exact ih

theorem Registry.linked_of_forall₂ (hσ : Function.Injective σ)
    (h : List.Forall₂ (fun p q ↦ q.1 = σ p.1 ∧ R p.2 q.2) r.entries r'.entries)
    (hfixed : ∀ p ∈ r.entries, p.2.body.isFieldSet = true → p.2.displayName = none → σ p.1 = p.1)
    (x : String) : Linked σ R r r' x := by
  have hfind : Option.Rel R (r.get? x) (r'.get? (σ x)) := Assoc.find?_related hσ h x
  generalize hd : r.get? x = found at hfind
  generalize he : r'.get? (σ x) = found' at hfind
  cases hfind with
  | none => exact .missing hd he
  | @some d e hde => exact .registered hd he hde (hfixed (x, d) (Table.get?_eq_some_iff.1 hd))

namespace Description

variable {d d' : Description}

theorem Related.linked (h : d.Related σ R d') (hσ : Function.Injective σ) (x : String) :
    Registry.Linked σ R d.types d'.types x :=
  Registry.linked_of_forall₂ hσ h.types h.fixed x

theorem Related.hasJson (h : d.Related σ R d') (hR : ∀ d e, R d e → d.Renamed σ e) :
    d'.types.hasJson = d.types.hasJson := by
  have hentries := h.types
  rw [Registry.hasJson, Registry.hasJson, Table.values, Table.values, List.any_map, List.any_map]
  generalize d.types.entries = ds at hentries ⊢
  generalize d'.types.entries = ds' at hentries ⊢
  induction hentries with
  | nil => rfl
  | cons hpq _ ih =>
      rw [List.any_cons, List.any_cons, ih]
      exact congrArg (· || _) (hR _ _ hpq.2).alike.isJson

/-- Modules that have one text. -/
theorem Related.agree_toModule (h : d.Related σ R d') (hσ : Function.Injective σ)
    (hR : ∀ d e, R d e → d.Renamed σ e) :
    Agree (Fault.Renamed σ R) (fun m m' ↦ ∀ naming, m'.render naming = m.render naming)
      d.toModule d'.toModule := by
  have hexpand : Registry.ExpandAlike σ R d.types d'.types :=
    Registry.agree_expand hσ (fun d e hde ↦ (hR d e hde).alike) (h.linked hσ)
  rw [toModule, toModule, h.hasJson hR]
  have htypes := (List.forall₂_and_left _ _).2 ⟨h.fixed, h.types⟩
  have hdeclarations := Registry.agree_emitList (D := Declaration.Alike) .empty htypes
    (fun p q hpq ↦ hpq.2.1 ▸ Registry.agree_declare hR hexpand hpq.2.2 hpq.1)
    fun p q hpq ↦ (hR _ _ hpq.2.2).alike.claim?
  refine hdeclarations.bind ?_
  intro declarations declarations' halike
  refine (Registry.agree_surfaces hexpand h.entries).bind ?_
  rintro surface _ rfl
  refine .ok fun naming ↦ ?_
  have htexts : declarations'.map (Declaration.render naming) =
      declarations.map (Declaration.render naming) := by
    rw [← List.forall₂_eq_eq_eq, List.forall₂_map_left_iff, List.forall₂_map_right_iff]
    exact halike.flip.imp fun _ _ he ↦ he.render naming
  rw [Module.render, Module.render, Module.parts, Module.parts, htexts]

theorem Related.agree_generate (h : d.Related σ R d') (hσ : Function.Injective σ)
    (hR : ∀ d e, R d e → d.Renamed σ e) (options : Options) :
    Agree (GenerationError.Renamed σ R) Eq (generate options d) (generate options d') := by
  have hmodule := h.agree_toModule hσ hR
  rw [generate, generate]
  generalize d.toModule = x at hmodule ⊢
  generalize d'.toModule = y at hmodule ⊢
  cases hmodule with
  | error hf => exact .error (.fault hf)
  | ok hm =>
      dsimp only
      rw [hm]
      split
      · next e _ => exact .error (.format e)
      · exact .ok rfl

end Description

/-- A list, a field set with a name and one without. -/
def pages : Description where
  types := Table.ofList
    [("1", .ofBody (.wrapper .list) none .none (.wrapper .list (.str "2"))),
      ("2", .ofBody (.primitive .string) none .none (.primitive .string)),
      ("3", .ofBody (.fieldSet .struct) (some "Page") .none
        (.fieldSet .struct (Table.ofList [("items", ⟨.str "1", .none⟩)]))),
      ("4", .ofBody (.fieldSet .object) none .none
        (.fieldSet .object (Table.ofList [("page", ⟨.int 3, .none⟩)])))]
  entries := [("get", .endpoint ⟨.str "4", .str "1", .none⟩)]

theorem pages_generable : pages.Generable := by
  have hlist : pages.types.Resolves (.str "1") :=
    ⟨_, Registry.expand_eq_ok_iff.2 (.wrapper rfl rfl rfl (.primitive rfl rfl rfl))⟩
  have hpage : pages.types.Resolves (.int 3) := ⟨_, Registry.expand_eq_ok_iff.2 (.named rfl rfl)⟩
  have hobject : pages.types.Resolves (.str "4") :=
    ⟨_, Registry.expand_eq_ok_iff.2 (.fieldSet rfl rfl rfl)⟩
  have hchecks : ∀ c ∈ pages.checks, c.fault? pages.types = none := by
    change ∀ c ∈ [Check.kind _, .kind _, .kind _, .type (.str "1"), .name [] "Page", .kind _,
      .type (.int 3), .type (.str "4"), .type (.str "1")], _
    simp only [List.forall_mem_cons, Registry.fault?_type_eq_none_iff]
    exact ⟨rfl, rfl, rfl, hlist, rfl, rfl, hpage, hobject, hlist, by simp⟩
  exact pages.checks_pass_iff_generable.1 hchecks

end Typings
