import Mathlib.Data.List.Pairwise
import Typings.Generation
import Typings.Proofs.Outcome

/-!
# The first fault

Generation depends on a row of checks: for each type in registry order its kind, its fields and its
name, then what stands in the endpoint tree from its first entry on, the input of an endpoint before
its output. It ends with the fault of the first check that fails.
-/

namespace Typings

/-! ## The fault of a computation -/

def failure? {ε α : Type} : Except ε α → Option ε
  | .error e => some e
  | .ok _ => none

section

variable {ε α β : Type}

theorem failure?_eq_none_iff {x : Except ε α} : failure? x = none ↔ ∃ a, x = .ok a := by
  cases x <;> simp [failure?]

/-- A computation in two steps has the fault of the first, or else that of the second. -/
theorem failure?_bind {x : Except ε α} {k : α → Except ε β} {second : Option ε}
    (h : ∀ a, x = .ok a → failure? (k a) = second) :
    failure? (x >>= k) = (failure? x).or second := by
  cases x with
  | error e => rfl
  | ok a => exact h a rfl

/-- What is done with a result at the end brings no fault. -/
theorem failure?_bind_pure (x : Except ε α) (g : α → β) :
    failure? (x >>= fun a ↦ pure (g a)) = failure? x := by
  cases x <;> rfl

theorem failure?_mapM (f : α → Except ε β) (xs : List α) :
    failure? (xs.mapM f) = xs.findSome? fun x ↦ failure? (f x) := by
  induction xs with
  | nil => rfl
  | cons x xs ih =>
      have hcons : failure? ((x :: xs).mapM f) = (failure? (f x)).or (failure? (xs.mapM f)) := by
        rw [List.mapM_cons]
        exact failure?_bind fun y _ ↦ failure?_bind_pure (xs.mapM f) (y :: ·)
      rw [hcons, ih, List.findSome?_cons]
      cases failure? (f x) <;> rfl

end

/-! ## Checks -/

/-- Something that generation depends on. -/
inductive Check where
  /-- A type is declared or written in place. -/
  | kind (d : Descriptor)
  /-- A type that is referred to can be mentioned. -/
  | type (id : TypeId)
  /-- A name is not among the names that are taken. -/
  | name (taken : List String) (s : String)
  /-- An entry is an endpoint or a namespace; this one is neither. -/
  | entry (x : Value)

def Check.fault? (r : Registry) : Check → Option Fault
  | .kind d =>
    match d.body with
    | .bare => some (.unsupportedDeclaration d)
    | _ => none
  | .type id => failure? (r.expand id)
  | .name taken s => if s ∈ taken then some (.duplicateName s) else none
  | .entry x => some (.unsupportedEntry x)

/-- The name that a type is declared under. -/
def Descriptor.claim? (d : Descriptor) : Option String :=
  match d.body with
  | .fieldSet _ _ => d.displayName
  | _ => none

def Body.references : Body → List TypeId
  | .fieldSet _ fields => fields.entries.map fun (_, field) ↦ field.typeId
  | _ => []

/-- The checks of a type: its kind, its fields, and the name that it claims. -/
def Descriptor.checks (taken : List String) (d : Descriptor) : List Check :=
  .kind d :: (d.body.references.map .type ++ d.claim?.toList.map (.name taken))

/-- The checks of types, where some names are taken already. -/
def typeChecks (taken : List String) : List (String × Descriptor) → List Check
  | [] => []
  | (_, d) :: rest => d.checks taken ++ typeChecks (taken ++ d.claim?.toList) rest

mutual

def Entry.checks : Entry → List Check
  | .endpoint e => [.type e.input, .type e.output]
  | .branch children => levelChecks children
  | .foreign x => [.entry x]

def levelChecks : List (String × Entry) → List Check
  | [] => []
  | (_, e) :: rest => Entry.checks e ++ levelChecks rest

end

def Description.checks (d : Description) : List Check :=
  typeChecks [] d.types.entries ++ levelChecks d.entries

/-! ## Generation makes the checks -/

namespace Exports

/-- Claims a name if there is one. -/
def claimAny (names : Exports) : Option String → Except Fault Exports
  | some name => names.claim name
  | none => .ok names

theorem failure?_claimAny (r : Registry) (names : Exports) (name : Option String) :
    failure? (names.claimAny name) =
      (name.toList.map (Check.name names.names)).findSome? (Check.fault? r) := by
  cases name with
  | none => rfl
  | some name =>
      rw [claimAny, claim, Option.toList_some, List.map_singleton, List.findSome?_singleton]
      by_cases h : name ∈ names.names <;> simp [contains, h, failure?, Check.fault?]

theorem names_of_claimAny {names names' : Exports} {name : Option String}
    (h : names.claimAny name = .ok names') : names'.names = names.names ++ name.toList := by
  cases name with
  | none =>
      obtain rfl := Except.ok.inj h
      simp
  | some name =>
      rw [claimAny, claim] at h
      split at h
      · cases h
      · rw [← Except.ok.inj h, Option.toList_some]

end Exports

namespace Registry

variable {r : Registry}

theorem failure?_declare (id : String) (d : Descriptor) :
    failure? (r.declare id d) =
      (Check.kind d :: d.body.references.map .type).findSome? (Check.fault? r) := by
  cases hbody : d.body with
  | fieldSet f fields =>
      have hfield (p : String × Field) :
          failure? (do
            let type ← r.expand p.2.typeId
            return { key := p.1, type, note := p.2.note : Member }) =
          failure? (r.expand p.2.typeId) :=
        failure?_bind_pure _ _
      rw [declare, hbody]
      refine (failure?_bind_pure _ _).trans ?_
      simp only [failure?_mapM, hfield]
      simp [Check.fault?, hbody, Body.references, List.findSome?_map, Function.comp_def]
  | bare => simp [declare, hbody, Check.fault?, failure?]
  | _ => simp [declare, hbody, Check.fault?, failure?, Body.references]

theorem exportName_of_declare {id : String} {d : Descriptor} {declaration : Option Declaration}
    (h : r.declare id d = .ok declaration) :
    declaration.bind Declaration.exportName = d.claim? := by
  rw [declare] at h
  rw [Descriptor.claim?]
  split at h
  · obtain ⟨members, _, hmembers⟩ := exists_of_bind_eq_ok h
    obtain rfl := Except.ok.inj hmembers
    simp_all
  · cases h
  · obtain rfl := Except.ok.inj h
    split <;> simp_all

theorem emit_eq (names : Exports) (id : String) (d : Descriptor) :
    r.emit names id d = (r.declare id d >>= fun declaration ↦
      names.claimAny d.claim? >>= fun names' ↦ pure (declaration, names')) := by
  rw [emit]
  cases hdeclare : r.declare id d with
  | error fault => rfl
  | ok declaration =>
      rw [← exportName_of_declare hdeclare]
      cases declaration with
      | none => rfl
      | some declaration =>
          obtain ⟨_, _, exportName, _, _⟩ := declaration
          cases exportName <;> rfl

/-- Declaring a type makes its checks, and takes the name that it claims. -/
theorem failure?_emit (names : Exports) (id : String) (d : Descriptor) :
    failure? (r.emit names id d) = (d.checks names.names).findSome? (Check.fault? r) := by
  rw [emit_eq, Descriptor.checks, ← List.cons_append, List.findSome?_append, ← failure?_declare,
    ← Exports.failure?_claimAny]
  exact failure?_bind fun _ _ ↦ failure?_bind_pure _ _

theorem names_of_emit {names names' : Exports} {id : String} {d : Descriptor}
    {declaration : Option Declaration} (h : r.emit names id d = .ok (declaration, names')) :
    names'.names = names.names ++ d.claim?.toList := by
  rw [emit_eq] at h
  obtain ⟨_, _, h⟩ := exists_of_bind_eq_ok h
  obtain ⟨names₁, hclaim, h⟩ := exists_of_bind_eq_ok h
  obtain rfl := congrArg Prod.snd (Except.ok.inj h)
  exact Exports.names_of_claimAny hclaim

theorem emitList_cons_error {names : Exports} {p : String × Descriptor} {fault : Fault}
    (h : r.emit names p.1 p.2 = .error fault) (ds : List (String × Descriptor)) :
    r.emitList names (p :: ds) = ⟨[], names, some fault⟩ := by
  rw [emitList, h]

theorem emitList_cons_ok {names names' : Exports} {p : String × Descriptor}
    {declaration : Option Declaration} (h : r.emit names p.1 p.2 = .ok (declaration, names'))
    (ds : List (String × Descriptor)) :
    r.emitList names (p :: ds) =
      { r.emitList names' ds with
        declarations := declaration.toList ++ (r.emitList names' ds).declarations } := by
  rw [emitList, h]

theorem fault_emitList (names : Exports) (ds : List (String × Descriptor)) :
    (r.emitList names ds).fault = (typeChecks names.names ds).findSome? (Check.fault? r) := by
  induction ds generalizing names with
  | nil => rfl
  | cons p ds ih =>
      rw [typeChecks, List.findSome?_append, ← failure?_emit (r := r) names p.1 p.2]
      cases hemit : r.emit names p.1 p.2 with
      | error fault =>
          rw [emitList_cons_error hemit]
          rfl
      | ok result =>
          rw [emitList_cons_ok hemit, ← names_of_emit hemit]
          exact ih result.2

mutual

theorem failure?_surface (e : Entry) :
    failure? (r.surface e) = e.checks.findSome? (Check.fault? r) := by
  match e with
  | .endpoint e =>
      have hsignature : failure? (r.signature e) =
          (failure? (r.expand e.input)).or (failure? (r.expand e.output)) :=
        failure?_bind fun _ _ ↦ failure?_bind_pure _ _
      rw [surface, Entry.checks]
      refine (failure?_bind_pure _ _).trans ?_
      rw [hsignature]
      simp only [List.findSome?_cons, List.findSome?_nil, Check.fault?]
      cases failure? (r.expand e.input) <;> cases failure? (r.expand e.output) <;> rfl
  | .branch children =>
      rw [surface, Entry.checks, ← failure?_surfaces children]
      exact failure?_bind_pure _ _
  | .foreign x =>
      rw [surface, Entry.checks]
      rfl

theorem failure?_surfaces (es : List (String × Entry)) :
    failure? (r.surfaces es) = (levelChecks es).findSome? (Check.fault? r) := by
  match es with
  | [] => rfl
  | (key, e) :: rest =>
      rw [surfaces, levelChecks, List.findSome?_append, ← failure?_surface e,
        ← failure?_surfaces rest]
      exact failure?_bind fun _ _ ↦ failure?_bind_pure _ _

end

end Registry

theorem Emission.failure?_toExcept (e : Emission) : failure? e.toExcept = e.fault := by
  rw [toExcept]
  cases e.fault <;> rfl

theorem Description.failure?_toModule (d : Description) :
    failure? d.toModule = d.checks.findSome? (Check.fault? d.types) := by
  have hemission : failure? (d.types.emitAll .empty).toExcept =
      (typeChecks [] d.types.entries).findSome? (Check.fault? d.types) := by
    rw [Emission.failure?_toExcept, Registry.emitAll, Registry.fault_emitList]
    rfl
  rw [checks, List.findSome?_append, ← hemission, ← Registry.failure?_surfaces]
  exact failure?_bind fun _ _ ↦ failure?_bind_pure _ _

/-! ## Descriptions that pass -/

/-- An entry stands in a tree, at whatever depth. -/
inductive Occurs : Namespace → Entry → Prop
  | here {level : Namespace} {key : String} {e : Entry} (h : (key, e) ∈ level) : Occurs level e
  | deeper {level children : Namespace} {key : String} {e : Entry}
      (h : (key, .branch children) ∈ level) (he : Occurs children e) : Occurs level e

theorem levelChecks_eq_flatMap (es : List (String × Entry)) :
    levelChecks es = es.flatMap fun p ↦ p.2.checks := by
  induction es with
  | nil => rfl
  | cons p es ih => rw [levelChecks, ih, List.flatMap_cons]

theorem Occurs.checks_subset {level : Namespace} {e : Entry} (h : Occurs level e) :
    e.checks ⊆ levelChecks level := by
  induction h with
  | here h =>
      rw [levelChecks_eq_flatMap]
      exact fun c hc ↦ List.mem_flatMap.2 ⟨_, h, hc⟩
  | deeper h _ ih =>
      rw [levelChecks_eq_flatMap]
      refine fun c hc ↦ List.mem_flatMap.2 ⟨_, h, ?_⟩
      rw [Entry.checks]
      exact ih hc

theorem Occurs.cons {level : Namespace} {e : Entry} (p : String × Entry) (h : Occurs level e) :
    Occurs (p :: level) e := by
  cases h with
  | here h => exact .here (List.mem_cons_of_mem p h)
  | deeper h he => exact .deeper (List.mem_cons_of_mem p h) he

/-- A check of a tree is one of an entry in it that is no namespace. -/
theorem exists_occurs_of_mem {c : Check} (es : List (String × Entry)) (h : c ∈ levelChecks es) :
    ∃ e, Occurs es e ∧ c ∈ e.checks ∧ ∀ children, e ≠ .branch children := by
  match es with
  | [] => cases h
  | (key, .endpoint e) :: rest =>
      rcases List.mem_append.1 h with h | h
      · exact ⟨.endpoint e, .here List.mem_cons_self, h, by simp⟩
      · obtain ⟨e, he, hc⟩ := exists_occurs_of_mem rest h
        exact ⟨e, he.cons _, hc⟩
  | (key, .branch children) :: rest =>
      rcases List.mem_append.1 h with h | h
      · obtain ⟨e, he, hc⟩ := exists_occurs_of_mem children h
        exact ⟨e, .deeper List.mem_cons_self he, hc⟩
      · obtain ⟨e, he, hc⟩ := exists_occurs_of_mem rest h
        exact ⟨e, he.cons _, hc⟩
  | (key, .foreign x) :: rest =>
      rcases List.mem_append.1 h with h | h
      · exact ⟨.foreign x, .here List.mem_cons_self, h, by simp⟩
      · obtain ⟨e, he, hc⟩ := exists_occurs_of_mem rest h
        exact ⟨e, he.cons _, hc⟩

/-- In a table no two entries agree on what is read off them exactly if entries that agree are
under one key. -/
theorem Table.pairwise_iff {ν α : Type} {t : Table ν} (f : String × ν → Option α) :
    (t.entries.Pairwise fun p q ↦ ∀ a, f p = some a → f q ≠ some a) ↔
      ∀ p ∈ t.entries, ∀ q ∈ t.entries, ∀ a, f p = some a → f q = some a → p.1 = q.1 := by
  have hnodup := t.nodup_keys
  constructor
  · intro h p hp q hq a hpa hqa
    by_contra hne
    have : Std.Symm fun p q : String × ν ↦ ∀ a, f p = some a → f q ≠ some a :=
      ⟨fun p q h a hq hp ↦ h a hp hq⟩
    exact h.forall hp hq (fun heq ↦ hne (congrArg Prod.fst heq)) a hpa hqa
  · intro h
    refine (List.pairwise_map.1 hnodup).imp_of_mem fun hp hq hne a hpa hqa ↦ ?_
    exact hne (h _ hp _ hq a hpa hqa)

namespace Registry

/-- A type can be mentioned. -/
def Resolves (r : Registry) (id : TypeId) : Prop := ∃ t, r.expand id = .ok t

variable {r : Registry}

theorem fault?_type_eq_none_iff {id : TypeId} :
    (Check.type id).fault? r = none ↔ r.Resolves id :=
  failure?_eq_none_iff

theorem levelChecks_pass_iff {es : List (String × Entry)} :
    (∀ c ∈ levelChecks es, c.fault? r = none) ↔
      (∀ x, ¬ Occurs es (.foreign x)) ∧
        ∀ e, Occurs es (.endpoint e) → r.Resolves e.input ∧ r.Resolves e.output := by
  constructor
  · intro h
    refine ⟨fun x hx ↦ ?_, fun e he ↦ ?_⟩
    · have hfault := h (.entry x) (hx.checks_subset (by simp [Entry.checks]))
      cases hfault
    · simp only [← fault?_type_eq_none_iff]
      exact ⟨h _ (he.checks_subset (by simp [Entry.checks])),
        h _ (he.checks_subset (by simp [Entry.checks]))⟩
  · rintro ⟨hforeign, hendpoint⟩ c hc
    obtain ⟨e, he, hc, hbranch⟩ := exists_occurs_of_mem es hc
    match e with
    | .endpoint e =>
        obtain ⟨hinput, houtput⟩ := hendpoint e he
        have hfault : ∀ c ∈ [Check.type e.input, .type e.output], c.fault? r = none := by
          simp [fault?_type_eq_none_iff, hinput, houtput]
        exact hfault c hc
    | .branch children => exact absurd rfl (hbranch children)
    | .foreign x => exact absurd he (hforeign x)

theorem checks_pass_iff {taken : List String} {d : Descriptor} :
    (∀ c ∈ d.checks taken, c.fault? r = none) ↔
      d.body ≠ .bare ∧ (∀ id ∈ d.body.references, r.Resolves id) ∧
        ∀ s, d.claim? = some s → s ∉ taken := by
  rw [Descriptor.checks, List.forall_mem_cons, List.forall_mem_append]
  refine and_congr ?_ (and_congr ?_ ?_)
  · rw [Check.fault?]
    cases d.body <;> simp
  · simp [fault?_type_eq_none_iff]
  · cases d.claim? <;> simp [Check.fault?]

theorem forall_notMem_append_iff {taken : List String} {d : Descriptor}
    {ds : List (String × Descriptor)} :
    (∀ p ∈ ds, ∀ s, p.2.claim? = some s → s ∉ taken ++ d.claim?.toList) ↔
      (∀ p ∈ ds, ∀ s, p.2.claim? = some s → s ∉ taken) ∧
        ∀ p ∈ ds, ∀ s, d.claim? = some s → p.2.claim? ≠ some s := by
  simp only [List.mem_append, Option.mem_toList, not_or]
  constructor
  · intro h
    exact ⟨fun p hp s hs ↦ (h p hp s hs).1, fun p hp s hd hs ↦ (h p hp s hs).2 hd⟩
  · rintro ⟨htaken, hd⟩ p hp s hs
    exact ⟨htaken p hp s hs, fun hmem ↦ hd p hp s hmem hs⟩

theorem typeChecks_pass_iff {taken : List String} {ds : List (String × Descriptor)} :
    (∀ c ∈ typeChecks taken ds, c.fault? r = none) ↔
      (∀ p ∈ ds, p.2.body ≠ .bare) ∧ (∀ p ∈ ds, ∀ id ∈ p.2.body.references, r.Resolves id) ∧
        (∀ p ∈ ds, ∀ s, p.2.claim? = some s → s ∉ taken) ∧
        ds.Pairwise fun p q ↦ ∀ s, p.2.claim? = some s → q.2.claim? ≠ some s := by
  induction ds generalizing taken with
  | nil => simp [typeChecks]
  | cons p ds ih =>
      obtain ⟨id, d⟩ := p
      rw [typeChecks, List.forall_mem_append, checks_pass_iff, ih, forall_notMem_append_iff]
      simp only [List.forall_mem_cons, List.pairwise_cons]
      constructor
      · rintro ⟨⟨hkind, hfields, hname⟩, hkinds, hallFields, ⟨hnames, hdistinct⟩, hpairwise⟩
        exact ⟨⟨hkind, hkinds⟩, ⟨hfields, hallFields⟩, ⟨hname, hnames⟩, hdistinct, hpairwise⟩
      · rintro ⟨⟨hkind, hkinds⟩, ⟨hfields, hallFields⟩, ⟨hname, hnames⟩, hdistinct, hpairwise⟩
        exact ⟨⟨hkind, hfields, hname⟩, hkinds, hallFields, ⟨hnames, hdistinct⟩, hpairwise⟩

/-- In a registry no two types claim one name exactly if types with one name have one id. -/
theorem pairwise_claims_iff :
    (r.entries.Pairwise fun p q ↦ ∀ s, p.2.claim? = some s → q.2.claim? ≠ some s) ↔
      ∀ p ∈ r.entries, ∀ q ∈ r.entries, ∀ s, p.2.claim? = some s → q.2.claim? = some s →
        p.1 = q.1 :=
  Table.pairwise_iff fun p : String × Descriptor ↦ p.2.claim?

end Registry

/-- What has to hold for a module to be generated. -/
structure Description.Generable (d : Description) : Prop where
  declarable : ∀ p ∈ d.types.entries, p.2.body ≠ .bare
  fields : ∀ p ∈ d.types.entries, ∀ id ∈ p.2.body.references, d.types.Resolves id
  names : ∀ p ∈ d.types.entries, ∀ q ∈ d.types.entries, ∀ s, p.2.claim? = some s →
    q.2.claim? = some s → p.1 = q.1
  entries : ∀ x, ¬ Occurs d.entries (.foreign x)
  endpoints : ∀ e, Occurs d.entries (.endpoint e) →
    d.types.Resolves e.input ∧ d.types.Resolves e.output

theorem Description.checks_pass_iff_generable (d : Description) :
    (∀ c ∈ d.checks, c.fault? d.types = none) ↔ d.Generable := by
  rw [checks, List.forall_mem_append, Registry.typeChecks_pass_iff, Registry.levelChecks_pass_iff,
    Registry.pairwise_claims_iff]
  constructor
  · rintro ⟨⟨hkinds, hfields, -, hnames⟩, hforeign, hendpoints⟩
    exact ⟨hkinds, hfields, hnames, hforeign, hendpoints⟩
  · rintro ⟨hkinds, hfields, hnames, hforeign, hendpoints⟩
    exact ⟨⟨hkinds, hfields, by simp, hnames⟩, hforeign, hendpoints⟩

theorem generate_identity_eq (naming : Naming) (d : Description) :
    generate { toNaming := naming, formatter := .identity } d =
      match d.toModule with
      | .error f => .error (.fault f)
      | .ok m => .ok (m.render naming) := by
  rw [generate]
  cases d.toModule <;> rfl

/-- Without a formatter to refuse its source, a module is generated exactly if every check passes;
otherwise the outcome is the fault of the first check that does not. -/
theorem generate_identity (naming : Naming) (d : Description) :
    ((∃ text, generate { toNaming := naming, formatter := .identity } d = .ok text) ↔
        d.Generable) ∧
      ∀ e, generate { toNaming := naming, formatter := .identity } d = .error e ↔
        ∃ before c after f, d.checks = before ++ c :: after ∧
          (∀ b ∈ before, b.fault? d.types = none) ∧ c.fault? d.types = some f ∧ e = .fault f := by
  have hmodule := d.failure?_toModule
  rw [generate_identity_eq, ← d.checks_pass_iff_generable, ← List.findSome?_eq_none_iff, ← hmodule]
  refine ⟨?_, fun e ↦ ?_⟩
  · cases d.toModule <;> simp [failure?]
  · have herror : (match d.toModule with
          | .error f => .error (.fault f)
          | .ok m => .ok (m.render naming) : Except GenerationError String) = .error e ↔
        ∃ f, failure? d.toModule = some f ∧ e = .fault f := by
      cases d.toModule <;> simp [failure?, eq_comm]
    simp only [herror, hmodule, List.findSome?_eq_some_iff]
    constructor
    · rintro ⟨f, ⟨before, c, after, hchecks, hfails, hpass⟩, he⟩
      exact ⟨before, c, after, f, hchecks, hpass, hfails, he⟩
    · rintro ⟨before, c, after, f, hchecks, hpass, hfails, he⟩
      exact ⟨f, ⟨before, c, after, hchecks, hfails, hpass⟩, he⟩

end Typings
