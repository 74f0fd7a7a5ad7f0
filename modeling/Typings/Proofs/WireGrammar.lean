import Typings.Proofs.RoundTrip

/-!
# The wire format as a grammar

What a description looks like on the wire, said without the decoder: which keys an object has to
have and what has to stand under them. The decoder accepts what has this form and nothing else, and
what it refuses it refuses for the data in it.
-/

namespace Typings

theorem exists_traverse_eq_ok_iff {α β δ : Type} {decode : String → β → Except δ α}
    {vs : List (String × β)} :
    (∃ xs, (vs.mapM fun p ↦ do return (p.1, ← decode p.1 p.2)) = .ok xs) ↔
      ∀ p ∈ vs, ∃ x, decode p.1 p.2 = .ok x := by
  simp only [exists_mapM_eq_ok_iff, exists_bind_eq_ok_iff, exists_pure_eq_ok, and_true]

/-- There are descriptors of every kind in a catalog. -/
def Catalog.IsInhabited (c : Catalog) : Prop :=
  ∀ tag kind, c.get? tag = some kind → kind.isInhabited = true

end Typings

namespace Typings.Wire

/-! ## The grammar -/

section Grammar

variable (members : List (String × Json))

/-- There is an id, which may be anything but must have a text: no integer in it has more digits
than may be converted. -/
def HasId (key : String) : Prop := ∃ v, Assoc.find? key members = some v ∧ v.hasText = true

/-- Absent, null or a text. -/
def HasOptionalText (key : String) : Prop :=
  ∀ v, Assoc.find? key members = some v → v = .null ∨ ∃ s, v = .str s

def HasNote : Prop := HasOptionalText members "description" ∧ HasOptionalText members "deprecated"

def IsField (v : Json) : Prop :=
  ∃ members, v = .obj members ∧ HasId members "typeId" ∧ HasNote members

def IsLiteral : Json → Prop
  | .str _ | .bool _ | .int _ => True
  | .float x => x.isFinite = true
  | _ => False

/-- What a kind has of its own. -/
def HasOwn : Builtin → Prop
  | .primitive _ => True
  | .literal => ∃ v, Assoc.find? "value" members = some v ∧ IsLiteral v
  | .wrapper _ => HasId members "itemTypeId"
  | .junction _ =>
    ∃ items, Assoc.find? "itemTypeIds" members = some (.arr items) ∧
      ∀ item ∈ items, item.hasText = true
  | .fieldSet _ =>
    ∃ fields, Assoc.find? "fields" members = some (.obj fields) ∧ ∀ p ∈ fields, IsField p.2

def IsType (v : Json) : Prop :=
  ∃ members b, v = .obj members ∧ Assoc.find? "type" members = some (.str (Builtin.tag b)) ∧
    HasOptionalText members "name" ∧ HasNote members ∧ HasOwn members b

def HasReference (key : String) : Prop :=
  ∃ reference, Assoc.find? key members = some (.obj reference) ∧ HasId reference "typeId"

end Grammar

mutual

inductive IsEntry : Json → Prop
  | endpoint {members : List (String × Json)}
      (type : Assoc.find? "type" members = some (.str "Api"))
      (input : HasReference members "input") (output : HasReference members "output")
      (note : HasNote members) : IsEntry (.obj members)
  | branch {members : List (String × Json)}
      (type : Assoc.find? "type" members = some (.str "Entries"))
      (namespaced : IsNamespace members) : IsEntry (.obj members)

/-- The members of a namespace. Whether there is a type among them is left to the entry that the
namespace is, and the outermost one is no entry. -/
inductive IsNamespace : List (String × Json) → Prop
  | intro {members children : List (String × Json)}
      (entries : Assoc.find? "entries" members = some (.obj children))
      (all : ∀ p ∈ children, IsEntry p.2) : IsNamespace members

end

def IsDescription (v : Json) : Prop :=
  ∃ members types entries, v = .obj members ∧
    Assoc.find? "types" members = some (.obj types) ∧ (∀ p ∈ types, IsType p.2) ∧
    Assoc.find? "entries" members = some (.obj entries) ∧ IsNamespace entries

/-! ## What is accepted -/

section Accepted

variable {site : Site} {members : List (String × Json)} {key : String}

theorem exists_optionalText_iff :
    (∃ s, optionalText site members key = .ok s) ↔ HasOptionalText members key := by
  rw [optionalText, HasOptionalText]
  split
  · next h => simp [h]
  · next h => simp [h]
  · next s h => simp [h]
  · next v hnull hstr h =>
    have hno : ¬ (v = .null ∨ ∃ s, v = .str s) := by
      rintro (rfl | ⟨s, rfl⟩)
      · exact hnull rfl
      · exact hstr s rfl
    simp [h, hno]

theorem exists_decodeNote_iff :
    (∃ note, decodeNote site members = .ok note) ↔ HasNote members := by
  simp only [decodeNote, exists_bind_eq_ok_iff, exists_pure_eq_ok, and_true, exists_and_right,
    exists_optionalText_iff, HasNote]

/-! ### Types -/

theorem exists_normalId_iff {v : Json} : (∃ id, normalId site v = .ok id) ↔ v.hasText = true := by
  simp only [normalId_eq_ok_iff, exists_and_left, exists_eq', and_true]

theorem exists_decodeField_iff {id name : String} {v : Json} :
    (∃ f, decodeField id name v = .ok f) ↔ IsField v := by
  simp only [decodeField, exists_bind_eq_ok_iff, exists_pure_eq_ok, and_true, exists_and_right,
    asObject_eq_ok_iff, require_eq_ok_iff, exists_normalId_iff, exists_decodeNote_iff, IsField,
    HasId, ← and_assoc]

theorem exists_decodeFields_iff {id : String} :
    (∃ fields, decodeFields id members = .ok fields) ↔
      ∃ fields, Assoc.find? "fields" members = some (.obj fields) ∧ ∀ p ∈ fields, IsField p.2 := by
  have hlist : ∀ vs, (∃ list, decodeFieldList id vs = .ok list) ↔ ∀ p ∈ vs, IsField p.2 := by
    intro vs
    simp only [decodeFieldList_eq_mapM, exists_traverse_eq_ok_iff, exists_decodeField_iff]
  rw [decodeFields, exists_bind_eq_ok_iff]
  constructor
  · rintro ⟨v, hv, hfields⟩
    split at hfields
    · next fields =>
      obtain ⟨list, hok, -⟩ := exists_bind_eq_ok_iff.1 hfields
      exact ⟨fields, require_eq_ok_iff.1 hv, (hlist fields).1 ⟨list, hok⟩⟩
    · simp at hfields
  · rintro ⟨fields, hv, hall⟩
    obtain ⟨list, hok⟩ := (hlist fields).2 hall
    exact ⟨.obj fields, require_eq_ok_iff.2 hv, exists_bind_eq_ok_iff.2 ⟨list, hok, _, rfl⟩⟩

theorem exists_decodeTypeIds_iff {id : String} :
    (∃ ids, decodeTypeIds id members = .ok ids) ↔
      ∃ items, Assoc.find? "itemTypeIds" members = some (.arr items) ∧
        ∀ item ∈ items, item.hasText = true := by
  rw [decodeTypeIds, exists_bind_eq_ok_iff]
  constructor
  · rintro ⟨v, hv, hids⟩
    split at hids
    · next items =>
      rw [exists_mapM_eq_ok_iff] at hids
      exact ⟨items, require_eq_ok_iff.1 hv,
        fun item hitem ↦ exists_normalId_iff.1 (hids item hitem)⟩
    · simp at hids
  · rintro ⟨items, hv, hitems⟩
    exact ⟨.arr items, require_eq_ok_iff.2 hv, exists_mapM_eq_ok_iff.2 fun item hitem ↦
      exists_normalId_iff.2 (hitems item hitem)⟩

theorem exists_decodeTypeId_iff {id : String} :
    (∃ item, decodeTypeId id members = .ok item) ↔ HasId members "itemTypeId" := by
  simp only [decodeTypeId, exists_bind_eq_ok_iff, exists_normalId_iff, require_eq_ok_iff, HasId]

theorem exists_decodeLiteral_iff {id : String} :
    (∃ v, decodeLiteral id members = .ok v) ↔
      ∃ v, Assoc.find? "value" members = some v ∧ IsLiteral v := by
  rw [decodeLiteral, exists_bind_eq_ok_iff]
  refine exists_congr fun v ↦ and_congr require_eq_ok_iff ?_
  cases v with
  | float x => cases hx : x.isFinite <;> simp [IsLiteral, hx, pure, Except.pure]
  | null | arr items | obj members => simp [IsLiteral]
  | _ => simp [IsLiteral, pure, Except.pure]

theorem exists_decodeBody_iff {id : String} {b : Builtin} :
    (∃ body, decodeBody id members (some b) = .ok body) ↔ HasOwn members b := by
  cases b with
  | primitive p => simp [decodeBody, HasOwn]
  | literal =>
      simp only [decodeBody, HasOwn, exists_bind_eq_ok_iff, exists_pure_eq_ok, and_true,
        exists_decodeLiteral_iff]
  | wrapper w =>
      simp only [decodeBody, HasOwn, exists_bind_eq_ok_iff, exists_pure_eq_ok, and_true,
        exists_decodeTypeId_iff]
  | junction j =>
      simp only [decodeBody, HasOwn, exists_bind_eq_ok_iff, exists_pure_eq_ok, and_true,
        exists_decodeTypeIds_iff]
  | fieldSet f =>
      simp only [decodeBody, HasOwn, exists_bind_eq_ok_iff, exists_pure_eq_ok, and_true,
        exists_decodeFields_iff]

theorem exists_decodeCommon_iff {b : Builtin} {f : CommonField} :
    (∃ c, decodeCommon (.ofBuiltin b) site members f = .ok c) ↔ HasOptionalText members f.key := by
  have hclosed : (Kind.ofBuiltin b).opens f = false := rfl
  simp only [decodeCommon, hclosed, Bool.false_eq_true, if_false, exists_bind_eq_ok_iff,
    exists_pure_eq_ok, and_true, exists_optionalText_iff]

theorem builtin_get?_eq_some_iff {tag : String} {kind : Kind} :
    Catalog.builtin.get? tag = some kind ↔ ∃ b, tag = Builtin.tag b ∧ kind = .ofBuiltin b := by
  constructor
  · intro h
    have hentries : Catalog.builtin.entries = Builtin.all.map fun b ↦ (b.tag, Kind.ofBuiltin b) :=
      Assoc.ofList_eq_self (by decide)
    rw [Table.get?_eq_some_iff, hentries] at h
    obtain ⟨b, -, hb⟩ := List.mem_map.1 h
    exact ⟨b, (congrArg Prod.fst hb).symm, (congrArg Prod.snd hb).symm⟩
  · rintro ⟨b, rfl, rfl⟩
    exact builtin_get? b

theorem exists_decodeType_iff {id : String} {v : Json} :
    (∃ d, decodeType .builtin id v = .ok d) ↔ IsType v := by
  constructor
  · rintro ⟨d, h⟩
    obtain ⟨members, tag, kind, rfl, htag, hkind, hd⟩ := decodedBy_of_decodeType h
    obtain ⟨b, rfl, rfl⟩ := builtin_get?_eq_some_iff.1 hkind
    obtain ⟨-, hname, hdescription, hdeprecated, hbody, -⟩ := hd
    exact ⟨members, b, rfl, htag, exists_decodeCommon_iff.1 ⟨_, hname⟩,
      ⟨exists_decodeCommon_iff.1 ⟨_, hdescription⟩, exists_decodeCommon_iff.1 ⟨_, hdeprecated⟩⟩,
      exists_decodeBody_iff.1 ⟨_, hbody⟩⟩
  · rintro ⟨members, b, rfl, htag, hname, ⟨hdescription, hdeprecated⟩, hown⟩
    obtain ⟨name, hname⟩ := exists_decodeCommon_iff (f := .name).2 hname
    obtain ⟨description, hdescription⟩ := exists_decodeCommon_iff (f := .description).2 hdescription
    obtain ⟨deprecated, hdeprecated⟩ := exists_decodeCommon_iff (f := .deprecated).2 hdeprecated
    obtain ⟨body, hbody⟩ := exists_decodeBody_iff.2 hown
    rw [decodeType, exists_bind_eq_ok_iff]
    refine ⟨members, rfl, exists_bind_eq_ok_iff.2 ⟨_, require_eq_ok_iff.2 htag, ?_⟩⟩
    simp only [builtin_get?]
    -- No built-in kind adds a field of its own to those of its body.
    exact exists_bind_eq_ok_iff.2 ⟨name, hname, exists_bind_eq_ok_iff.2 ⟨description, hdescription,
      exists_bind_eq_ok_iff.2 ⟨deprecated, hdeprecated, exists_bind_eq_ok_iff.2 ⟨body, hbody,
        exists_bind_eq_ok_iff.2 ⟨[], rfl, _, rfl⟩⟩⟩⟩⟩

/-! ### Entries -/

theorem exists_decodeReference_iff :
    (∃ id, decodeReference site members key = .ok id) ↔ HasReference members key := by
  simp only [decodeReference, exists_bind_eq_ok_iff, exists_normalId_iff, require_eq_ok_iff,
    asObject_eq_ok_iff, HasReference, HasId]
  constructor
  · rintro ⟨v, hv, reference, rfl, hid⟩
    exact ⟨reference, hv, hid⟩
  · rintro ⟨reference, hv, hid⟩
    exact ⟨_, hv, reference, rfl, hid⟩

theorem exists_decodeEndpoint_iff :
    (∃ e, decodeEndpoint site members = .ok e) ↔
      HasReference members "input" ∧ HasReference members "output" ∧ HasNote members := by
  simp only [decodeEndpoint, exists_bind_eq_ok_iff, exists_pure_eq_ok, and_true, exists_and_right,
    exists_decodeReference_iff, exists_decodeNote_iff]

theorem isNamespace_iff :
    IsNamespace members ↔
      ∃ children, Assoc.find? "entries" members = some (.obj children) ∧
        ∀ p ∈ children, IsEntry p.2 := by
  constructor
  · rintro ⟨hentries, hall⟩
    exact ⟨_, hentries, hall⟩
  · rintro ⟨children, hentries, hall⟩
    exact .intro hentries hall

theorem isEntry_obj_iff :
    IsEntry (.obj members) ↔
      (Assoc.find? "type" members = some (.str "Api") ∧
        HasReference members "input" ∧ HasReference members "output" ∧ HasNote members) ∨
      (Assoc.find? "type" members = some (.str "Entries") ∧ IsNamespace members) := by
  constructor
  · rintro (⟨htype, hinput, houtput, hnote⟩ | ⟨htype, hentries⟩)
    · exact .inl ⟨htype, hinput, houtput, hnote⟩
    · exact .inr ⟨htype, hentries⟩
  · rintro (⟨htype, hinput, houtput, hnote⟩ | ⟨htype, hentries⟩)
    · exact .endpoint htype hinput houtput hnote
    · exact .branch htype hentries

mutual

theorem exists_decodeEntry_iff {root : String} {path : List String} {v : Json} :
    (∃ e, decodeEntry root path v = .ok e) ↔ IsEntry v := by
  match v with
  | .obj members =>
      rw [decodeEntry, exists_bind_eq_ok_iff, isEntry_obj_iff]
      constructor
      · rintro ⟨tag, htag, he⟩
        rw [require_eq_ok_iff] at htag
        split at he
        · obtain ⟨e, he, -⟩ := exists_bind_eq_ok_iff.1 he
          exact .inl ⟨htag, exists_decodeEndpoint_iff.1 ⟨e, he⟩⟩
        · obtain ⟨es, hes, -⟩ := exists_bind_eq_ok_iff.1 he
          exact .inr ⟨htag, exists_decodeMembers_iff.1 ⟨es, hes⟩⟩
        · simp at he
      · rintro (⟨htype, hendpoint⟩ | ⟨htype, hentries⟩)
        · obtain ⟨e, he⟩ := exists_decodeEndpoint_iff.2 hendpoint
          exact ⟨_, require_eq_ok_iff.2 htype, exists_bind_eq_ok_iff.2 ⟨e, he, _, rfl⟩⟩
        · obtain ⟨es, hes⟩ := exists_decodeMembers_iff.2 hentries
          exact ⟨_, require_eq_ok_iff.2 htype, exists_bind_eq_ok_iff.2 ⟨es, hes, _, rfl⟩⟩
  | .null | .bool _ | .int _ | .float _ | .str _ | .arr _ =>
      simp only [decodeEntry, reduceCtorEq, exists_false, false_iff]
      intro h
      cases h

theorem exists_decodeMembers_iff {root : String} {path : List String}
    {members : List (String × Json)} :
    (∃ es, decodeMembers root path members = .ok es) ↔ IsNamespace members := by
  match members with
  | [] => simp [decodeMembers, isNamespace_iff, Assoc.find?]
  | (key, v) :: rest =>
      unfold decodeMembers
      split
      · next hkey =>
        rw [isNamespace_iff, Assoc.find?, if_pos hkey]
        cases v with
        | obj children =>
            simp only [exists_decodeChildren_iff, Option.some.injEq, Json.obj.injEq,
              exists_eq_left']
        | _ => simp
      · next hkey =>
        rw [exists_decodeMembers_iff, isNamespace_iff, isNamespace_iff, Assoc.find?, if_neg hkey]

theorem exists_decodeChildren_iff {root : String} {path : List String}
    {children : List (String × Json)} :
    (∃ es, decodeChildren root path children = .ok es) ↔ ∀ p ∈ children, IsEntry p.2 := by
  match children with
  | [] => simp [decodeChildren]
  | (key, v) :: rest =>
      simp only [decodeChildren, exists_bind_eq_ok_iff, exists_pure_eq_ok, and_true,
        exists_and_right, exists_decodeEntry_iff, exists_decodeChildren_iff, List.forall_mem_cons]

end

theorem exists_decodeNamespace_iff {root : String} {v : Json} :
    (∃ es, decodeNamespace root v = .ok es) ↔
      ∃ members, v = .obj members ∧ IsNamespace members := by
  simp only [decodeNamespace, exists_bind_eq_ok_iff, exists_pure_eq_ok, and_true,
    asObject_eq_ok_iff, exists_decodeMembers_iff]

theorem exists_decode_iff {v : Json} : (∃ d, decode .builtin v = .ok d) ↔ IsDescription v := by
  have hlist : ∀ types,
      (∃ list, decodeTypes .builtin types = .ok list) ↔ ∀ p ∈ types, IsType p.2 := by
    intro types
    simp only [decodeTypes_eq_mapM, exists_traverse_eq_ok_iff, exists_decodeType_iff]
  rw [decode, exists_bind_eq_ok_iff]
  constructor
  · rintro ⟨members, hmembers, hd⟩
    obtain ⟨v, htypes, hd⟩ := exists_bind_eq_ok_iff.1 hd
    split at hd
    · next types =>
      obtain ⟨list, hok, hd⟩ := exists_bind_eq_ok_iff.1 hd
      obtain ⟨w, hentries, hd⟩ := exists_bind_eq_ok_iff.1 hd
      obtain ⟨es, hes, -⟩ := exists_bind_eq_ok_iff.1 hd
      obtain ⟨entries, rfl, hnamespace⟩ := exists_decodeNamespace_iff.1 ⟨es, hes⟩
      exact ⟨members, types, entries, asObject_eq_ok_iff.1 hmembers, require_eq_ok_iff.1 htypes,
        (hlist types).1 ⟨list, hok⟩, require_eq_ok_iff.1 hentries, hnamespace⟩
    · simp at hd
  · rintro ⟨members, types, entries, rfl, htypes, hall, hentries, hnamespace⟩
    obtain ⟨list, hok⟩ := (hlist types).2 hall
    have hlevel : ∃ es, decodeNamespace "entries" (.obj entries) = .ok es :=
      exists_decodeNamespace_iff.2 ⟨entries, rfl, hnamespace⟩
    obtain ⟨es, hes⟩ := hlevel
    exact ⟨members, rfl, exists_bind_eq_ok_iff.2 ⟨_, require_eq_ok_iff.2 htypes,
      exists_bind_eq_ok_iff.2 ⟨list, hok, exists_bind_eq_ok_iff.2 ⟨_, require_eq_ok_iff.2 hentries,
        exists_bind_eq_ok_iff.2 ⟨es, hes, _, rfl⟩⟩⟩⟩⟩

end Accepted

/-! ## What is refused -/

/-- Whether a problem is with the data, and neither with a kind that has no descriptors nor with an
integer that has no text. -/
def Problem.IsOfData : Problem → Prop
  | .uninhabited _ | .overlongId => False
  | _ => True

def BlamesData {α : Type} (x : Except Error α) : Prop := ∀ e, x = .error e → e.problem.IsOfData

section Refused

variable {α β : Type} {site : Site} {id : String} {members : List (String × Json)}

theorem blamesData_pure (a : α) : BlamesData (pure a) := failsWith_ok a

theorem blamesData_ok (a : α) : BlamesData (.ok a) := blamesData_pure a

theorem blamesData_error {problem : Problem} (h : problem.IsOfData) :
    BlamesData (.error ⟨site, problem⟩ : Except Error α) :=
  failsWith_error h

theorem BlamesData.bind {x : Except Error α} {k : α → Except Error β} (hx : BlamesData x)
    (hk : ∀ a, x = .ok a → BlamesData (k a)) : BlamesData (x >>= k) :=
  FailsWith.bind hx hk

theorem BlamesData.map {x : Except Error α} (hx : BlamesData x) (f : α → β) :
    BlamesData (do return f (← x)) :=
  FailsWith.map hx f

theorem blamesData_asObject (v : Json) : BlamesData (asObject site v) := by
  cases v with
  | obj members => exact blamesData_ok members
  | _ => exact blamesData_error trivial

theorem blamesData_require (key : String) : BlamesData (require site members key) := by
  rw [require]
  split
  · exact blamesData_ok _
  · exact blamesData_error trivial

theorem blamesData_optionalText (key : String) : BlamesData (optionalText site members key) := by
  rw [optionalText]
  split
  · exact blamesData_ok _
  · exact blamesData_ok _
  · exact blamesData_ok _
  · exact blamesData_error trivial

theorem blamesData_decodeNote : BlamesData (decodeNote site members) :=
  (blamesData_optionalText _).bind fun _ _ ↦ (blamesData_optionalText _).map _

/-! ### Values that have a text -/

theorem haveTexts_of_asObject {v : Json} (hv : v.hasText = true)
    (h : asObject site v = .ok members) : Json.HaveTexts members := by
  obtain rfl := asObject_eq_ok_iff.1 h
  exact Json.hasText_obj_iff.1 hv

theorem hasText_of_require (hmembers : Json.HaveTexts members) {key : String} {v : Json}
    (h : require site members key = .ok v) : v.hasText = true :=
  hmembers _ (Assoc.mem_of_find? (require_eq_ok_iff.1 h))

theorem blamesData_normalId {v : Json} (hv : v.hasText = true) : BlamesData (normalId site v) := by
  obtain ⟨id, hid⟩ := exists_normalId_iff.2 hv
  rw [hid]
  exact blamesData_ok id

theorem blamesData_traverse {decode : String → Json → Except Error α} {vs : List (String × Json)}
    (h : ∀ p ∈ vs, BlamesData (decode p.1 p.2)) :
    BlamesData (vs.mapM fun p ↦ do return (p.1, ← decode p.1 p.2)) :=
  FailsWith.mapM fun p hp ↦ (h p hp).map _

/-! ### Decoding -/

theorem blamesData_decodeField (id name : String) {v : Json} (hv : v.hasText = true) :
    BlamesData (decodeField id name v) := by
  refine (blamesData_asObject v).bind fun members hmembers ↦ ?_
  have htexts := haveTexts_of_asObject hv hmembers
  exact (blamesData_require _).bind fun w hw ↦
    (blamesData_normalId (hasText_of_require htexts hw)).bind fun _ _ ↦ blamesData_decodeNote.map _

section Members

variable (hmembers : Json.HaveTexts members)

include hmembers

theorem blamesData_decodeFields : BlamesData (decodeFields id members) := by
  refine (blamesData_require _).bind fun v hv ↦ ?_
  cases v with
  | obj fields =>
      have hfields := Json.hasText_obj_iff.1 (hasText_of_require hmembers hv)
      have hlist : BlamesData (decodeFieldList id fields) := by
        rw [decodeFieldList_eq_mapM]
        exact blamesData_traverse fun p hp ↦ blamesData_decodeField id p.1 (hfields p hp)
      exact hlist.map _
  | _ => exact blamesData_error trivial

theorem blamesData_decodeTypeIds : BlamesData (decodeTypeIds id members) := by
  refine (blamesData_require _).bind fun v hv ↦ ?_
  cases v with
  | arr items =>
      have hitems := Json.hasText_arr_iff.1 (hasText_of_require hmembers hv)
      exact FailsWith.mapM fun item hitem ↦ blamesData_normalId (hitems item hitem)
  | _ => exact blamesData_error trivial

theorem blamesData_decodeTypeId : BlamesData (decodeTypeId id members) :=
  (blamesData_require _).bind fun _ hv ↦ blamesData_normalId (hasText_of_require hmembers hv)

omit hmembers in
theorem blamesData_decodeLiteral : BlamesData (decodeLiteral id members) := by
  refine (blamesData_require _).bind fun v _ ↦ ?_
  cases v with
  | float x =>
      dsimp only
      split
      · exact blamesData_pure _
      · exact blamesData_error trivial
  | str _ | int _ | bool _ => exact blamesData_pure _
  | null | arr _ | obj _ => exact blamesData_error trivial

omit hmembers in
theorem blamesData_decodeCommon (kind : Kind) (f : CommonField) :
    BlamesData (decodeCommon kind site members f) := by
  rw [decodeCommon]
  split
  · exact (blamesData_require _).map _
  · exact (blamesData_optionalText _).map _

theorem blamesData_decodeBody (base : Option Builtin) :
    BlamesData (decodeBody id members base) := by
  rcases base with _ | (p | _ | w | j | f)
  · exact blamesData_ok _
  · exact blamesData_ok _
  · exact blamesData_decodeLiteral.map _
  · exact (blamesData_decodeTypeId hmembers).map _
  · exact (blamesData_decodeTypeIds hmembers).map _
  · exact (blamesData_decodeFields hmembers).map _

theorem blamesData_decodeExtra (name : String) : BlamesData (decodeExtra id members name) := by
  rw [decodeExtra]
  split_ifs
  · exact (blamesData_decodeFields hmembers).map _
  · exact (blamesData_decodeTypeIds hmembers).map _
  · exact (blamesData_decodeTypeId hmembers).map _
  · exact blamesData_decodeLiteral.map _
  · exact (blamesData_require _).map _

theorem blamesData_decodeExtras (names : List String) :
    BlamesData (decodeExtras id members names) := by
  induction names with
  | nil => exact blamesData_ok []
  | cons name names ih => exact (blamesData_decodeExtra hmembers name).bind fun _ _ ↦ ih.map _

theorem blamesData_decodeReference (key : String) :
    BlamesData (decodeReference site members key) := by
  refine (blamesData_require _).bind fun v hv ↦ (blamesData_asObject _).bind fun reference h ↦ ?_
  have hreference := haveTexts_of_asObject (hasText_of_require hmembers hv) h
  exact (blamesData_require _).bind fun _ hw ↦
    blamesData_normalId (hasText_of_require hreference hw)

theorem blamesData_decodeEndpoint : BlamesData (decodeEndpoint site members) :=
  (blamesData_decodeReference hmembers _).bind fun _ _ ↦
    (blamesData_decodeReference hmembers _).bind fun _ _ ↦ blamesData_decodeNote.map _

end Members

theorem isInhabited_builtin : Catalog.IsInhabited .builtin := by
  intro tag kind hkind
  obtain ⟨b, -, rfl⟩ := builtin_get?_eq_some_iff.1 hkind
  rfl

theorem blamesData_decodeType {c : Catalog} (hc : c.IsInhabited) (id : String) {v : Json}
    (hv : v.hasText = true) : BlamesData (decodeType c id v) := by
  refine (blamesData_asObject v).bind fun members hmembers ↦
    (blamesData_require _).bind fun tag _ ↦ ?_
  have htexts := haveTexts_of_asObject hv hmembers
  cases tag with
  | str tag =>
      dsimp only
      split
      · exact blamesData_error trivial
      · next kind hkind =>
        refine (blamesData_decodeCommon kind _).bind fun name _ ↦
          (blamesData_decodeCommon kind _).bind fun description _ ↦
          (blamesData_decodeCommon kind _).bind fun deprecated _ ↦
          (blamesData_decodeBody htexts kind.base).bind fun body _ ↦
          (blamesData_decodeExtras htexts kind.extras).bind fun extras _ ↦ ?_
        rw [hc tag kind hkind]
        exact blamesData_pure _
  | _ => exact blamesData_error trivial

mutual

theorem blamesData_decodeEntry (root : String) (path : List String) {v : Json}
    (hv : v.hasText = true) : BlamesData (decodeEntry root path v) := by
  match v, hv with
  | .obj members, hv =>
      have htexts := Json.hasText_obj_iff.1 hv
      rw [decodeEntry]
      refine (blamesData_require _).bind fun tag _ ↦ ?_
      split
      · exact (blamesData_decodeEndpoint htexts).map _
      · exact (blamesData_decodeMembers root path htexts).map _
      · exact blamesData_error trivial
  | .null, _ | .bool _, _ | .int _, _ | .float _, _ | .str _, _ | .arr _, _ =>
      rw [decodeEntry]
      · exact blamesData_error trivial
      · nofun

theorem blamesData_decodeMembers (root : String) (path : List String)
    {members : List (String × Json)} (hmembers : Json.HaveTexts members) :
    BlamesData (decodeMembers root path members) := by
  match members, hmembers with
  | [], _ => exact blamesData_error trivial
  | (key, v) :: rest, hmembers =>
      obtain ⟨hv, hrest⟩ := List.forall_mem_cons.1 hmembers
      unfold decodeMembers
      split
      · split
        · exact blamesData_decodeChildren root path (Json.hasText_obj_iff.1 hv)
        · exact blamesData_error trivial
      · exact blamesData_decodeMembers root path hrest

theorem blamesData_decodeChildren (root : String) (path : List String)
    {children : List (String × Json)} (hchildren : Json.HaveTexts children) :
    BlamesData (decodeChildren root path children) := by
  match children, hchildren with
  | [], _ => exact blamesData_ok _
  | (key, v) :: rest, hchildren =>
      obtain ⟨hv, hrest⟩ := List.forall_mem_cons.1 hchildren
      rw [decodeChildren]
      exact (blamesData_decodeEntry root _ hv).bind fun _ _ ↦
        (blamesData_decodeChildren root path hrest).map _

end

theorem blamesData_decodeNamespace (root : String) {v : Json} (hv : v.hasText = true) :
    BlamesData (decodeNamespace root v) :=
  (blamesData_asObject v).bind fun _ hmembers ↦
    (blamesData_decodeMembers root [] (haveTexts_of_asObject hv hmembers)).map _

theorem blamesData_decode {c : Catalog} (hc : c.IsInhabited) {v : Json} (hv : v.hasText = true) :
    BlamesData (decode c v) := by
  refine (blamesData_asObject v).bind fun members hmembers ↦
    (blamesData_require _).bind fun types h ↦ ?_
  have htexts := haveTexts_of_asObject hv hmembers
  cases types with
  | obj types =>
      have hall := Json.hasText_obj_iff.1 (hasText_of_require htexts h)
      have htypes : BlamesData (decodeTypes c types) := by
        rw [decodeTypes_eq_mapM]
        exact blamesData_traverse fun p hp ↦ blamesData_decodeType hc p.1 (hall p hp)
      exact htypes.bind fun _ _ ↦ (blamesData_require _).bind fun _ hw ↦
        (blamesData_decodeNamespace _ (hasText_of_require htexts hw)).map _
  | _ => exact blamesData_error trivial

end Refused

/-! ## Accepted or refused -/

/-- A JSON value is read as a description exactly if it has the form of one, and is refused for its
data otherwise, so long as its integers keep to the limit of digits. -/
theorem decode_iff_isDescription (v : Json) :
    ((∃ d, decode .builtin v = .ok d) ↔ IsDescription v) ∧
      (v.hasText = true → ¬ IsDescription v →
        ∃ e, decode .builtin v = .error e ∧ e.problem.IsOfData) := by
  refine ⟨exists_decode_iff, fun htext hv ↦ ?_⟩
  cases h : decode .builtin v with
  | ok d => exact (hv (exists_decode_iff.1 ⟨d, h⟩)).elim
  | error e => exact ⟨e, rfl, blamesData_decode isInhabited_builtin htext e h⟩

end Typings.Wire
