import Typings.Proofs.KindDefinitions

/-!
# Where errors point

A message begins with a location, which reads as a path of keys into the value that is refused. What
is said after it is true of the value that the path leads to, with one exception: what is wrong with
the input or the output of an endpoint is said of the endpoint. So the location is right unless an
endpoint is said to be no object, or to lack an id that it has.
-/

namespace Typings

namespace Json

/-! ## Paths -/

/-- The value that a path of keys leads to. -/
def at? (v : Json) : List String → Option Json
  | [] => some v
  | key :: rest =>
    match v with
    | obj members => (Assoc.find? key members).bind fun w ↦ w.at? rest
    | _ => none

variable {v w : Json} {members : List (String × Json)} {path : List String} {key : String}

theorem at?_append (v : Json) (path rest : List String) :
    v.at? (path ++ rest) = (v.at? path).bind fun w ↦ w.at? rest := by
  induction path generalizing v with
  | nil => rfl
  | cons key path ih =>
      cases v with
      | obj members =>
          rw [List.cons_append, at?, at?, Option.bind_assoc]
          congr 1
          funext w
          exact ih w
      | _ => rfl

theorem at?_member (h : v.at? path = some (.obj members))
    (hmember : Assoc.find? key members = some w) : v.at? (path ++ [key]) = some w := by
  rw [at?_append, h, Option.bind_some, at?, hmember]
  rfl

theorem HasDistinctKeys.at? (h : v.HasDistinctKeys) (hw : v.at? path = some w) :
    w.HasDistinctKeys := by
  induction path generalizing v with
  | nil =>
      obtain rfl := Option.some.inj hw
      exact h
  | cons key path ih =>
      cases v with
      | obj members =>
          obtain ⟨u, hu, hw⟩ := Option.bind_eq_some_iff.1 hw
          exact ih (h.find? hu) hw
      | _ => cases hw

/-- Where no key occurs twice, each member is found under its key. -/
theorem HasDistinctKeys.at?_of_mem (h : v.HasDistinctKeys) (hv : v.at? path = some (.obj members))
    {p : String × Json} (hp : p ∈ members) : v.at? (path ++ [p.1]) = some p.2 :=
  at?_member hv (Assoc.find?_of_mem (h.at? hv).1 hp)

end Json

namespace Wire

/-! ## Locations -/

/-- The keys that lead to a site. The children of a namespace are members of its `entries`. -/
def Site.path : Site → List String
  | description => []
  | type id => ["types", id]
  | field id name => ["types", id, "fields", name]
  | entry root keys => root :: keys.flatMap fun key ↦ ["entries", key]

theorem Site.path_entry_concat (root : String) (keys : List String) (key : String) :
    (entry root (keys ++ [key])).path = (entry root keys).path ++ ["entries"] ++ [key] := by
  simp [path]

/-- The location at the head of a message: a site, or a member of one. -/
structure Location where
  site : Site
  member : Option String

namespace Location

def text (l : Location) : String :=
  match l.member with
  | none => l.site.text
  | some key => l.site.text ++ "." ++ key

def path (l : Location) : List String := l.site.path ++ l.member.toList

end Location

namespace Problem

/-- The member of the site that is complained about, if it is not the site itself. -/
def member? : Problem → Option String
  | notString key _ | memberNotObject key | memberNotList key => some key
  | notLiteral _ | notFinite _ => some "value"
  | notObject _ | missing _ | unknownType _ | unknownEntry _ | uninhabited _ | overlongId => none

/-- What a message says after the location. -/
def complaint : Problem → String
  | notObject found => "expected an object, got " ++ found.typeName
  | missing key => "missing '" ++ key ++ "'"
  | notString _ found => "expected a string, got " ++ found.typeName
  | memberNotObject _ => "expected an object"
  | memberNotList _ => "expected a list"
  | notLiteral found => "expected a string, number or boolean, got " ++ found.inspect
  | notFinite found => "literal numbers must be finite, got " ++ found.inspect
  | unknownType tag => "unknown type kind " ++ Text.quoted tag
  | unknownEntry tag => "unknown entry kind " ++ tag.inspect
  | uninhabited e => e.message
  | overlongId => Numeral.overlongMessage

/-- What is said of a value is so. -/
def IsTrueOf (c : Catalog) (v : Json) : Problem → Prop
  | notObject found => v = found ∧ ∀ members, v ≠ .obj members
  | missing key => ∃ members, v = .obj members ∧ Assoc.find? key members = none
  | notString _ found => v = found ∧ ∀ s, v ≠ .str s
  | memberNotObject _ => ∀ members, v ≠ .obj members
  | memberNotList _ => ∀ items, v ≠ .arr items
  | notLiteral found =>
    v = found ∧ (v = .null ∨ (∃ items, v = .arr items) ∨ ∃ members, v = .obj members)
  | notFinite found => v = found ∧ ∃ x, v = .float x ∧ x.isFinite = false
  | unknownType tag => ∃ members, v = .obj members ∧
      Assoc.find? "type" members = some (.str tag) ∧ c.get? tag = none
  | unknownEntry tag => ∃ members, v = .obj members ∧ Assoc.find? "type" members = some tag ∧
      tag ≠ .str "Api" ∧ tag ≠ .str "Entries"
  | uninhabited _ | overlongId => False

/-- What may be wrong with a reference: that it is no object, or has no id. -/
inductive IsOfReference : Problem → Prop
  | notObject (found : Json) : IsOfReference (.notObject found)
  | missing : IsOfReference (.missing "typeId")

end Problem

namespace Error

def location (e : Error) : Location := ⟨e.site, e.problem.member?⟩

theorem append_split {mark left right : String} (h : mark = left ++ right) (before after : String) :
    before ++ mark ++ after = before ++ left ++ (right ++ after) := by
  rw [h, String.append_assoc, String.append_assoc, String.append_assoc]

/-- A message says where, and then what. -/
theorem message_eq {e : Error} (h : e.problem.IsOfData) :
    e.message = e.location.text ++ ": " ++ e.problem.complaint := by
  obtain ⟨site, problem⟩ := e
  have hvalue : site.text ++ "." ++ "value" ++ ": " = site.text ++ ".value: " := by
    rw [String.append_assoc, String.append_assoc]
    rfl
  cases problem with
  | uninhabited e => exact h.elim
  | overlongId => exact h.elim
  | notObject found => exact append_split (by decide) site.text found.typeName
  | missing key =>
      have hmark : ": missing '" = ": " ++ "missing '" := by decide
      calc site.text ++ ": missing '" ++ key ++ "'"
        _ = site.text ++ ": " ++ ("missing '" ++ key) ++ "'" := by rw [append_split hmark]
        _ = site.text ++ ": " ++ ("missing '" ++ key ++ "'") := String.append_assoc
  | notString key found => exact append_split (by decide) (site.text ++ "." ++ key) found.typeName
  | memberNotObject key =>
      have hmark : ": expected an object" = ": " ++ "expected an object" := by decide
      exact (congrArg (site.text ++ "." ++ key ++ ·) hmark).trans String.append_assoc.symm
  | memberNotList key =>
      have hmark : ": expected a list" = ": " ++ "expected a list" := by decide
      exact (congrArg (site.text ++ "." ++ key ++ ·) hmark).trans String.append_assoc.symm
  | notLiteral found =>
      have hmark : ".value: expected a string, number or boolean, got " =
        ".value: " ++ "expected a string, number or boolean, got " := by decide
      exact (append_split hmark site.text found.inspect).trans (congrArg (· ++ _) hvalue.symm)
  | notFinite found =>
      have hmark : ".value: literal numbers must be finite, got " =
        ".value: " ++ "literal numbers must be finite, got " := by decide
      exact (append_split hmark site.text found.inspect).trans (congrArg (· ++ _) hvalue.symm)
  | unknownType tag => exact append_split (by decide) site.text (Text.quoted tag)
  | unknownEntry tag => exact append_split (by decide) site.text tag.inspect

variable (c : Catalog) (payload : Json)

/-- A path leads to a value of which an error tells the truth. -/
def IsTrueAt (e : Error) (path : List String) : Prop :=
  ∃ v, payload.at? path = some v ∧ e.problem.IsTrueOf c v

/-- The location of an error leads to the value that is complained about. -/
def IsLocated (e : Error) : Prop := e.IsTrueAt c payload e.location.path

/-- The members of the endpoint at the site of an error. -/
def IsAtEndpoint (e : Error) (members : List (String × Json)) : Prop :=
  payload.at? e.site.path = some (.obj members) ∧
    Assoc.find? "type" members = some (.str "Api")

/-- Where the value is that is complained about: at the location or, if it is a reference, under its
key in the endpoint there. -/
inductive IsExplained (e : Error) : Prop
  | located (h : e.IsLocated c payload)
  | reference {members : List (String × Json)} {key : String}
      (hendpoint : e.IsAtEndpoint payload members) (hkey : key = "input" ∨ key = "output")
      (hproblem : e.problem.IsOfReference) (h : e.IsTrueAt c payload (e.site.path ++ [key]))

/-- An endpoint is said to be no object, or to lack an id that it has. -/
def IsMisplaced (e : Error) : Prop :=
  ∃ members, e.IsAtEndpoint payload members ∧
    ((∃ found, e.problem = .notObject found) ∨
      e.problem = .missing "typeId" ∧ ∃ id, Assoc.find? "typeId" members = some id)

variable {c payload} {e : Error}

theorem IsMisplaced.not_isLocated (h : e.IsMisplaced payload) : ¬ e.IsLocated c payload := by
  obtain ⟨site, problem⟩ := e
  obtain ⟨members, ⟨hat, -⟩, hproblem⟩ := h
  rintro ⟨v, hv, htrue⟩
  rcases hproblem with ⟨found, rfl⟩ | ⟨rfl, id, hid⟩
  · rw [location, Location.path, Problem.member?, Option.toList_none, List.append_nil, hat] at hv
    obtain rfl := Option.some.inj hv
    exact htrue.2 members rfl
  · rw [location, Location.path, Problem.member?, Option.toList_none, List.append_nil, hat] at hv
    obtain rfl := Option.some.inj hv
    obtain ⟨_, ⟨⟩, hnone⟩ := htrue
    rw [hnone] at hid
    cases hid

theorem IsExplained.isLocated (h : e.IsExplained c payload) (hplaced : ¬ e.IsMisplaced payload) :
    e.IsLocated c payload := by
  obtain ⟨site, problem⟩ := e
  cases h with
  | located h => exact h
  | @reference members key hendpoint _ hproblem _ =>
      cases hproblem with
      | notObject found => exact absurd ⟨members, hendpoint, .inl ⟨found, rfl⟩⟩ hplaced
      | missing =>
          refine ⟨.obj members, ?_, members, rfl, ?_⟩
          · rw [location, Location.path, Problem.member?, Option.toList_none, List.append_nil]
            exact hendpoint.1
          · by_contra hid
            obtain ⟨id, hid⟩ := Option.ne_none_iff_exists'.1 hid
            exact hplaced ⟨members, hendpoint, .inr ⟨rfl, id, hid⟩⟩

end Error

/-! ## What the decoder complains about -/

section Explains

variable {c : Catalog} {payload : Json} {site : Site} {members : List (String × Json)}

/-- Whatever a computation complains about is where it says, or is a reference. -/
def Explains {α : Type} (c : Catalog) (payload : Json) (x : Except Error α) : Prop :=
  FailsWith (fun e ↦ e.problem.IsOfData → e.IsExplained c payload) x

theorem explains_error {α : Type} {problem : Problem} {v : Json}
    (hv : payload.at? (site.path ++ problem.member?.toList) = some v)
    (h : problem.IsTrueOf c v) : Explains c payload (.error ⟨site, problem⟩ : Except Error α) :=
  failsWith_error fun _ ↦ .located ⟨v, hv, h⟩

theorem explains_asObject {v : Json} (hv : payload.at? site.path = some v) :
    Explains c payload (asObject site v) := by
  cases v with
  | obj members => exact failsWith_ok members
  | _ =>
      apply explains_error ((congrArg _ (List.append_nil _)).trans hv)
      refine ⟨rfl, ?_⟩
      rintro _ ⟨⟩

/-- An id that has no text is no complaint about the data. -/
theorem explains_normalId (v : Json) : Explains c payload (normalId site v) := by
  rw [normalId]
  split
  · exact failsWith_ok _
  · exact failsWith_error False.elim

section Members

variable (hsite : payload.at? site.path = some (.obj members))

include hsite

theorem explains_require (key : String) : Explains c payload (require site members key) := by
  rw [require]
  cases hkey : Assoc.find? key members with
  | some v => exact failsWith_ok v
  | none =>
      apply explains_error ((congrArg _ (List.append_nil _)).trans hsite)
      exact ⟨members, rfl, hkey⟩

theorem explains_optionalText (key : String) :
    Explains c payload (optionalText site members key) := by
  rw [optionalText]
  split
  · exact failsWith_ok _
  · exact failsWith_ok _
  · exact failsWith_ok _
  · next v _ hstr hkey =>
    apply explains_error (Json.at?_member hsite hkey)
    exact ⟨rfl, fun s hs ↦ hstr s hs⟩

theorem explains_decodeNote : Explains c payload (decodeNote site members) :=
  (explains_optionalText hsite _).bind fun _ _ ↦ (explains_optionalText hsite _).map _

theorem explains_decodeCommon (kind : Kind) (f : CommonField) :
    Explains c payload (decodeCommon kind site members f) := by
  rw [decodeCommon]
  split
  · exact (explains_require hsite _).map _
  · exact (explains_optionalText hsite _).map _

end Members

/-! ### Types -/

theorem explains_decodeField {id name : String} {v : Json}
    (hv : payload.at? (Site.field id name).path = some v) :
    Explains c payload (decodeField id name v) := by
  apply (explains_asObject hv).bind
  intro members hmembers
  obtain rfl := asObject_eq_ok_iff.1 hmembers
  exact (explains_require hv _).bind fun _ _ ↦ (explains_normalId _).bind fun _ _ ↦
    (explains_decodeNote hv).map _

section OfType

variable {id : String} (hkeys : payload.HasDistinctKeys)
  (hsite : payload.at? (Site.type id).path = some (.obj members))

include hsite

include hkeys in
theorem explains_decodeFields : Explains c payload (decodeFields id members) := by
  apply (explains_require hsite _).bind
  intro v hv
  have hat := Json.at?_member hsite (require_eq_ok_iff.1 hv)
  split
  · next fields =>
    apply FailsWith.map
    rw [decodeFieldList_eq_mapM]
    apply FailsWith.mapM
    intro p hp
    exact (explains_decodeField (hkeys.at?_of_mem hat hp)).map _
  · next hobj =>
    apply explains_error hat
    intro fields hfields
    exact hobj fields hfields

theorem explains_decodeTypeIds : Explains c payload (decodeTypeIds id members) := by
  apply (explains_require hsite _).bind
  intro v hv
  split
  · exact FailsWith.mapM fun item _ ↦ explains_normalId item
  · next harr =>
    apply explains_error (Json.at?_member hsite (require_eq_ok_iff.1 hv))
    intro items hitems
    exact harr items hitems

theorem explains_decodeTypeId : Explains c payload (decodeTypeId id members) :=
  (explains_require hsite _).bind fun _ _ ↦ explains_normalId _

theorem explains_decodeLiteral : Explains c payload (decodeLiteral id members) := by
  apply (explains_require hsite _).bind
  intro v hv
  have hat := Json.at?_member hsite (require_eq_ok_iff.1 hv)
  cases v with
  | float x =>
      dsimp only
      split
      · exact failsWith_ok _
      · next hfinite =>
        apply explains_error hat
        exact ⟨rfl, x, rfl, Bool.eq_false_iff.2 hfinite⟩
  | str _ | int _ | bool _ => exact failsWith_ok _
  | null => exact explains_error hat ⟨rfl, .inl rfl⟩
  | arr items => exact explains_error hat ⟨rfl, .inr (.inl ⟨items, rfl⟩)⟩
  | obj members => exact explains_error hat ⟨rfl, .inr (.inr ⟨members, rfl⟩)⟩

include hkeys in
theorem explains_decodeBody (base : Option Builtin) :
    Explains c payload (decodeBody id members base) := by
  rcases base with _ | (p | _ | w | j | f)
  · exact failsWith_ok _
  · exact failsWith_ok _
  · exact (explains_decodeLiteral hsite).map _
  · exact (explains_decodeTypeId hsite).map _
  · exact (explains_decodeTypeIds hsite).map _
  · exact (explains_decodeFields hkeys hsite).map _

include hkeys in
theorem explains_decodeExtra (name : String) :
    Explains c payload (decodeExtra id members name) := by
  rw [decodeExtra]
  split_ifs
  · exact (explains_decodeFields hkeys hsite).map _
  · exact (explains_decodeTypeIds hsite).map _
  · exact (explains_decodeTypeId hsite).map _
  · exact (explains_decodeLiteral hsite).map _
  · exact (explains_require hsite _).map _

include hkeys in
theorem explains_decodeExtras (names : List String) :
    Explains c payload (decodeExtras id members names) := by
  induction names with
  | nil => exact failsWith_ok []
  | cons name names ih =>
      exact (explains_decodeExtra hkeys hsite name).bind fun _ _ ↦ ih.map _

end OfType

theorem explains_decodeType {id : String} {v : Json} (hkeys : payload.HasDistinctKeys)
    (hv : payload.at? (Site.type id).path = some v) :
    Explains c payload (decodeType c id v) := by
  apply (explains_asObject hv).bind
  intro members hmembers
  obtain rfl := asObject_eq_ok_iff.1 hmembers
  apply (explains_require hv _).bind
  intro tag htag
  have htag := require_eq_ok_iff.1 htag
  split
  · next tag =>
    split
    · next hkind =>
      apply explains_error ((congrArg _ (List.append_nil _)).trans hv)
      exact ⟨members, rfl, htag, hkind⟩
    · next kind _ =>
      apply (explains_decodeCommon hv kind _).bind
      intro name _
      apply (explains_decodeCommon hv kind _).bind
      intro description _
      apply (explains_decodeCommon hv kind _).bind
      intro deprecated _
      apply (explains_decodeBody hkeys hv kind.base).bind
      intro body _
      apply (explains_decodeExtras hkeys hv kind.extras).bind
      intro extras _
      dsimp only
      split
      · exact failsWith_error False.elim
      · exact failsWith_ok _
  · next hstr =>
    apply explains_error (Json.at?_member hv htag)
    exact ⟨rfl, fun s hs ↦ hstr s hs⟩

/-! ### Entries -/

theorem explains_decodeReference (hsite : payload.at? site.path = some (.obj members))
    (htype : Assoc.find? "type" members = some (.str "Api")) {key : String}
    (hkey : key = "input" ∨ key = "output") :
    Explains c payload (decodeReference site members key) := by
  apply (explains_require hsite _).bind
  intro v hv
  have hat := Json.at?_member hsite (require_eq_ok_iff.1 hv)
  -- Both complaints about the reference are given the site of the endpoint.
  have hreference {α : Type} {problem : Problem} (hproblem : problem.IsOfReference)
      (htrue : problem.IsTrueOf c v) :
      Explains c payload (.error ⟨site, problem⟩ : Except Error α) :=
    failsWith_error fun _ ↦ .reference ⟨hsite, htype⟩ hkey hproblem ⟨v, hat, htrue⟩
  cases v with
  | obj reference =>
      change Explains c payload (do normalId site (← require site reference "typeId"))
      refine FailsWith.bind ?_ fun id _ ↦ explains_normalId id
      rw [require]
      cases hid : Assoc.find? "typeId" reference with
      | some id => exact failsWith_ok id
      | none => exact hreference .missing ⟨reference, rfl, hid⟩
  | _ =>
      refine (hreference (.notObject _) ⟨rfl, ?_⟩).bind ?_
      · rintro _ ⟨⟩
      · rintro _ ⟨⟩

theorem explains_decodeEndpoint (hsite : payload.at? site.path = some (.obj members))
    (htype : Assoc.find? "type" members = some (.str "Api")) :
    Explains c payload (decodeEndpoint site members) := by
  apply (explains_decodeReference hsite htype (.inl rfl)).bind
  intro input _
  apply (explains_decodeReference hsite htype (.inr rfl)).bind
  intro output _
  exact (explains_decodeNote hsite).map _

mutual

theorem explains_decodeEntry (hkeys : payload.HasDistinctKeys) {root : String}
    {keys : List String} (v : Json) (hv : payload.at? (Site.entry root keys).path = some v) :
    Explains c payload (decodeEntry root keys v) := by
  match v with
  | .obj members =>
      rw [decodeEntry]
      apply (explains_require hv _).bind
      intro tag htag
      have htag := require_eq_ok_iff.1 htag
      split
      · exact (explains_decodeEndpoint hv htag).map _
      · exact (explains_decodeMembers hkeys hv members rfl).map _
      · next hapi hentries =>
        apply explains_error ((congrArg _ (List.append_nil _)).trans hv)
        exact ⟨members, rfl, htag, hapi, hentries⟩
  | .null | .bool _ | .int _ | .float _ | .str _ | .arr _ =>
      rw [decodeEntry]
      · apply explains_error ((congrArg _ (List.append_nil _)).trans hv)
        refine ⟨rfl, ?_⟩
        rintro _ ⟨⟩
      · nofun

/-- The members from some point on, if the first `entries` of all is among them. -/
theorem explains_decodeMembers (hkeys : payload.HasDistinctKeys) {root : String}
    {keys : List String} {members : List (String × Json)}
    (hsite : payload.at? (Site.entry root keys).path = some (.obj members))
    (rest : List (String × Json))
    (hrest : Assoc.find? "entries" members = Assoc.find? "entries" rest) :
    Explains c payload (decodeMembers root keys rest) := by
  match rest with
  | [] =>
      apply explains_error ((congrArg _ (List.append_nil _)).trans hsite)
      exact ⟨members, rfl, hrest⟩
  | (key, v) :: rest =>
      rw [Assoc.find?] at hrest
      unfold decodeMembers
      split
      · next hkey =>
        rw [if_pos hkey] at hrest
        have hat := Json.at?_member hsite hrest
        cases v with
        | obj children =>
            apply explains_decodeChildren hkeys children
            intro p hp
            rw [Site.path_entry_concat]
            exact hkeys.at?_of_mem hat hp
        | _ =>
            apply explains_error hat
            rintro _ ⟨⟩
      · next hkey =>
        rw [if_neg hkey] at hrest
        exact explains_decodeMembers hkeys hsite rest hrest

theorem explains_decodeChildren (hkeys : payload.HasDistinctKeys) {root : String}
    {keys : List String} (children : List (String × Json))
    (h : ∀ p ∈ children, payload.at? (Site.entry root (keys ++ [p.1])).path = some p.2) :
    Explains c payload (decodeChildren root keys children) := by
  match children with
  | [] => exact failsWith_ok []
  | (key, v) :: rest =>
      obtain ⟨hv, hrest⟩ := List.forall_mem_cons.1 h
      rw [decodeChildren]
      apply (explains_decodeEntry hkeys v hv).bind
      intro e _
      exact (explains_decodeChildren hkeys rest hrest).map _

end

theorem explains_decode (hkeys : payload.HasDistinctKeys) :
    Explains c payload (decode c payload) := by
  have hroot : payload.at? Site.description.path = some payload := rfl
  apply (explains_asObject hroot).bind
  intro members hmembers
  obtain rfl := asObject_eq_ok_iff.1 hmembers
  apply (explains_require hroot _).bind
  intro types htypes
  have htypes := Json.at?_member hroot (require_eq_ok_iff.1 htypes)
  cases types with
  | obj types =>
      have hlist : Explains c (.obj members) (decodeTypes c types) := by
        rw [decodeTypes_eq_mapM]
        apply FailsWith.mapM
        intro p hp
        exact (explains_decodeType hkeys (hkeys.at?_of_mem htypes hp)).map _
      apply hlist.bind
      intro list _
      apply (explains_require hroot _).bind
      intro entries hentries
      have hentries : (Json.obj members).at? (Site.entry "entries" []).path = some entries :=
        Json.at?_member hroot (require_eq_ok_iff.1 hentries)
      have hnamespace : Explains c (.obj members) (decodeNamespace "entries" entries) := by
        apply (explains_asObject hentries).bind
        intro level hlevel
        obtain rfl := asObject_eq_ok_iff.1 hlevel
        exact (explains_decodeMembers hkeys hentries level rfl).map _
      exact hnamespace.map _
  | _ =>
      apply explains_error htypes
      rintro _ ⟨⟩

end Explains

/-! ## Where an error points -/

/-- A payload that is refused for its data is refused at the location of what is wrong, unless that
is a reference of an endpoint and the endpoint is said to be what the reference is. -/
theorem decode_isLocated_iff {c : Catalog} {payload : Json} {e : Error}
    (hkeys : payload.HasDistinctKeys) (h : decode c payload = .error e)
    (hdata : e.problem.IsOfData) :
    e.message = e.location.text ++ ": " ++ e.problem.complaint ∧ e.IsExplained c payload ∧
      (e.IsLocated c payload ↔ ¬ e.IsMisplaced payload) := by
  have hexplained := explains_decode hkeys e h hdata
  refine ⟨Error.message_eq hdata, hexplained, ?_⟩
  constructor
  · intro hlocated hmisplaced
    exact hmisplaced.not_isLocated hlocated
  · exact hexplained.isLocated

/-- A type with a field whose description is a number. -/
def numberedField : Json :=
  .obj [
    ("types", .obj [("1", .obj [("type", .str "Object"),
      ("fields", .obj [("f", .obj [("typeId", .str "s"), ("description", .int 3)])])])]),
    ("entries", .obj [("type", .str "Entries"), ("entries", .obj [])])]

theorem numberedField_isLocated :
    ∃ e, decode .builtin numberedField = .error e ∧
      e.location.path = ["types", "1", "fields", "f", "description"] ∧
      e.IsLocated .builtin numberedField := by
  let e : Error := ⟨.field "1" "f", .notString "description" (.int 3)⟩
  have hkeys : numberedField.HasDistinctKeys := by
    simp [numberedField, Json.HasDistinctKeys, Json.MembersDistinct]
  have h : decode .builtin numberedField = .error e := rfl
  refine ⟨e, h, rfl, (decode_isLocated_iff hkeys h trivial).2.2.2 ?_⟩
  rintro ⟨members, -, ⟨found, hproblem⟩ | ⟨hproblem, -⟩⟩ <;> cases hproblem

/-- An endpoint whose input is a number. -/
def numberedInput : Json :=
  .obj [
    ("types", .obj []),
    ("entries", .obj [("type", .str "Entries"), ("entries", .obj [
      ("a", .obj [("type", .str "Api"), ("input", .int 5),
        ("output", .obj [("typeId", .int 1)])])])])]

/-- The endpoint, an object, is said to be a number. -/
theorem numberedInput_not_located :
    numberedInput.HasDistinctKeys ∧
      ∃ e, decode .builtin numberedInput = .error e ∧
        e.message = "entries['a']: expected an object, got int" ∧
        (∃ members, numberedInput.at? e.location.path = some (.obj members)) ∧
        ¬ e.IsLocated .builtin numberedInput := by
  refine ⟨?_, ⟨.entry "entries" ["a"], .notObject (.int 5)⟩, rfl, by decide, ⟨_, rfl⟩, ?_⟩
  · simp [numberedInput, Json.HasDistinctKeys, Json.MembersDistinct]
  · rintro ⟨v, hv, rfl, -⟩
    cases hv

end Wire

end Typings
