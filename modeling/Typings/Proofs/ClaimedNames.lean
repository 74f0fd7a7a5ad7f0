import Typings.Proofs.Contents
import Typings.Proofs.NumeralText
import Typings.Session

/-!
# The names that a session claims

The exported names of a session are those that its steps have claimed, in order, and none is claimed
twice. A step that fails claims nothing, but for two sorts: one that declares all types has claimed
the names of those before the one that it stops at, and one that declares a type under an id without
a text has claimed the name of that type.
-/

namespace Typings

namespace Registry

variable {r : Registry}

/-! ## Steps -/

theorem run_claimName (names : Exports) (name : String) :
    (claimName name).run names = match names.claim name with
      | .ok names' => .ok () names'
      | .error fault => .error fault names := by
  change (match names.claim name with
    | .ok names' => set names'
    | .error fault => throw fault : Claiming Unit).run names = _
  cases names.claim name with
  | ok names' => rfl
  | error fault => rfl

theorem run_exportNext (names : Exports) (id : String) (d : Descriptor) :
    (r.exportNext id d).run names = match r.emit names id d with
      | .ok (declaration, names') => .ok declaration names'
      | .error fault => .error fault names := by
  rw [exportNext, emit_eq]
  cases hdeclare : r.declare id d with
  | error fault => rfl
  | ok declaration =>
      rw [← exportName_of_declare hdeclare]
      cases declaration with
      | none => rfl
      | some declaration =>
          obtain ⟨_, _, exportName, _, _⟩ := declaration
          cases exportName with
          | none => rfl
          | some name =>
              refine (run_bind _ _ _).trans ?_
              rw [run_claimName]
              change _ = match (names.claim name >>= fun names' ↦ pure (_, names') :
                  Except Fault (Option Declaration × Exports)) with
                | .ok (declaration, names') => EStateM.Result.ok declaration names'
                | .error fault => EStateM.Result.error fault names
              cases names.claim name with
              | ok names' => rfl
              | error fault => rfl

theorem run_declareNext (names : Exports) (id : TypeId) (d : Descriptor) :
    (r.declareNext id d).run names = match r.emit names id.text d with
      | .ok (declaration, names') =>
        if isRecordable id declaration then .ok declaration names' else .error .overlongId names'
      | .error fault => .error fault names := by
  refine (run_bind _ _ _).trans ?_
  rw [run_exportNext]
  cases r.emit names id.text d with
  | ok result =>
      dsimp only
      cases isRecordable id result.1 <;> rfl
  | error fault => rfl

theorem isRecordable_str (id : String) (declaration : Option Declaration) :
    isRecordable (.str id) declaration = true := Bool.or_true _

/-- Under an id that is a text a type is declared entirely or not at all. -/
theorem run_declareNext_str (names : Exports) (id : String) (d : Descriptor) :
    (r.declareNext (.str id) d).run names = match r.emit names id d with
      | .ok (declaration, names') => .ok declaration names'
      | .error fault => .error fault names := by
  rw [run_declareNext]
  change (match r.emit names id d with
    | .ok (declaration, names') => _
    | .error fault => _) = _
  cases r.emit names id d with
  | ok result => exact if_pos (isRecordable_str id result.1)
  | error fault => rfl

theorem run_declareEach (names : Exports) (ds : List (String × Descriptor)) :
    (r.declareEach ds).run names = match (r.emitList names ds).fault with
      | none => .ok (r.emitList names ds).declarations (r.emitList names ds).names
      | some fault => .error fault (r.emitList names ds).names := by
  induction ds generalizing names with
  | nil => rfl
  | cons p ds ih =>
      refine (run_bind _ _ _).trans ?_
      rw [run_declareNext_str]
      cases hemit : r.emit names p.1 p.2 with
      | error fault => rw [emitList_cons_error hemit]
      | ok result =>
          obtain ⟨declaration, names'⟩ := result
          refine (run_bind _ _ _).trans ?_
          rw [emitList_cons_ok hemit, ih]
          dsimp only
          cases (r.emitList names' ds).fault with
          | none => rfl
          | some fault => rfl

theorem run_claim (names : Exports) (name : String) :
    (r.perform (.claim name)).run names = match names.claim name with
      | .ok names' => .ok [] names'
      | .error fault => .error fault names := by
  refine (run_bind _ _ _).trans ?_
  rw [run_claimName]
  cases names.claim name with
  | ok names' => rfl
  | error fault => rfl

theorem run_declare (names : Exports) (id : TypeId) (d : Descriptor) :
    (r.perform (.declare id d)).run names = match r.emit names id.text d with
      | .ok (declaration, names') =>
        if isRecordable id declaration then .ok declaration.toList names'
        else .error .overlongId names'
      | .error fault => .error fault names := by
  refine (run_bind _ _ _).trans ?_
  rw [run_declareNext]
  cases r.emit names id.text d with
  | ok result =>
      dsimp only
      cases isRecordable id result.1 <;> rfl
  | error fault => rfl

theorem run_declareAll (names : Exports) :
    (r.perform .declareAll).run names = match (r.emitAll names).fault with
      | none => .ok (r.emitAll names).declarations (r.emitAll names).names
      | some fault => .error fault (r.emitAll names).names :=
  run_declareEach names r.entries

/-! ## Emissions -/

theorem names_emitList {names : Exports} {ds : List (String × Descriptor)}
    (h : (r.emitList names ds).fault = none) :
    (r.emitList names ds).names.names = names.names ++ ds.filterMap fun p ↦ p.2.claim? := by
  induction ds generalizing names with
  | nil => exact (List.append_nil _).symm
  | cons p ds ih =>
      cases hemit : r.emit names p.1 p.2 with
      | error fault => simp [emitList_cons_error hemit] at h
      | ok result =>
          obtain ⟨declaration, names'⟩ := result
          rw [emitList_cons_ok hemit] at h ⊢
          refine (ih h).trans ?_
          rw [names_of_emit hemit, List.append_assoc, List.filterMap_cons]
          cases p.2.claim? with
          | none => rfl
          | some name => rfl

/-- Types are declared up to the first that cannot be. -/
theorem exists_of_fault_emitList {names : Exports} {ds : List (String × Descriptor)} {fault : Fault}
    (h : (r.emitList names ds).fault = some fault) :
    ∃ passed q rest, ds = passed ++ q :: rest ∧ (r.emitList names passed).fault = none ∧
      (r.emitList names passed).names = (r.emitList names ds).names ∧
      r.emit (r.emitList names ds).names q.1 q.2 = .error fault := by
  induction ds generalizing names with
  | nil => cases h
  | cons p ds ih =>
      cases hemit : r.emit names p.1 p.2 with
      | error fault' =>
          rw [emitList_cons_error hemit] at h ⊢
          obtain rfl := Option.some.inj h
          exact ⟨[], p, ds, rfl, rfl, rfl, hemit⟩
      | ok result =>
          obtain ⟨declaration, names'⟩ := result
          rw [emitList_cons_ok hemit] at h ⊢
          obtain ⟨passed, q, rest, hds, hfault, hnames, hq⟩ := ih h
          refine ⟨p :: passed, q, rest, congrArg (p :: ·) hds, ?_, ?_, hq⟩
          · rw [emitList_cons_ok hemit]
            exact hfault
          · rw [emitList_cons_ok hemit]
            exact hnames

/-- What is declared is exported under the names that the types claim. -/
theorem exportNames_of_forall₂ {ds : List (String × Descriptor)}
    {results : List (Option Declaration)}
    (h : List.Forall₂ (fun p result ↦ r.declare p.1 p.2 = .ok result) ds results) :
    results.reduceOption.filterMap Declaration.exportName = ds.filterMap fun p ↦ p.2.claim? := by
  induction h with
  | nil => rfl
  | @cons p result ds results hdeclare _ ih =>
      rw [List.filterMap_cons, ← exportName_of_declare hdeclare, ← ih]
      cases result with
      | none => rfl
      | some declaration => exact List.filterMap_cons

/-! ## Names are claimed once -/

theorem notMem_of_claimAny {names names' : Exports} {name : Option String}
    (h : names.claimAny name = .ok names') : ∀ s, name = some s → s ∉ names.names := by
  rintro s rfl
  rw [Exports.claimAny, Exports.claim] at h
  split at h
  · cases h
  · next hnew => simpa [Exports.contains] using hnew

theorem exists_of_claimAny_error {names : Exports} {name : Option String} {fault : Fault}
    (h : names.claimAny name = .error fault) :
    ∃ s, name = some s ∧ s ∈ names.names ∧ fault = .duplicateName s := by
  cases name with
  | none => cases h
  | some s =>
      rw [Exports.claimAny, Exports.claim] at h
      split at h
      · next hmem =>
        have hmem : s ∈ names.names := by simpa [Exports.contains] using hmem
        exact ⟨s, rfl, hmem, (Except.error.inj h).symm⟩
      · cases h

theorem nodup_of_claimAny {names names' : Exports} {name : Option String}
    (h : names.claimAny name = .ok names') (hnodup : names.names.Nodup) : names'.names.Nodup := by
  have hnew := notMem_of_claimAny h
  rw [Exports.names_of_claimAny h]
  cases name with
  | none => simpa using hnodup
  | some name =>
      rw [Option.toList_some, ← List.concat_eq_append]
      exact hnodup.concat (hnew name rfl)

theorem nodup_of_emit {names names' : Exports} {id : String} {d : Descriptor}
    {declaration : Option Declaration} (h : r.emit names id d = .ok (declaration, names'))
    (hnodup : names.names.Nodup) : names'.names.Nodup := by
  rw [emit_eq] at h
  obtain ⟨_, _, h⟩ := exists_of_bind_eq_ok h
  obtain ⟨names₁, hclaim, h⟩ := exists_of_bind_eq_ok h
  obtain rfl := congrArg Prod.snd (Except.ok.inj h)
  exact nodup_of_claimAny hclaim hnodup

theorem nodup_emitList {names : Exports} {ds : List (String × Descriptor)}
    (hnodup : names.names.Nodup) : (r.emitList names ds).names.names.Nodup := by
  induction ds generalizing names with
  | nil => exact hnodup
  | cons p ds ih =>
      cases hemit : r.emit names p.1 p.2 with
      | error fault =>
          rw [emitList_cons_error hemit]
          exact hnodup
      | ok result =>
          rw [emitList_cons_ok hemit]
          exact ih (nodup_of_emit hemit hnodup)

/-! ## What a step claims -/

/-- A step with some names before it, and what comes of it, claims some names. -/
inductive Claims (r : Registry) :
    Exports → SessionStep → EStateM.Result Fault Exports (List Declaration) → List String → Prop
  | claim {names names' : Exports} {name : String} (hnew : name ∉ names.names)
      (hnames : names'.names = names.names ++ [name]) :
      Claims r names (.claim name) (.ok [] names') [name]
  | taken {names : Exports} {name : String} (h : name ∈ names.names) :
      Claims r names (.claim name) (.error (.duplicateName name) names) []
  | declare {names names' : Exports} {id : TypeId} {d : Descriptor}
      {declaration : Option Declaration} (hdeclare : r.declare id.text d = .ok declaration)
      (htext : declaration = none ∨ id.hasText = true)
      (hnew : ∀ name, d.claim? = some name → name ∉ names.names)
      (hnames : names'.names = names.names ++ d.claim?.toList) :
      Claims r names (.declare id d) (.ok declaration.toList names') d.claim?.toList
  /-- The fault of the type itself, or of one of its fields. -/
  | undeclared {names : Exports} {id : TypeId} {d : Descriptor} {fault : Fault}
      (hdeclare : r.declare id.text d = .error fault) :
      Claims r names (.declare id d) (.error fault names) []
  | nameTaken {names : Exports} {id : TypeId} {d : Descriptor} {declaration : Option Declaration}
      {name : String} (hdeclare : r.declare id.text d = .ok declaration)
      (hclaim : d.claim? = some name) (h : name ∈ names.names) :
      Claims r names (.declare id d) (.error (.duplicateName name) names) []
  /-- The id turns out to have no text when the name is claimed. -/
  | overlong {names names' : Exports} {id : TypeId} {d : Descriptor} {declaration : Declaration}
      (hdeclare : r.declare id.text d = .ok (some declaration)) (htext : id.hasText = false)
      (hnew : ∀ name, d.claim? = some name → name ∉ names.names)
      (hnames : names'.names = names.names ++ d.claim?.toList) :
      Claims r names (.declare id d) (.error .overlongId names') d.claim?.toList
  | declareAll {names names' : Exports} {results : List (Option Declaration)}
      (hresults : List.Forall₂ (fun p result ↦ r.declare p.1 p.2 = .ok result) r.entries results)
      (hnames : names'.names = names.names ++ r.entries.filterMap fun p ↦ p.2.claim?) :
      Claims r names .declareAll (.ok results.reduceOption names')
        (r.entries.filterMap fun p ↦ p.2.claim?)
  /-- Those that have passed are declared, and declaring the next one after them fails. -/
  | stopped {names names' : Exports} {passed rest : List (String × Descriptor)}
      {q : String × Descriptor} {fault : Fault} (hentries : r.entries = passed ++ q :: rest)
      (hpassed : ∀ p ∈ passed, ∃ declaration, r.declare p.1 p.2 = .ok declaration)
      (hnames : names'.names = names.names ++ passed.filterMap fun p ↦ p.2.claim?)
      (hstop : Claims r names' (.declare (.str q.1) q.2) (.error fault names') []) :
      Claims r names .declareAll (.error fault names') (passed.filterMap fun p ↦ p.2.claim?)

variable {names : Exports} {step : SessionStep} {claimed : List String}
  {result : EStateM.Result Fault Exports (List Declaration)}

theorem claims_of_emit {names' : Exports} {id : TypeId} {d : Descriptor}
    {declaration : Option Declaration} (h : r.emit names id.text d = .ok (declaration, names')) :
    r.Claims names (.declare id d)
      (if isRecordable id declaration then .ok declaration.toList names'
        else .error .overlongId names') d.claim?.toList := by
  have hnames := names_of_emit h
  rw [emit_eq] at h
  obtain ⟨declaration', hdeclare, h⟩ := exists_of_bind_eq_ok h
  obtain ⟨names₁, hclaim, hpair⟩ := exists_of_bind_eq_ok h
  obtain rfl : declaration' = declaration := congrArg Prod.fst (Except.ok.inj hpair)
  have hnew := notMem_of_claimAny hclaim
  split
  · next hrecordable =>
    refine .declare hdeclare ?_ hnew hnames
    rw [isRecordable, Bool.or_eq_true, Option.isNone_iff_eq_none] at hrecordable
    exact hrecordable
  · next hrecordable =>
    rw [isRecordable, Bool.not_eq_true, Bool.or_eq_false_iff] at hrecordable
    obtain ⟨hsome, htext⟩ := hrecordable
    obtain ⟨declaration, rfl⟩ := Option.isSome_iff_exists.1 (Option.isNone_eq_false_iff.1 hsome)
    exact .overlong hdeclare htext hnew hnames

theorem claims_of_emit_error {id : TypeId} {d : Descriptor} {fault : Fault}
    (h : r.emit names id.text d = .error fault) :
    r.Claims names (.declare id d) (.error fault names) [] := by
  rw [emit_eq] at h
  rcases or_of_bind_eq_error h with hdeclare | ⟨declaration, hdeclare, h⟩
  · exact .undeclared hdeclare
  · rcases or_of_bind_eq_error h with hclaim | ⟨names', _, h⟩
    · obtain ⟨name, hname, hmem, rfl⟩ := exists_of_claimAny_error hclaim
      exact .nameTaken hdeclare hname hmem
    · cases h

theorem claims_declareAll {fault : Fault} (h : (r.emitAll names).fault = some fault) :
    ∃ claimed, r.Claims names .declareAll (.error fault (r.emitAll names).names) claimed := by
  obtain ⟨passed, q, rest, hentries, hpassed, hnames, hstop⟩ := exists_of_fault_emitList h
  obtain ⟨results, hresults, -⟩ := declarations_emitList hpassed
  refine ⟨_, .stopped hentries ?_ (hnames ▸ names_emitList hpassed) (claims_of_emit_error hstop)⟩
  intro p hp
  obtain ⟨result, hpair⟩ := exists_mem_zip_left hresults.length_eq hp
  exact ⟨result, List.forall₂_zip hresults hpair⟩

theorem exists_claims (r : Registry) (names : Exports) (step : SessionStep) :
    ∃ claimed, r.Claims names step ((r.perform step).run names) claimed := by
  cases step with
  | claim name =>
      rw [run_claim]
      change ∃ claimed, r.Claims names (.claim name) (match names.claimAny (some name) with
        | .ok names' => .ok [] names'
        | .error fault => .error fault names) claimed
      cases hclaim : names.claimAny (some name) with
      | ok names' =>
          have hnew := notMem_of_claimAny hclaim name rfl
          exact ⟨[name], .claim hnew (Exports.names_of_claimAny hclaim)⟩
      | error fault =>
          obtain ⟨s, hs, hmem, rfl⟩ := exists_of_claimAny_error hclaim
          obtain rfl := Option.some.inj hs
          exact ⟨[], .taken hmem⟩
  | declare id d =>
      rw [run_declare]
      cases hemit : r.emit names id.text d with
      | ok result => exact ⟨_, claims_of_emit hemit⟩
      | error fault => exact ⟨_, claims_of_emit_error hemit⟩
  | declareAll =>
      rw [run_declareAll]
      cases hfault : (r.emitAll names).fault with
      | none =>
          obtain ⟨results, hresults, hdeclarations⟩ := declarations_emitList hfault
          dsimp only
          rw [emitAll, hdeclarations]
          exact ⟨_, .declareAll hresults (names_emitList hfault)⟩
      | some fault => exact claims_declareAll hfault

theorem Claims.names_after (h : r.Claims names step result claimed) :
    (Performance.mk step names result).after.names = names.names ++ claimed := by
  cases h with
  | claim _ hnames | declare _ _ _ hnames | overlong _ _ _ hnames | declareAll _ hnames
  | stopped _ _ hnames => exact hnames
  | taken | undeclared | nameTaken => exact (List.append_nil _).symm

/-- What a step exports, it has claimed. -/
theorem Claims.exports_sublist (h : r.Claims names step result claimed) :
    ((Performance.mk step names result).declarations.filterMap Declaration.exportName).Sublist
      claimed := by
  cases h with
  | claim | taken | undeclared | nameTaken | overlong | stopped => exact List.nil_sublist _
  | @declare _ names' id d declaration hdeclare =>
      rw [← exportName_of_declare hdeclare]
      cases declaration with
      | none => exact List.nil_sublist _
      | some declaration =>
          obtain ⟨_, _, exportName, _, _⟩ := declaration
          cases exportName with
          | none => exact .slnil
          | some name => exact .refl _
  | declareAll hresults => exact exportNames_of_forall₂ hresults ▸ .refl _

theorem nodup_after_perform (r : Registry) (step : SessionStep) (hnodup : names.names.Nodup) :
    (Performance.mk step names ((r.perform step).run names)).after.names.Nodup := by
  cases step with
  | claim name =>
      rw [run_claim]
      cases hclaim : names.claim name with
      | ok names' =>
          have hclaim : names.claimAny (some name) = .ok names' := hclaim
          exact nodup_of_claimAny hclaim hnodup
      | error fault => exact hnodup
  | declare id d =>
      rw [run_declare]
      cases hemit : r.emit names id.text d with
      | ok result =>
          have hafter := nodup_of_emit hemit hnodup
          dsimp only
          split <;> exact hafter
      | error fault => exact hnodup
  | declareAll =>
      have hall : (r.emitAll names).names.names.Nodup := nodup_emitList hnodup
      rw [run_declareAll]
      cases (r.emitAll names).fault with
      | none => exact hall
      | some fault => exact hall

/-! ## Sessions -/

theorem exists_claims_history (r : Registry) (names : Exports) (steps : List SessionStep)
    (hnodup : names.names.Nodup) :
    ∃ claims, List.Forall₂
        (fun (p : Performance) claimed ↦ r.Claims p.before p.step p.result claimed)
        (r.history names steps) claims ∧
      (∀ (n : Nat) (p : Performance), (r.history names steps)[n]? = some p →
        p.before.names = names.names ++ (claims.take n).flatten ∧
          p.after.names = names.names ++ (claims.take (n + 1)).flatten) ∧
      (names.names ++ claims.flatten).Nodup := by
  induction steps generalizing names with
  | nil => exact ⟨[], .nil, by simp [history], by simpa using hnodup⟩
  | cons step steps ih =>
      obtain ⟨claimed, hclaimed⟩ := r.exists_claims names step
      have hafter := hclaimed.names_after
      obtain ⟨claims, hclaims, hnames, hdistinct⟩ := ih _ (r.nodup_after_perform step hnodup)
      refine ⟨claimed :: claims, .cons hclaimed hclaims, fun n p hp ↦ ?_, ?_⟩
      · cases n with
        | zero =>
            obtain rfl := Option.some.inj hp
            exact ⟨by simp, by simpa using hafter⟩
        | succ n =>
            obtain ⟨hbefore, hafter'⟩ := hnames n p hp
            rw [hbefore, hafter', hafter]
            simp
      · rw [hafter, List.append_assoc] at hdistinct
        exact hdistinct

theorem step_history (r : Registry) (names : Exports) (steps : List SessionStep) :
    (r.history names steps).map Performance.step = steps := by
  induction steps generalizing names with
  | nil => rfl
  | cons step steps ih => rw [history, List.map_cons, ih]

theorem exports_sublist_flatten {history : List Performance} {claims : List (List String)}
    (h : List.Forall₂ (fun (p : Performance) claimed ↦ r.Claims p.before p.step p.result claimed)
      history claims) :
    (history.flatMap fun p ↦ p.declarations.filterMap Declaration.exportName).Sublist
      claims.flatten := by
  induction h with
  | nil => exact .slnil
  | cons hp _ ih => exact hp.exports_sublist.append ih

/-- At every moment of a session the names are those that its steps have claimed so far. None of
them is claimed twice, so no two of all declarations that are given are exported by one name. -/
theorem session_claims (r : Registry) (steps : List SessionStep) :
    (r.session steps).map Performance.step = steps ∧
      ∃ claims, List.Forall₂
          (fun (p : Performance) claimed ↦ r.Claims p.before p.step p.result claimed)
          (r.session steps) claims ∧
        (∀ (n : Nat) (p : Performance), (r.session steps)[n]? = some p →
          p.before.names = (claims.take n).flatten ∧
            p.after.names = (claims.take (n + 1)).flatten) ∧
        claims.flatten.Nodup ∧
        ((r.session steps).flatMap fun p ↦
          p.declarations.filterMap Declaration.exportName).Nodup := by
  obtain ⟨claims, hclaims, hnames, hnodup⟩ :=
    r.exists_claims_history .empty steps List.nodup_nil
  exact ⟨r.step_history .empty steps, claims, hclaims, hnames, hnodup,
    hnodup.sublist (exports_sublist_flatten hclaims)⟩

/-- A step fails and yet claims a name, where the id has more digits than are ever written. -/
theorem declare_overlong_claims :
    (perform .empty (.declare (.int (10 ^ Numeral.digitLimit))
      (.ofBody (.fieldSet .object) (some "Page") .none (.fieldSet .object .empty)))).run .empty =
      .error .overlongId ⟨["Page"]⟩ := by
  have hlong := Numeral.isShort_pow_digitLimit
  generalize (10 : Int) ^ Numeral.digitLimit = n at hlong
  have hunrecordable (declaration : Declaration) :
      ¬ isRecordable (.int n) (some declaration) = true := by
    rw [isRecordable, Option.isNone_some, Bool.false_or, Value.hasText, hlong]
    exact Bool.false_ne_true
  rw [run_declare]
  exact if_neg (hunrecordable _)

end Registry

end Typings
