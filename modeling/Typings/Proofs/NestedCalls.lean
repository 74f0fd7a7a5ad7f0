import Typings.Proofs.FaultWitness

/-!
# Nested calls

The recursion of an expansion follows ids, and nothing that it is given gets smaller. Here it is
written without an argument for its end: a limit says how many calls may be nested, and every call
is recorded. The path of a call never holds an id twice, and each id on it is a type that is written
in place. So there is no need for more nested calls than there are such types, and one.
-/

namespace Typings

open TypeExpr

/-- A call for an id. The path holds the ids of the calls that it is nested in, outermost first. -/
structure Call where
  path : List String
  id : String

/-- Why an expansion with a limit gives no type. -/
inductive Halt where
  | fault (f : Fault)
  /-- More calls are nested than the limit allows. -/
  | tooDeep

/-- A computation that records calls, and keeps the record where it fails. -/
abbrev Recording : Type → Type := EStateM Halt (List Call)

/-- Puts a call on record before it is made. -/
def recording (c : Call) (call : Recording TypeExpr) : Recording TypeExpr := do
  modify (· ++ [c])
  call

namespace Registry

variable {r : Registry} {path : List String} {id x : String}

/-- Expands a type as `expandFrom` does, with so many nested calls at most. -/
def expandWithin (r : Registry) : Nat → List String → String → Recording TypeExpr
  | 0, _, _ => throw .tooDeep
  | limit + 1, path, id =>
    recording ⟨path, id⟩ <|
    match r.get? id with
    | none => throw (.fault (.unresolved (.str id)))
    | some d =>
      match d.displayName, d.body with
      | some name, _ => return .named name
      | none, .fieldSet _ _ => return .synthetic id
      | none, body =>
        if id ∈ path then throw (.fault (.cyclic (path ++ [id])))
        else
          match body with
          | .primitive p => return .primitive p
          | .literal v => return .literal v
          | .wrapper w item => do
            return .wrapper w (← expandWithin r limit (path ++ [id]) item.text)
          | .junction j items => do
            let ts ← items.mapM fun item ↦ expandWithin r limit (path ++ [id]) item.text
            match r.misnamed? items with
            | some fault => throw (.fault fault)
            | none => return .junction j ts
          | .fieldSet _ _ | .bare => throw (.fault (.unsupportedField d))

/-! ## Paths -/

/-- The number of types that are written in place and have no name. -/
def inlineCount (r : Registry) : Nat :=
  r.values.countP fun d ↦ d.displayName.isNone && d.isInline

/-- Every id of a path is a type that is written in place. -/
theorem Trail.exists_inline {y : String} (h : r.Trail x path id) (hy : y ∈ path) :
    ∃ d, r.get? y = some d ∧ d.displayName = none ∧ d.isInline = true := by
  obtain ⟨before, after, rfl⟩ := List.append_of_mem hy
  have hsteps := h.steps
  rw [List.append_assoc, List.cons_append] at hsteps
  obtain ⟨next, d, hd, hname, hmember⟩ : ∃ next, r.Step y next := by
    cases after with
    | nil => exact ⟨id, (List.isChain_append_cons_cons.1 hsteps).2.1⟩
    | cons next after => exact ⟨next, (List.isChain_append_cons_cons.1 hsteps).2.1⟩
  refine ⟨d, hd, hname, ?_⟩
  rw [Descriptor.isInline]
  cases hbody : d.body with
  | fieldSet f fields => simp [hbody, Body.members] at hmember
  | bare => simp [hbody, Body.members] at hmember
  | _ => rfl

theorem Trail.length_le (h : r.Trail x path id) : path.length ≤ r.inlineCount := by
  have hsub : path ⊆
      (r.entries.filter fun p ↦ p.2.displayName.isNone && p.2.isInline).map Prod.fst := by
    intro y hy
    obtain ⟨d, hd, hname, hinline⟩ := h.exists_inline hy
    have hmem : (y, d) ∈ r.entries := Table.get?_eq_some_iff.1 hd
    exact List.mem_map.2 ⟨(y, d), List.mem_filter.2 ⟨hmem, by simp [hname, hinline]⟩, rfl⟩
  calc
    path.length ≤ _ := h.nodup.length_le_of_subset hsub
    _ = r.inlineCount := by
      rw [List.length_map, ← List.countP_eq_length_filter, inlineCount, Table.values,
        List.countP_map]
      rfl

/-! ## Calls -/

/-- What holds of every call that is made to expand `x`: the ids on its path lead from `x` to its
own id, each being a member of the one before, and no id is on the path twice. -/
structure SoundCall (r : Registry) (x : String) (c : Call) : Prop
    extends r.Trail x c.path c.id where
  entered : ∀ y ∈ c.path, ∃ d, r.get? y = some d ∧ d.displayName = none ∧
    d.body.isFieldSet = false
  /-- The calls that it is nested in, and itself. -/
  depth_le : c.path.length + 1 ≤ r.inlineCount + 1

theorem Trail.soundCall (h : r.Trail x path id) : r.SoundCall x ⟨path, id⟩ where
  toTrail := h
  entered y hy := by
    obtain ⟨d, hd, hname, hinline⟩ := h.exists_inline hy
    refine ⟨d, hd, hname, ?_⟩
    rw [Descriptor.isInline] at hinline
    cases hbody : d.body <;> simp_all [Body.isFieldSet]
  depth_le := Nat.succ_le_succ h.length_le

abbrev SoundCalls (r : Registry) (x : String) (calls : List Call) : Prop :=
  ∀ c ∈ calls, r.SoundCall x c

theorem mapError_bind {ε ε' α β : Type} (f : ε → ε') (m : Except ε α) (k : α → Except ε β) :
    (m >>= k).mapError f = m.mapError f >>= fun a ↦ (k a).mapError f := by
  cases m <;> rfl

theorem mapError_mapM {ε ε' α β : Type} (f : ε → ε') (g : α → Except ε β) (xs : List α) :
    (xs.mapM g).mapError f = xs.mapM fun a ↦ (g a).mapError f := by
  induction xs with
  | nil => rfl
  | cons a xs ih =>
      rw [List.mapM_cons, List.mapM_cons, mapError_bind, ← ih]
      congr 1
      funext b
      exact mapError_bind f (xs.mapM g) _

/-- With a limit that leaves room for all ids that can still be entered, an expansion ends as it
does without one, and makes sound calls only. -/
theorem follows_expandWithin {limit : Nat} {calls : List Call} (hcalls : r.SoundCalls x calls)
    (htrail : r.Trail x path id) (hlimit : r.inlineCount < limit + path.length) :
    Follows (r.SoundCalls x) (fun t ↦ t) ((r.expandFrom path id).mapError .fault)
      (r.expandWithin limit path id calls) := by
  induction limit generalizing path id calls with
  | zero =>
      have hlength := htrail.length_le
      omega
  | succ limit ih =>
      have hrecorded : r.SoundCalls x (calls ++ [⟨path, id⟩]) :=
        List.forall_mem_append.2 ⟨hcalls, List.forall_mem_singleton.2 htrail.soundCall⟩
      rw [expandFrom_eq, expandWithin]
      change Follows _ _ _ ((_ : Recording TypeExpr) (calls ++ [⟨path, id⟩]))
      cases hd : r.get? id with
      | none => exact ⟨rfl, hrecorded⟩
      | some d =>
          dsimp only
          cases hname : d.displayName with
          | some name => exact ⟨rfl, hrecorded⟩
          | none =>
              by_cases hid : id ∈ path
              · cases hbody : d.body with
                | fieldSet f fields => exact ⟨rfl, hrecorded⟩
                | _ =>
                    simp only [if_pos hid]
                    exact ⟨rfl, hrecorded⟩
              have hmember : ∀ item ∈ d.body.members, ∀ calls, r.SoundCalls x calls →
                  Follows (r.SoundCalls x) (fun t ↦ t)
                    ((r.expandFrom (path ++ [id]) item.text).mapError .fault)
                    (r.expandWithin limit (path ++ [id]) item.text calls) := by
                intro item hitem calls hcalls
                have hstep : r.Step id item.text := ⟨d, hd, hname, List.mem_map_of_mem hitem⟩
                apply ih hcalls (htrail.step hid hstep)
                rw [List.length_append, List.length_singleton]
                omega
              cases hbody : d.body with
              | fieldSet f fields => exact ⟨rfl, hrecorded⟩
              | primitive p | literal v | bare =>
                  simp only [if_neg hid]
                  exact ⟨rfl, hrecorded⟩
              | wrapper w item =>
                  simp only [if_neg hid, mapError_bind]
                  have hitem := hmember item (by simp [hbody, Body.members]) _ hrecorded
                  exact follows_bind hitem fun t calls _ hcalls ↦ ⟨rfl, hcalls⟩
              | junction j items =>
                  simp only [if_neg hid, mapError_bind, mapError_mapM]
                  rw [hbody] at hmember
                  have hitems := follows_mapM hmember hrecorded
                  rw [List.map_id_fun'] at hitems
                  refine follows_bind hitems fun ts calls _ hcalls ↦ ?_
                  cases r.misnamed? items <;> exact ⟨rfl, hcalls⟩

/-- The expansion of any type ends, with at most one nested call more than there are types that are
written in place: where the limit allows so many, it comes to what `expand` says and never to the
limit, and all calls that are made are sound. -/
theorem run_expandWithin (r : Registry) (x : TypeId) (spare : Nat) :
    ∃ calls, r.SoundCalls x.text calls ∧
      (r.expandWithin (r.inlineCount + 1 + spare) [] x.text).run [] =
        match r.expand x with
        | .ok t => .ok t calls
        | .error fault => .error (.fault fault) calls := by
  have hlimit : r.inlineCount < r.inlineCount + 1 + spare + ([] : List String).length := by
    rw [List.length_nil]
    omega
  have hends := follows_expandWithin (List.forall_mem_nil _) (r.trail_nil x.text) hlimit
  obtain ⟨calls, hcalls, hrun⟩ := hends.exists_eq
  refine ⟨calls, hcalls, hrun.trans ?_⟩
  rw [expand]
  cases r.expandFrom [] x.text <;> rfl

/-- Where two types contain each other, three calls are nested, and two are not enough. -/
example :
    let r : Registry := Table.ofList
      [("1", .ofBody (.wrapper .list) none .none (.wrapper .list (.str "2"))),
        ("2", .ofBody (.wrapper .list) none .none (.wrapper .list (.int 1)))]
    r.inlineCount = 2 ∧
      (r.expandWithin 2 [] "1").run [] = .error .tooDeep [⟨[], "1"⟩, ⟨["1"], "2"⟩] ∧
      (r.expandWithin 3 [] "1").run [] = .error (.fault (.cyclic ["1", "2", "1"]))
        [⟨[], "1"⟩, ⟨["1"], "2"⟩, ⟨["1", "2"], "1"⟩] :=
  ⟨rfl, rfl, rfl⟩

end Registry

end Typings
