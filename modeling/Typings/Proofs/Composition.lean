import Typings.Proofs.Expansion

/-!
# Mentions member by member

The text of a composite is put together from the texts that its members have on their own, as if
each of them were mentioned from the start. So the texts can be kept: a resolver that looks every id
up among the texts it has already found gives the same outcomes, failures included.
-/

namespace Typings

open TypeExpr

/-! ## A computation with a state that follows one without -/

/-- The stateful result reads off the plain outcome, and the state it leaves is sound. -/
def Follows {ε σ α β : Type} (Sound : σ → Prop) (view : α → β) :
    Except ε α → EStateM.Result ε σ β → Prop
  | .ok a, .ok b s => b = view a ∧ Sound s
  | .error e, .error e' s => e' = e ∧ Sound s
  | _, _ => False

section Follows

variable {ε σ α β α' β' γ : Type} {Sound : σ → Prop} {view : α → β} {view' : α' → β'}

/-- The outcome of both, and the state that is left. -/
theorem Follows.exists_eq {x : Except ε α} {result : EStateM.Result ε σ β} :
    Follows Sound view x result → ∃ s, Sound s ∧ result =
      match x with
      | .ok a => .ok (view a) s
      | .error e => .error e s := by
  intro h
  cases x with
  | ok a =>
      cases result with
      | ok b s =>
          obtain ⟨rfl, hs⟩ := h
          exact ⟨s, hs, rfl⟩
      | error e s => exact h.elim
  | error e =>
      cases result with
      | ok b s => exact h.elim
      | error e' s =>
          obtain ⟨rfl, hs⟩ := h
          exact ⟨s, hs, rfl⟩

theorem follows_bind {x : Except ε α} {m : EStateM ε σ β} {s : σ} {k : α → Except ε α'}
    {k' : β → EStateM ε σ β'} (hx : Follows Sound view x (m s))
    (hk : ∀ a s', x = .ok a → Sound s' → Follows Sound view' (k a) (k' (view a) s')) :
    Follows Sound view' (x >>= k) ((m >>= k') s) := by
  obtain ⟨s', hs', hm⟩ := hx.exists_eq
  change Follows _ _ _ (EStateM.bind m k' s)
  rw [EStateM.bind, hm]
  cases x with
  | ok a => exact hk a s' rfl hs'
  | error e => exact ⟨rfl, hs'⟩

theorem follows_mapM {xs : List γ} {f : γ → Except ε α} {g : γ → EStateM ε σ β} {s : σ}
    (h : ∀ x ∈ xs, ∀ s, Sound s → Follows Sound view (f x) (g x s)) (hs : Sound s) :
    Follows Sound (List.map view) (xs.mapM f) (xs.mapM g s) := by
  induction xs generalizing s with
  | nil => exact ⟨rfl, hs⟩
  | cons x xs ih =>
      rw [List.mapM_cons, List.mapM_cons]
      refine follows_bind (h x List.mem_cons_self s hs) fun a s' _ hs' ↦ ?_
      have hxs := ih (fun y hy ↦ h y (List.mem_cons_of_mem x hy)) hs'
      exact follows_bind hxs fun as s'' _ hs'' ↦ ⟨rfl, hs''⟩

end Follows

namespace Registry

variable {r : Registry} {naming : Naming} {path : List String} {id : String}

/-! ## Keeping texts -/

/-- The texts that have been found, by id. -/
abbrev TextCache : Type := List (String × String)

/-- Looks an id up first, and keeps the text that is found otherwise. -/
def keeping (id : String) (find : EStateM Fault TextCache String) :
    EStateM Fault TextCache String := do
  match Assoc.find? id (← get) with
  | some text => return text
  | none =>
    let text ← find
    modify (Assoc.insert id text)
    return text

/-- Mentions a type as `expandFrom` and `render` do, each id being expanded at most once. -/
def mentionKeeping (r : Registry) (naming : Naming) (path : List String) (id : String) :
    EStateM Fault TextCache String :=
  keeping id <|
    match hd : r.get? id with
    | none => throw (.unresolved (.str id))
    | some d =>
      match d.displayName, d.body with
      | some name, _ => pure name
      | none, .fieldSet _ _ => pure (naming.synthetic id)
      | none, body =>
        if hpath : id ∈ path then throw (.cyclic (path ++ [id]))
        else
          have := length_unvisited_append_lt (Assoc.mem_keys_of_find? hd) hpath
          match body with
          | .primitive p => pure (primitiveText naming p)
          | .literal v => pure (literalText v)
          | .wrapper w item => do
            return wrapperText w (← mentionKeeping r naming (path ++ [id]) item.text)
          | .junction j items => do
            let texts ← items.mapM fun item ↦ mentionKeeping r naming (path ++ [id]) item.text
            match r.misnamed? items with
            | some fault => throw fault
            | none => return junctionText j texts
          | .fieldSet _ _ | .bare => throw (.unsupportedField d)
termination_by (unvisited r path).length

theorem expandFrom_eq (r : Registry) (path : List String) (id : String) :
    r.expandFrom path id =
      match r.get? id with
      | none => .error (.unresolved (.str id))
      | some d =>
        match d.displayName, d.body with
        | some name, _ => .ok (.named name)
        | none, .fieldSet _ _ => .ok (.synthetic id)
        | none, body =>
          if id ∈ path then .error (.cyclic (path ++ [id]))
          else
            match body with
            | .primitive p => .ok (.primitive p)
            | .literal v => .ok (.literal v)
            | .wrapper w item => do return .wrapper w (← r.expandFrom (path ++ [id]) item.text)
            | .junction j items => do
              let ts ← items.mapM fun item ↦ r.expandFrom (path ++ [id]) item.text
              match r.misnamed? items with
              | some fault => throw fault
              | none => return .junction j ts
            | .fieldSet _ _ | .bare => .error (.unsupportedField d) := by
  rw [expandFrom]
  split
  · next hd => simp only [hd]
  · next d hd =>
    simp only [hd]
    cases d.displayName with
    | some name => rfl
    | none =>
        cases d.body with
        | junction j items =>
            by_cases hid : id ∈ path
            · simp only [dif_pos hid, if_pos hid]
            · simp only [dif_neg hid, if_neg hid]
              cases items.mapM fun item ↦ r.expandFrom (path ++ [id]) item.text with
              | error fault => rfl
              | ok ts => cases r.misnamed? items <;> rfl
        | _ => rfl

theorem mentionKeeping_eq (r : Registry) (naming : Naming) (path : List String) (id : String) :
    r.mentionKeeping naming path id = keeping id (
      match r.get? id with
      | none => throw (.unresolved (.str id))
      | some d =>
        match d.displayName, d.body with
        | some name, _ => pure name
        | none, .fieldSet _ _ => pure (naming.synthetic id)
        | none, body =>
          if id ∈ path then throw (.cyclic (path ++ [id]))
          else
            match body with
            | .primitive p => pure (primitiveText naming p)
            | .literal v => pure (literalText v)
            | .wrapper w item => do
              return wrapperText w (← mentionKeeping r naming (path ++ [id]) item.text)
            | .junction j items => do
              let texts ← items.mapM fun item ↦ mentionKeeping r naming (path ++ [id]) item.text
              match r.misnamed? items with
              | some fault => throw fault
              | none => return junctionText j texts
            | .fieldSet _ _ | .bare => throw (.unsupportedField d)) := by
  rw [mentionKeeping]
  congr 1
  split
  · next hd => simp only [hd]
  · next d hd =>
    simp only [hd]
    rfl

/-- Every text that is kept is what its id is mentioned by. -/
def SoundCache (r : Registry) (naming : Naming) (cache : TextCache) : Prop :=
  ∀ id text, Assoc.find? id cache = some text → r.mention naming (.str id) = .ok text

theorem SoundCache.insert {cache : TextCache} {text : String} (h : r.SoundCache naming cache)
    (hid : r.mention naming (.str id) = .ok text) :
    r.SoundCache naming (Assoc.insert id text cache) := by
  intro x u hx
  rw [Assoc.find?_insert] at hx
  split at hx
  · next heq =>
    obtain rfl := Option.some.inj hx
    exact heq ▸ hid
  · exact h x u hx

/-- A path that leads to a type hides nothing: what it has from the start, it has there too. -/
theorem expandFrom_of_mention {text : String} (h : r.mention naming (.str id) = .ok text)
    (hpath : r.LeadsTo path id) :
    ∃ t, r.expandFrom path id = .ok t ∧ t.render naming = text := by
  obtain ⟨t, ht, hrender⟩ := mention_eq_ok_iff.1 h
  refine ⟨t, ht.expandFrom_eq fun x hx hreach ↦ ?_, hrender⟩
  exact ht.acyclic (.trans_right hreach (hpath x hx))

theorem mention_of_expandFrom {t : TypeExpr} (h : r.expandFrom path id = .ok t) :
    r.mention naming (.str id) = .ok (t.render naming) :=
  mention_eq_ok_iff.2 ⟨t, expands_of_expandFrom h, rfl⟩

theorem follows_keeping {find : EStateM Fault TextCache String} {cache : TextCache}
    (hcache : r.SoundCache naming cache) (hpath : r.LeadsTo path id)
    (hfind : Follows (r.SoundCache naming) (render naming) (r.expandFrom path id) (find cache)) :
    Follows (r.SoundCache naming) (render naming) (r.expandFrom path id)
      (keeping id find cache) := by
  change Follows _ _ _ ((match Assoc.find? id cache with
    | some text => pure text
    | none => find >>= fun text ↦ modify (Assoc.insert id text) >>= fun _ ↦ pure text :
      EStateM Fault TextCache String) cache)
  cases hhit : Assoc.find? id cache with
  | some text =>
      obtain ⟨t, ht, rfl⟩ := expandFrom_of_mention (hcache id text hhit) hpath
      rw [ht]
      exact ⟨rfl, hcache⟩
  | none =>
      rw [← bind_pure (r.expandFrom path id)]
      exact follows_bind hfind fun t cache ht hcache ↦
        ⟨rfl, hcache.insert (mention_of_expandFrom ht)⟩

/-- Keeping texts changes no outcome, on whatever path that leads to the id. -/
theorem follows_mentionKeeping {cache : TextCache} (hcache : r.SoundCache naming cache)
    (hpath : r.LeadsTo path id) :
    Follows (r.SoundCache naming) (render naming) (r.expandFrom path id)
      (r.mentionKeeping naming path id cache) := by
  induction hn : (unvisited r path).length using Nat.strongRecOn generalizing path id cache with
  | ind n ih =>
      rw [mentionKeeping_eq]
      -- What is kept needs no more; from here on the text has to be found.
      refine follows_keeping hcache hpath ?_
      rw [expandFrom_eq]
      cases hd : r.get? id with
      | none => exact ⟨rfl, hcache⟩
      | some d =>
          dsimp only
          cases hname : d.displayName with
          | some name => exact ⟨by rw [render], hcache⟩
          | none =>
              by_cases hid : id ∈ path
              · cases hbody : d.body with
                | fieldSet f fields => exact ⟨by rw [render], hcache⟩
                | _ =>
                    simp only [if_pos hid]
                    exact ⟨rfl, hcache⟩
              have hmember : ∀ item ∈ d.body.members, ∀ cache, r.SoundCache naming cache →
                  Follows (r.SoundCache naming) (render naming)
                    (r.expandFrom (path ++ [id]) item.text)
                    (r.mentionKeeping naming (path ++ [id]) item.text cache) := by
                intro item hitem cache hcache
                have hlt := length_unvisited_append_lt (Assoc.mem_keys_of_find? hd) hid
                have hstep : r.Step id item.text := ⟨d, hd, hname, List.mem_map_of_mem hitem⟩
                exact ih _ (hn ▸ hlt) hcache (hpath.step hstep) rfl
              cases hbody : d.body with
              | fieldSet f fields => exact ⟨by rw [render], hcache⟩
              | primitive p =>
                  simp only [if_neg hid]
                  exact ⟨by rw [render], hcache⟩
              | literal v =>
                  simp only [if_neg hid]
                  exact ⟨by rw [render], hcache⟩
              | bare =>
                  simp only [if_neg hid]
                  exact ⟨rfl, hcache⟩
              | wrapper w item =>
                  simp only [if_neg hid]
                  have hitem := hmember item (by simp [hbody, Body.members]) cache hcache
                  exact follows_bind hitem fun t cache _ hcache ↦ ⟨by rw [render], hcache⟩
              | junction j items =>
                  simp only [if_neg hid]
                  rw [hbody] at hmember
                  refine follows_bind (follows_mapM hmember hcache) fun ts cache _ hcache ↦ ?_
                  cases r.misnamed? items with
                  | some fault => exact ⟨rfl, hcache⟩
                  | none => exact ⟨by rw [render, renderItems_eq_map], hcache⟩

/-- Mentions one type after the other, the texts of each being kept for the next. -/
def mentionsKeeping (r : Registry) (naming : Naming) : List TypeId → TextCache →
    List (Except Fault String)
  | [], _ => []
  | x :: rest, cache =>
    match r.mentionKeeping naming [] x.text cache with
    | .ok text cache => .ok text :: mentionsKeeping r naming rest cache
    | .error fault cache => .error fault :: mentionsKeeping r naming rest cache

theorem mentionsKeeping_eq_map {cache : TextCache} (hcache : r.SoundCache naming cache)
    (xs : List TypeId) : r.mentionsKeeping naming xs cache = xs.map (r.mention naming) := by
  induction xs generalizing cache with
  | nil => rfl
  | cons x xs ih =>
      have hx := follows_mentionKeeping hcache (r.leadsTo_nil x.text)
      obtain ⟨cache', hcache', hkept⟩ := hx.exists_eq
      rw [mentionsKeeping, hkept, List.map_cons, mention_eq_map_render, expand]
      cases r.expandFrom [] x.text with
      | ok t => exact congrArg (_ :: ·) (ih hcache')
      | error fault => exact congrArg (_ :: ·) (ih hcache')

theorem soundCache_nil (r : Registry) (naming : Naming) : r.SoundCache naming [] := by
  intro id text h
  cases h

/-! ## The text of a composite -/

theorem exists_map_of_forall₂ {α β γ : Type} {R : α → β → Prop} {f : β → γ} {xs : List α}
    {zs : List γ} (h : List.Forall₂ (fun x z ↦ ∃ y, R x y ∧ f y = z) xs zs) :
    ∃ ys, List.Forall₂ R xs ys ∧ ys.map f = zs := by
  induction h with
  | nil => exact ⟨[], .nil, rfl⟩
  | cons hx _ ih =>
      obtain ⟨y, hy, rfl⟩ := hx
      obtain ⟨ys, hys, rfl⟩ := ih
      exact ⟨y :: ys, .cons hy hys, rfl⟩

variable {x : TypeId} {d : Descriptor} {text : String}

theorem mention_wrapper_iff {w : Wrapper} {item : TypeId} (hd : r.find? x = some d)
    (hname : d.displayName = none) (hbody : d.body = .wrapper w item) :
    r.mention naming x = .ok text ↔
      ∃ t, r.mention naming item = .ok t ∧ text = wrapperText w t := by
  simp only [mention_eq_ok_iff]
  constructor
  · rintro ⟨u, hu, rfl⟩
    obtain ⟨t, rfl, ht⟩ := hu.of_wrapper hd hname hbody
    exact ⟨t.render naming, ⟨t, ht, rfl⟩, by rw [render]⟩
  · rintro ⟨_, ⟨t, ht, rfl⟩, rfl⟩
    exact ⟨_, .wrapper hd hname hbody ht, by rw [render]⟩

theorem mention_junction_iff {j : Junction} {items : List TypeId} (hd : r.find? x = some d)
    (hname : d.displayName = none) (hbody : d.body = .junction j items) :
    r.mention naming x = .ok text ↔ r.Joinable items ∧
      ∃ ts, List.Forall₂ (fun item t ↦ r.mention naming item = .ok t) items ts ∧
        text = junctionText j ts := by
  simp only [mention_eq_ok_iff]
  constructor
  · rintro ⟨u, hu, rfl⟩
    obtain ⟨hjoin, ts, rfl, hts⟩ := hu.of_junction hd hname hbody
    refine ⟨hjoin, ts.map (render naming), ?_, by rw [render, renderItems_eq_map]⟩
    rw [List.forall₂_map_right_iff]
    exact hts.imp fun item t ht ↦ ⟨t, ht, rfl⟩
  · rintro ⟨hjoin, texts, htexts, rfl⟩
    obtain ⟨ts, hts, rfl⟩ := exists_map_of_forall₂ htexts
    obtain ⟨hlength, hitems⟩ := forall₂_expands_iff.1 hts
    exact ⟨_, .junction hd hname hbody hjoin hlength hitems, by rw [render, renderItems_eq_map]⟩

/-- A composite is mentioned exactly if its members are, each by itself, and if they can be joined;
its text is made of theirs. So texts that were found once can be used again. -/
theorem mention_member_by_member (r : Registry) (naming : Naming) :
    (∀ x d w item, r.find? x = some d → d.displayName = none → d.body = .wrapper w item →
      ((∃ text, r.mention naming x = .ok text) ↔ ∃ t, r.mention naming item = .ok t) ∧
      ∀ t, r.mention naming item = .ok t → r.mention naming x = .ok (match w with
        | .record => "Record<string, " ++ t ++ ">"
        | .nullable => t ++ " | null | undefined"
        | .list => t ++ "[]")) ∧
    (∀ x d j items, r.find? x = some d → d.displayName = none → d.body = .junction j items →
      ((∃ text, r.mention naming x = .ok text) ↔
        r.Joinable items ∧ ∀ item ∈ items, ∃ t, r.mention naming item = .ok t) ∧
      ∀ ts, r.Joinable items → List.Forall₂ (fun item t ↦ r.mention naming item = .ok t) items ts →
        r.mention naming x = .ok (match j with
          | .union => " | ".intercalate ts
          | .intersect => " & ".intercalate ts)) ∧
    ∀ xs, r.mentionsKeeping naming xs [] = xs.map (r.mention naming) := by
  refine ⟨fun x d w item hd hname hbody ↦ ⟨⟨?_, ?_⟩, fun t ht ↦ ?_⟩,
    fun x d j items hd hname hbody ↦ ⟨⟨?_, ?_⟩, fun ts hjoin hts ↦ ?_⟩,
    mentionsKeeping_eq_map (soundCache_nil r naming)⟩
  · rintro ⟨text, h⟩
    obtain ⟨t, ht, _⟩ := (mention_wrapper_iff hd hname hbody).1 h
    exact ⟨t, ht⟩
  · rintro ⟨t, ht⟩
    exact ⟨_, (mention_wrapper_iff hd hname hbody).2 ⟨t, ht, rfl⟩⟩
  · rw [(mention_wrapper_iff hd hname hbody).2 ⟨t, ht, rfl⟩]
    cases w <;> rfl
  · rintro ⟨text, h⟩
    obtain ⟨hjoin, ts, hts, _⟩ := (mention_junction_iff hd hname hbody).1 h
    exact ⟨hjoin, ((List.forall₂_and_left items ts).1 (hts.imp fun item t ht ↦ ⟨⟨t, ht⟩, ht⟩)).1⟩
  · rintro ⟨hjoin, hmembers⟩
    obtain ⟨ts, hts⟩ := exists_forall₂ hmembers
    exact ⟨_, (mention_junction_iff hd hname hbody).2 ⟨hjoin, ts, hts, rfl⟩⟩
  · rw [(mention_junction_iff hd hname hbody).2 ⟨hjoin, ts, hts, rfl⟩]
    cases j <;> rfl

/-- A text, and the list of it next to it in a union. -/
def sharedMember : Registry :=
  Table.ofList
    [("1", .ofBody (.primitive .string) none .none (.primitive .string)),
      ("2", .ofBody (.wrapper .list) none .none (.wrapper .list (.str "1"))),
      ("3", .ofBody (.junction .union) none .none (.junction .union [.str "1", .str "2"]))]

theorem sharedMember_mention :
    sharedMember.mention {} (.str "3") = .ok "string | string[]" := by
  obtain ⟨hwrapper, hjunction, _⟩ := mention_member_by_member sharedMember {}
  have htext : sharedMember.mention {} (.str "1") = .ok "string" :=
    mention_eq_ok_iff.2 ⟨_, .primitive rfl rfl rfl, rfl⟩
  have hlist : sharedMember.mention {} (.str "2") = .ok "string[]" :=
    (hwrapper (.str "2") _ .list (.str "1") rfl rfl rfl).2 "string" htext
  have hjoin : sharedMember.Joinable [.str "1", .str "2"] := by
    rw [← misnamed?_eq_none_iff]
    decide
  exact (hjunction (.str "3") _ .union _ rfl rfl rfl).2 _ hjoin (.cons htext (.cons hlist .nil))

/-- The member of the union that is known as the number five is mentioned, but the union is not. -/
theorem numberedUnion_not_joined :
    ¬ ∀ x d j items, numberedUnion.find? x = some d → d.displayName = none →
      d.body = .junction j items →
        ((∃ text, numberedUnion.mention {} x = .ok text) ↔
          ∀ item ∈ items, ∃ t, numberedUnion.mention {} item = .ok t) := by
  intro h
  have hmember : numberedUnion.mention {} (.str "1") = .ok "5" :=
    mention_eq_ok_iff.2 ⟨_, .named rfl rfl, by decide +kernel⟩
  have hitems : ∀ item ∈ [Value.str "1"], ∃ t, numberedUnion.mention {} item = .ok t := by
    intro item hitem
    obtain rfl := List.mem_singleton.1 hitem
    exact ⟨_, hmember⟩
  obtain ⟨text, htext⟩ := (h (.str "2") _ .union _ rfl rfl rfl).2 hitems
  obtain ⟨hjoin, _⟩ := (mention_junction_iff rfl rfl rfl).1 htext
  obtain ⟨s, hs⟩ := hjoin (.str "1") (by simp) _ rfl (.int 5) rfl
  cases hs

end Registry

end Typings
