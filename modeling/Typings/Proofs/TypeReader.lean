import Typings.Proofs.TypeTree

/-!
# Reading types

The grammar of types has three levels: what brackets hold together, intersections of that, and
unions of these. The reader goes over the tokens once. It finds a tree exactly if the grammar
derives the tree and the tokens are its tokens, so that no tokens have two trees.
-/

namespace Typings

namespace TypeTree

/-! ## The grammar -/

/-- The level of the members of a composite; none is that of the operands. -/
def tighter : Junction → Option Junction
  | .intersect => none
  | .union => some .intersect

inductive Derives : Option Junction → TypeTree → Prop
  | word (s : String) : Derives none (.word s)
  | text (s : String) : Derives none (.text s)
  | application (head : String) {ts : List TypeTree} (hne : ts ≠ [])
      (hts : ∀ t ∈ ts, Derives (some .union) t) : Derives none (.application head ts)
  | array {t : TypeTree} (ht : Derives none t) : Derives none (.array t)
  | single (j : Junction) {t : TypeTree} (ht : Derives (tighter j) t) : Derives (some j) t
  | junction (j : Junction) {ts : List TypeTree} (hlen : 2 ≤ ts.length)
      (hts : ∀ t ∈ ts, Derives (tighter j) t) : Derives (some j) (.junction j ts)

variable {j : Junction} {t : TypeTree} {ts : List TypeTree}

theorem Derives.joint?_eq_none (h : Derives none t) : t.joint? = none := by
  cases h <;> rfl

theorem Derives.joint?_ne (h : Derives (tighter j) t) : t.joint? ≠ some j := by
  cases j with
  | intersect =>
      rw [h.joint?_eq_none]
      simp
  | union =>
      cases h with
      | single _ ht =>
          rw [ht.joint?_eq_none]
          simp
      | junction _ _ _ => simp [joint?]

theorem Derives.normal {level : Option Junction} (h : Derives level t) : t.Normal := by
  induction h with
  | word s => exact .word s
  | text s => exact .text s
  | application head hne _ ih => exact .application head hne ih
  | array _ ih => exact .array ih
  | single _ _ ih => exact ih
  | junction j hlen hts ih => exact .junction j hlen ih fun t ht ↦ (hts t ht).joint?_ne

theorem Derives.writable {level : Option Junction} (h : Derives level t) : t.Writable := by
  induction h with
  | word s => exact .word s
  | text s => exact .text s
  | application head _ _ ih => exact .application head ih
  | array ht ih => exact .array ih ht.joint?_eq_none
  | single _ _ ih => exact ih
  | junction j _ hts ih =>
      cases j with
      | union => exact .union ih
      | intersect =>
          refine .intersection ih fun t ht ↦ ?_
          rw [(hts t ht).joint?_eq_none]
          simp

theorem Derives.operand (h : Derives t.joint? t) (hu : t.joint? ≠ some .union)
    (hi : t.joint? ≠ some .intersect) : Derives none t := by
  cases hj : t.joint? with
  | none => exact hj ▸ h
  | some j =>
      cases j with
      | union => exact absurd hj hu
      | intersect => exact absurd hj hi

theorem Derives.intersection (h : Derives t.joint? t) (hu : t.joint? ≠ some .union) :
    Derives (some .intersect) t := by
  by_cases hi : t.joint? = some .intersect
  · exact hi ▸ h
  · exact .single .intersect (h.operand hu hi)

theorem Derives.union (h : Derives t.joint? t) : Derives (some .union) t := by
  by_cases hu : t.joint? = some .union
  · exact hu ▸ h
  · exact .single .union (h.intersection hu)

/-- A normal tree that can be written without brackets is derived at its own level. -/
theorem Normal.derives (h : t.Normal) (hw : t.Writable) : Derives t.joint? t := by
  induction h with
  | word s => exact .word s
  | text s => exact .text s
  | application head hne _ ih =>
      cases hw with
      | application _ hts => exact .application head hne fun t ht ↦ (ih t ht (hts t ht)).union
  | array _ ih =>
      cases hw with
      | array ht hitem => exact .array (hitem ▸ ih ht)
  | junction j hlen _ hflat ih =>
      refine .junction j hlen fun t ht ↦ ?_
      cases hw with
      | union hts => exact (ih t ht (hts t ht)).intersection (hflat t ht)
      | intersection hts hmembers => exact (ih t ht (hts t ht)).operand (hmembers t ht) (hflat t ht)

theorem derives_union_iff : Derives (some .union) t ↔ t.Normal ∧ t.Writable :=
  ⟨fun h ↦ ⟨h.normal, h.writable⟩, fun ⟨h, hw⟩ ↦ (h.derives hw).union⟩

/-! ## The reader -/

/-- What has been read of a type: the finished members of the union, those of the intersection that
is being read, and its last operand. -/
structure Frame where
  alternatives : List TypeTree := []
  factors : List TypeTree := []
  operand : Option TypeTree := none

/-- What has been read: the innermost type, and the applications that it stands in, each with its
head, its finished arguments and the type around it. -/
structure Reader where
  frame : Frame := {}
  outer : List (Frame × String × List TypeTree) := []

def Frame.tree? : Frame → Option TypeTree
  | ⟨as, fs, some t⟩ => some (join .union (as ++ [join .intersect (fs ++ [t])]))
  | ⟨_, _, none⟩ => none

def Reader.step : Reader → Token → Option Reader
  | ⟨⟨as, fs, none⟩, outer⟩, .word s => some ⟨⟨as, fs, some (.word s)⟩, outer⟩
  | ⟨⟨as, fs, none⟩, outer⟩, .text s => some ⟨⟨as, fs, some (.text s)⟩, outer⟩
  | ⟨⟨as, fs, some t⟩, outer⟩, .brackets => some ⟨⟨as, fs, some (.array t)⟩, outer⟩
  | ⟨⟨as, fs, some t⟩, outer⟩, .joint .intersect => some ⟨⟨as, fs ++ [t], none⟩, outer⟩
  | ⟨⟨as, fs, some t⟩, outer⟩, .joint .union =>
    some ⟨⟨as ++ [join .intersect (fs ++ [t])], [], none⟩, outer⟩
  | ⟨⟨as, fs, some (.word s)⟩, outer⟩, .less => some ⟨{}, (⟨as, fs, none⟩, s, []) :: outer⟩
  | ⟨frame, (f, s, ts) :: outer⟩, .comma =>
    frame.tree?.map fun t ↦ ⟨{}, (f, s, ts ++ [t]) :: outer⟩
  | ⟨frame, (f, s, ts) :: outer⟩, .greater =>
    frame.tree?.map fun t ↦ ⟨⟨f.alternatives, f.factors, some (.application s (ts ++ [t]))⟩, outer⟩
  | _, _ => none

def Reader.tree? : Reader → Option TypeTree
  | ⟨frame, []⟩ => frame.tree?
  | _ => none

/-- The tree that tokens are read as. -/
def read (tokens : List Token) : Option TypeTree :=
  (tokens.foldlM Reader.step {}).bind Reader.tree?

/-! ## What is derived is read -/

@[simp]
theorem step_comma {frame f : Frame} {s : String} {ts : List TypeTree}
    {outer : List (Frame × String × List TypeTree)} :
    Reader.step ⟨frame, (f, s, ts) :: outer⟩ .comma =
      frame.tree?.map fun t ↦ ⟨{}, (f, s, ts ++ [t]) :: outer⟩ := by
  cases frame with
  | mk as fs t => cases t <;> rfl

@[simp]
theorem step_greater {frame f : Frame} {s : String} {ts : List TypeTree}
    {outer : List (Frame × String × List TypeTree)} :
    Reader.step ⟨frame, (f, s, ts) :: outer⟩ .greater = frame.tree?.map fun t ↦
      ⟨⟨f.alternatives, f.factors, some (.application s (ts ++ [t]))⟩, outer⟩ := by
  cases frame with
  | mk as fs t => cases t <;> rfl

theorem join_of_two_le (h : 2 ≤ ts.length) : join j ts = junction j ts := by
  match ts with
  | _ :: _ :: _ => rfl

/-- Members with a sign between them are read one after the other, if each of them is, from where
the ones before it and the sign have led. -/
theorem foldlM_intercalate {start : List TypeTree → Reader} {Ends : List TypeTree → Reader → Prop}
    {sign : Token}
    (hmember : ∀ t ∈ ts, ∀ us, ∃ s, t.tokens.foldlM Reader.step (start us) = some s ∧
      Ends (us ++ [t]) s)
    (hsign : ∀ us s, Ends us s → s.step sign = some (start us)) (hne : ts ≠ [])
    (us : List TypeTree) :
    ∃ s, ([sign].intercalate (ts.map tokens)).foldlM Reader.step (start us) = some s ∧
      Ends (us ++ ts) s := by
  induction ts generalizing us with
  | nil => exact absurd rfl hne
  | cons t ts ih =>
      obtain ⟨s, hs, hends⟩ := hmember t List.mem_cons_self us
      by_cases hts : ts = []
      · subst hts
        exact ⟨s, by simpa using hs, hends⟩
      · obtain ⟨s', hs', hends'⟩ :=
          ih (fun u hu ↦ hmember u (List.mem_cons_of_mem t hu)) hts (us ++ [t])
        refine ⟨s', ?_, by simpa using hends'⟩
        rw [List.map_cons, List.intercalate_cons_of_ne_nil (by simpa using hts)]
        simp [hs, hsign _ s hends, hs']

/-- How a tree of a level is read, wherever it may stand. -/
def Reads : Option Junction → TypeTree → Prop
  | none, t => ∀ as fs outer,
    t.tokens.foldlM Reader.step ⟨⟨as, fs, none⟩, outer⟩ = some ⟨⟨as, fs, some t⟩, outer⟩
  | some .intersect, t => ∀ as outer, ∃ fs u, join .intersect (fs ++ [u]) = t ∧
    t.tokens.foldlM Reader.step ⟨⟨as, [], none⟩, outer⟩ = some ⟨⟨as, fs, some u⟩, outer⟩
  | some .union, t => ∀ outer, ∃ frame, frame.tree? = some t ∧
    t.tokens.foldlM Reader.step ⟨{}, outer⟩ = some ⟨frame, outer⟩

theorem reads_application (head : String) (hne : ts ≠ [])
    (h : ∀ t ∈ ts, Reads (some .union) t) : Reads none (.application head ts) := by
  intro as fs outer
  -- After some arguments the last of them is still open.
  let Ends (us : List TypeTree) (s : Reader) : Prop := ∃ frame t vs, frame.tree? = some t ∧
    vs ++ [t] = us ∧ s = ⟨frame, (⟨as, fs, none⟩, head, vs) :: outer⟩
  have hmember : ∀ t ∈ ts, ∀ us, ∃ s,
      t.tokens.foldlM Reader.step ⟨{}, (⟨as, fs, none⟩, head, us) :: outer⟩ = some s ∧
        Ends (us ++ [t]) s := by
    intro t ht us
    obtain ⟨frame, htree, hrun⟩ := h t ht ((⟨as, fs, none⟩, head, us) :: outer)
    exact ⟨_, hrun, frame, t, us, htree, rfl, rfl⟩
  have hsign : ∀ us s, Ends us s →
      s.step .comma = some ⟨{}, (⟨as, fs, none⟩, head, us) :: outer⟩ := by
    rintro us s ⟨frame, t, vs, htree, rfl, rfl⟩
    simp [htree]
  obtain ⟨s, hs, frame, t, us, htree, hus, rfl⟩ := foldlM_intercalate hmember hsign hne []
  rw [List.nil_append] at hus
  simp [tokens_application, Reader.step, hs, htree, hus]

theorem reads_intersection (hlen : 2 ≤ ts.length) (h : ∀ t ∈ ts, Reads none t) :
    Reads (some .intersect) (.junction .intersect ts) := by
  intro as outer
  -- The last member is the operand, to which brackets may still be added.
  let Ends (us : List TypeTree) (s : Reader) : Prop :=
    ∃ fs t, fs ++ [t] = us ∧ s = ⟨⟨as, fs, some t⟩, outer⟩
  have hmember : ∀ t ∈ ts, ∀ us, ∃ s,
      t.tokens.foldlM Reader.step ⟨⟨as, us, none⟩, outer⟩ = some s ∧ Ends (us ++ [t]) s :=
    fun t ht us ↦ ⟨_, h t ht as us outer, us, t, rfl, rfl⟩
  have hsign : ∀ us s, Ends us s →
      s.step (.joint .intersect) = some ⟨⟨as, us, none⟩, outer⟩ := by
    rintro us s ⟨fs, t, rfl, rfl⟩
    rfl
  have hne : ts ≠ [] := List.ne_nil_of_length_pos (by omega)
  obtain ⟨s, hs, fs, t, hts, rfl⟩ := foldlM_intercalate hmember hsign hne []
  rw [List.nil_append] at hts
  exact ⟨fs, t, by rw [hts, join_of_two_le hlen], by rw [tokens_junction, hs]⟩

theorem reads_union (hlen : 2 ≤ ts.length) (h : ∀ t ∈ ts, Reads (some .intersect) t) :
    Reads (some .union) (.junction .union ts) := by
  intro outer
  -- The last member is spread over the factors and the operand until a sign joins them.
  let Ends (us : List TypeTree) (s : Reader) : Prop :=
    ∃ as fs t, as ++ [join .intersect (fs ++ [t])] = us ∧ s = ⟨⟨as, fs, some t⟩, outer⟩
  have hmember : ∀ t ∈ ts, ∀ us, ∃ s,
      t.tokens.foldlM Reader.step ⟨⟨us, [], none⟩, outer⟩ = some s ∧ Ends (us ++ [t]) s := by
    intro t ht us
    obtain ⟨fs, u, hu, hrun⟩ := h t ht us outer
    exact ⟨_, hrun, us, fs, u, by rw [hu], rfl⟩
  have hsign : ∀ us s, Ends us s → s.step (.joint .union) = some ⟨⟨us, [], none⟩, outer⟩ := by
    rintro us s ⟨as, fs, t, rfl, rfl⟩
    rfl
  have hne : ts ≠ [] := List.ne_nil_of_length_pos (by omega)
  obtain ⟨s, hs, as, fs, t, hts, rfl⟩ := foldlM_intercalate hmember hsign hne []
  rw [List.nil_append] at hts
  refine ⟨⟨as, fs, some t⟩, ?_, by rw [tokens_junction, hs]⟩
  rw [Frame.tree?, hts, join_of_two_le hlen]

theorem Derives.reads {level : Option Junction} (h : Derives level t) : Reads level t := by
  induction h with
  | word s | text s => exact fun as fs outer ↦ rfl
  | application head hne _ ih => exact reads_application head hne ih
  | array _ ih =>
      intro as fs outer
      simp [tokens, ih as fs outer, Reader.step]
  | single j _ ih =>
      cases j with
      | intersect => exact fun as outer ↦ ⟨[], _, rfl, ih as [] outer⟩
      | union =>
          intro outer
          obtain ⟨fs, u, rfl, hrun⟩ := ih [] outer
          exact ⟨_, rfl, hrun⟩
  | junction j hlen _ ih =>
      cases j with
      | intersect => exact reads_intersection hlen ih
      | union => exact reads_union hlen ih

/-! ## What is read is derived -/

def Frame.tokens : Frame → List Token
  | ⟨as, fs, t⟩ =>
    as.flatMap (fun a ↦ a.tokens ++ [.joint .union]) ++
      fs.flatMap (fun f ↦ f.tokens ++ [.joint .intersect]) ++ t.elim [] TypeTree.tokens

def outerTokens : List (Frame × String × List TypeTree) → List Token
  | [] => []
  | (f, s, ts) :: outer =>
    outerTokens outer ++ f.tokens ++ [.word s, .less] ++ ts.flatMap fun t ↦ t.tokens ++ [.comma]

/-- The tokens that have been read. -/
def Reader.tokens (s : Reader) : List Token := outerTokens s.outer ++ s.frame.tokens

structure Frame.Sound (f : Frame) : Prop where
  alternatives : ∀ t ∈ f.alternatives, Derives (some .intersect) t
  factors : ∀ t ∈ f.factors, Derives none t
  operand : ∀ t ∈ f.operand, Derives none t

/-- Everything that is finished is derived at its level. -/
structure Reader.Sound (s : Reader) : Prop where
  frame : s.frame.Sound
  outer : ∀ e ∈ s.outer, e.1.Sound ∧ e.1.operand = none ∧ ∀ t ∈ e.2.2, Derives (some .union) t

theorem derives_join (hne : ts ≠ []) (h : ∀ t ∈ ts, Derives (tighter j) t) :
    Derives (some j) (join j ts) := by
  match ts with
  | [t] => exact .single j (h t (by simp))
  | _ :: _ :: _ => exact .junction j (by simp) h

theorem intercalate_append_singleton (sign : Token) (ts : List TypeTree) (t : TypeTree) :
    [sign].intercalate ((ts ++ [t]).map tokens) =
      ts.flatMap (fun u ↦ u.tokens ++ [sign]) ++ t.tokens := by
  induction ts with
  | nil => simp
  | cons u ts ih =>
      rw [List.cons_append, List.map_cons, List.intercalate_cons_of_ne_nil (by simp), ih]
      simp

theorem tokens_join_append (j : Junction) (ts : List TypeTree) (t : TypeTree) :
    (join j (ts ++ [t])).tokens = ts.flatMap (fun u ↦ u.tokens ++ [.joint j]) ++ t.tokens := by
  rw [tokens_join, intercalate_append_singleton]

theorem tokens_application_append (head : String) (ts : List TypeTree) (t : TypeTree) :
    (application head (ts ++ [t])).tokens =
      [.word head, .less] ++ ts.flatMap (fun u ↦ u.tokens ++ [.comma]) ++ t.tokens ++
        [.greater] := by
  rw [tokens_application, intercalate_append_singleton]
  simp

theorem forall_mem_append_singleton {P : TypeTree → Prop} (h : ∀ u ∈ ts, P u) (ht : P t) :
    ∀ u ∈ ts ++ [t], P u := by
  intro u hu
  rcases List.mem_append.1 hu with hu | hu
  · exact h u hu
  · exact List.mem_singleton.1 hu ▸ ht

theorem Frame.Sound.factors_join {f : Frame} (h : f.Sound) (ht : t ∈ f.operand) :
    Derives (some .intersect) (join .intersect (f.factors ++ [t])) := by
  exact derives_join (by simp) (forall_mem_append_singleton h.factors (h.operand t ht))

theorem Frame.Sound.derives {f : Frame} (h : f.Sound) (ht : f.tree? = some t) :
    Derives (some .union) t ∧ t.tokens = f.tokens := by
  match f with
  | ⟨as, fs, some u⟩ =>
      obtain rfl := Option.some.inj ht
      refine ⟨derives_join (by simp) ?_, by simp [tokens_join_append, Frame.tokens]⟩
      exact forall_mem_append_singleton h.alternatives (h.factors_join rfl)

theorem Frame.Sound.replace {as fs : List TypeTree} {o : Option TypeTree}
    (h : Frame.Sound ⟨as, fs, o⟩) (ht : Derives none t) : Frame.Sound ⟨as, fs, some t⟩ where
  alternatives := h.alternatives
  factors := h.factors
  operand _ hu := Option.some.inj hu ▸ ht

theorem Frame.sound_empty : Frame.Sound {} where
  alternatives t ht := by cases ht
  factors t ht := by cases ht
  operand t ht := by cases ht

theorem Reader.Sound.step {s s' : Reader} {token : Token} (h : s.Sound)
    (hs : s.step token = some s') : s'.Sound ∧ s'.tokens = s.tokens ++ [token] := by
  fun_cases Reader.step s token with
  | case1 as fs outer w =>
      obtain rfl := Option.some.inj hs
      refine ⟨⟨h.frame.replace (.word w), h.outer⟩, ?_⟩
      simp [Reader.tokens, Frame.tokens, TypeTree.tokens]
  | case2 as fs outer w =>
      obtain rfl := Option.some.inj hs
      refine ⟨⟨h.frame.replace (.text w), h.outer⟩, ?_⟩
      simp [Reader.tokens, Frame.tokens, TypeTree.tokens]
  | case3 as fs t outer =>
      obtain rfl := Option.some.inj hs
      have ht : Derives none (.array t) := .array (h.frame.operand t rfl)
      exact ⟨⟨h.frame.replace ht, h.outer⟩, by simp [Reader.tokens, Frame.tokens, TypeTree.tokens]⟩
  | case4 as fs t outer =>
      obtain rfl := Option.some.inj hs
      refine ⟨⟨⟨h.frame.alternatives, ?_, by simp⟩, h.outer⟩, by simp [Reader.tokens, Frame.tokens]⟩
      exact forall_mem_append_singleton h.frame.factors (h.frame.operand t rfl)
  | case5 as fs t outer =>
      obtain rfl := Option.some.inj hs
      refine ⟨⟨⟨?_, by simp, by simp⟩, h.outer⟩, ?_⟩
      · exact forall_mem_append_singleton h.frame.alternatives (h.frame.factors_join rfl)
      · simp [Reader.tokens, Frame.tokens, tokens_join_append]
  | case6 as fs w outer =>
      obtain rfl := Option.some.inj hs
      refine ⟨⟨Frame.sound_empty, List.forall_mem_cons.2 ⟨⟨?_, rfl, by simp⟩, h.outer⟩⟩, ?_⟩
      · exact ⟨h.frame.alternatives, h.frame.factors, by simp⟩
      · simp [Reader.tokens, Frame.tokens, outerTokens, TypeTree.tokens]
  | case7 frame f w ts outer =>
      obtain ⟨⟨hf, hnone, hts⟩, houter⟩ := List.forall_mem_cons.1 h.outer
      rw [step_comma] at hs
      obtain ⟨t, ht, rfl⟩ := Option.map_eq_some_iff.1 hs
      obtain ⟨hderives, htokens⟩ := h.frame.derives ht
      refine ⟨⟨Frame.sound_empty, List.forall_mem_cons.2 ⟨⟨hf, hnone, ?_⟩, houter⟩⟩, ?_⟩
      · exact forall_mem_append_singleton hts hderives
      · simp [Reader.tokens, Frame.tokens, outerTokens, htokens]
  | case8 frame f w ts outer =>
      obtain ⟨⟨hf, hnone, hts⟩, houter⟩ := List.forall_mem_cons.1 h.outer
      rw [step_greater] at hs
      obtain ⟨t, ht, rfl⟩ := Option.map_eq_some_iff.1 hs
      obtain ⟨hderives, htokens⟩ := h.frame.derives ht
      have happlication : Derives none (.application w (ts ++ [t])) :=
        .application w (by simp) (forall_mem_append_singleton hts hderives)
      refine ⟨⟨hf.replace happlication, houter⟩, ?_⟩
      obtain ⟨as, fs, o⟩ := f
      obtain rfl : o = none := hnone
      simp [Reader.tokens, Frame.tokens, outerTokens, tokens_application_append, htokens]
  | case9 =>
      rw [Reader.step] at hs
      · cases hs
      all_goals assumption

theorem Reader.Sound.run {s s' : Reader} {ts : List Token} (h : s.Sound)
    (hs : ts.foldlM Reader.step s = some s') : s'.Sound ∧ s'.tokens = s.tokens ++ ts := by
  induction ts generalizing s with
  | nil =>
      obtain rfl := Option.some.inj hs
      exact ⟨h, by simp⟩
  | cons token ts ih =>
      rw [List.foldlM_cons] at hs
      obtain ⟨s₁, hs₁, hs'⟩ := Option.bind_eq_some_iff.1 hs
      obtain ⟨h₁, htokens₁⟩ := h.step hs₁
      obtain ⟨h', htokens'⟩ := ih h₁ hs'
      exact ⟨h', by simp [htokens', htokens₁]⟩

/-- The reader does what the grammar says. -/
theorem read_eq_some_iff {tokens : List Token} :
    read tokens = some t ↔ Derives (some .union) t ∧ t.tokens = tokens := by
  constructor
  · intro h
    obtain ⟨s, hs, htree⟩ := Option.bind_eq_some_iff.1 h
    obtain ⟨hsound, htokens⟩ := Reader.Sound.run ⟨Frame.sound_empty, by simp⟩ hs
    match s with
    | ⟨frame, []⟩ =>
        obtain ⟨hderives, hframe⟩ := hsound.frame.derives htree
        refine ⟨hderives, ?_⟩
        simpa [Reader.tokens, outerTokens, Frame.tokens, hframe] using htokens
  · rintro ⟨h, rfl⟩
    obtain ⟨frame, htree, hrun⟩ := h.reads []
    rw [read, hrun]
    exact htree

end TypeTree

end Typings
