import Typings.Kind

/-!
# Trees of types

What a type expression stands for when it is read: words and literal texts, applications, arrays,
and composites of any number of members. A composite directly inside another one of its kind says
nothing, and neither does a composite of one member; without these a tree is in normal form, and
its tokens are still the same.
-/

namespace Typings

inductive Token where
  | word (s : String)
  | text (s : String)
  /-- The sign between the members of a composite. -/
  | joint (j : Junction)
  | brackets
  | less
  | greater
  | comma
deriving DecidableEq

inductive TypeTree where
  | word (s : String)
  | text (s : String)
  | application (head : String) (arguments : List TypeTree)
  | array (item : TypeTree)
  | junction (j : Junction) (members : List TypeTree)

namespace TypeTree

/-! ## Tokens -/

mutual

/-- The tokens of a tree, with no brackets around composites. -/
def tokens : TypeTree → List Token
  | word s => [.word s]
  | text s => [.text s]
  | application head ts =>
    .word head :: .less :: ([.comma].intercalate (tokensEach ts) ++ [.greater])
  | array t => tokens t ++ [.brackets]
  | junction j ts => [.joint j].intercalate (tokensEach ts)

def tokensEach : List TypeTree → List (List Token)
  | [] => []
  | t :: rest => tokens t :: tokensEach rest

end

theorem tokensEach_eq_map (ts : List TypeTree) : tokensEach ts = ts.map tokens := by
  induction ts with
  | nil => rfl
  | cons t ts ih => rw [tokensEach, ih, List.map_cons]

theorem tokens_application (head : String) (ts : List TypeTree) :
    (application head ts).tokens =
      .word head :: .less :: ([.comma].intercalate (ts.map tokens) ++ [.greater]) := by
  rw [tokens, tokensEach_eq_map]

theorem tokens_junction (j : Junction) (ts : List TypeTree) :
    (junction j ts).tokens = [.joint j].intercalate (ts.map tokens) := by
  rw [tokens, tokensEach_eq_map]

/-! ## Normal form -/

def joint? : TypeTree → Option Junction
  | junction j _ => some j
  | _ => none

/-- The members of a composite of a given kind; any other tree is one member. -/
def parts (j : Junction) : TypeTree → List TypeTree
  | junction j' ts => if j' = j then ts else [junction j' ts]
  | t => [t]

/-- One member stands for itself. -/
def join (j : Junction) : List TypeTree → TypeTree
  | [t] => t
  | ts => junction j ts

mutual

def normal : TypeTree → TypeTree
  | word s => word s
  | text s => text s
  | application head ts => application head (normalEach ts)
  | array t => array (normal t)
  | junction j ts => join j ((normalEach ts).flatMap (parts j))

def normalEach : List TypeTree → List TypeTree
  | [] => []
  | t :: rest => normal t :: normalEach rest

end

theorem normalEach_eq_map (ts : List TypeTree) : normalEach ts = ts.map normal := by
  induction ts with
  | nil => rfl
  | cons t ts ih => rw [normalEach, ih, List.map_cons]

/-- Every composite has a member. -/
inductive Populated : TypeTree → Prop
  | word (s : String) : Populated (.word s)
  | text (s : String) : Populated (.text s)
  | application (head : String) {ts : List TypeTree} (hne : ts ≠ [])
      (hts : ∀ t ∈ ts, Populated t) : Populated (.application head ts)
  | array {t : TypeTree} (ht : Populated t) : Populated (.array t)
  | junction (j : Junction) {ts : List TypeTree} (hne : ts ≠ []) (hts : ∀ t ∈ ts, Populated t) :
      Populated (.junction j ts)

/-- Every composite has several members, none of which is a composite of its kind. -/
inductive Normal : TypeTree → Prop
  | word (s : String) : Normal (.word s)
  | text (s : String) : Normal (.text s)
  | application (head : String) {ts : List TypeTree} (hne : ts ≠ []) (hts : ∀ t ∈ ts, Normal t) :
      Normal (.application head ts)
  | array {t : TypeTree} (ht : Normal t) : Normal (.array t)
  | junction (j : Junction) {ts : List TypeTree} (hlen : 2 ≤ ts.length)
      (hts : ∀ t ∈ ts, Normal t) (hflat : ∀ t ∈ ts, t.joint? ≠ some j) : Normal (.junction j ts)

/-- What can be written without brackets: neither is an array made of a composite, nor is a union
a member of an intersection. -/
inductive Writable : TypeTree → Prop
  | word (s : String) : Writable (.word s)
  | text (s : String) : Writable (.text s)
  | application (head : String) {ts : List TypeTree} (hts : ∀ t ∈ ts, Writable t) :
      Writable (.application head ts)
  | array {t : TypeTree} (ht : Writable t) (hitem : t.joint? = none) : Writable (.array t)
  | union {ts : List TypeTree} (hts : ∀ t ∈ ts, Writable t) : Writable (.junction .union ts)
  | intersection {ts : List TypeTree} (hts : ∀ t ∈ ts, Writable t)
      (hmembers : ∀ t ∈ ts, t.joint? ≠ some .union) : Writable (.junction .intersect ts)

variable {j : Junction} {t u : TypeTree} {ts : List TypeTree}

theorem parts_of_joint?_ne (h : t.joint? ≠ some j) : t.parts j = [t] := by
  cases t with
  | junction j' ts => simp_all [parts, joint?]
  | _ => rfl

theorem Normal.parts_ne_nil (h : t.Normal) (j : Junction) : t.parts j ≠ [] := by
  cases h with
  | @junction j' ts hlen _ _ =>
      rw [parts]
      split
      · rintro rfl
        simp at hlen
      · simp
  | _ => simp [parts]

theorem Normal.of_mem_parts (h : t.Normal) (hu : u ∈ t.parts j) : u.Normal ∧ u.joint? ≠ some j := by
  by_cases hj : t.joint? = some j
  · cases h with
    | @junction j' ts _ hts hflat =>
        obtain rfl := Option.some.inj hj
        rw [parts, if_pos rfl] at hu
        exact ⟨hts u hu, hflat u hu⟩
    | _ => cases hj
  · rw [parts_of_joint?_ne hj] at hu
    obtain rfl := List.mem_singleton.1 hu
    exact ⟨h, hj⟩

theorem normal_join (hne : ts ≠ []) (h : ∀ t ∈ ts, t.Normal ∧ t.joint? ≠ some j) :
    (join j ts).Normal := by
  match ts with
  | [t] => exact (h t (by simp)).1
  | _ :: _ :: _ =>
      refine .junction j (by simp) (fun t ht ↦ (h t ht).1) (fun t ht ↦ (h t ht).2)

theorem normal_normal (h : t.Populated) : t.normal.Normal := by
  induction h with
  | word s => exact .word s
  | text s => exact .text s
  | @application head ts hne _ ih =>
      rw [normal, normalEach_eq_map]
      refine .application head (by simpa using hne) fun u hu ↦ ?_
      obtain ⟨t, ht, rfl⟩ := List.mem_map.1 hu
      exact ih t ht
  | array _ ih => exact .array ih
  | @junction j ts hne _ ih =>
      rw [normal, normalEach_eq_map]
      refine normal_join ?_ fun u hu ↦ ?_
      · obtain ⟨t, ht⟩ := List.exists_mem_of_ne_nil ts hne
        obtain ⟨u, hu⟩ := List.exists_mem_of_ne_nil _ ((ih t ht).parts_ne_nil j)
        refine List.ne_nil_of_mem (List.mem_flatMap.2 ⟨t.normal, ?_, hu⟩)
        exact List.mem_map_of_mem ht
      · obtain ⟨v, hv, hu⟩ := List.mem_flatMap.1 hu
        obtain ⟨t, ht, rfl⟩ := List.mem_map.1 hv
        exact (ih t ht).of_mem_parts hu

/-! ## The normal form has the same tokens -/

theorem intercalate_append {α : Type} {s : List α} {xss yss : List (List α)} (hx : xss ≠ [])
    (hy : yss ≠ []) :
    s.intercalate (xss ++ yss) = s.intercalate xss ++ s ++ s.intercalate yss := by
  induction xss with
  | nil => exact absurd rfl hx
  | cons xs xss ih =>
      by_cases hne : xss = []
      · subst hne
        rw [List.singleton_append, List.intercalate_cons_of_ne_nil hy, List.intercalate_singleton]
      · rw [List.cons_append, List.intercalate_cons_of_ne_nil (by simp [hne]), ih hne,
          List.intercalate_cons_of_ne_nil hne]
        simp only [List.append_assoc]

theorem intercalate_flatMap {α β γ : Type} {s : List γ} {f : α → List β} {g : β → List γ}
    {xs : List α} (h : ∀ x ∈ xs, f x ≠ []) :
    s.intercalate ((xs.flatMap f).map g) =
      s.intercalate (xs.map fun x ↦ s.intercalate ((f x).map g)) := by
  induction xs with
  | nil => rfl
  | cons x xs ih =>
      have hxs := ih fun y hy ↦ h y (List.mem_cons_of_mem x hy)
      rw [List.flatMap_cons, List.map_append, List.map_cons]
      cases xs with
      | nil => simp
      | cons y ys =>
          have hx : (f x).map g ≠ [] := by simpa using h x List.mem_cons_self
          have hy : ((y :: ys).flatMap f).map g ≠ [] := by simp [h y]
          rw [intercalate_append hx hy, hxs, List.intercalate_cons_of_ne_nil (by simp)]

theorem tokens_join (j : Junction) (ts : List TypeTree) :
    (join j ts).tokens = [.joint j].intercalate (ts.map tokens) := by
  match ts with
  | [] | _ :: _ :: _ => rw [join, tokens_junction]; simp
  | [t] => simp [join]

theorem intercalate_parts (j : Junction) (t : TypeTree) :
    [.joint j].intercalate ((t.parts j).map tokens) = t.tokens := by
  by_cases hj : t.joint? = some j
  · cases t with
    | junction j' ts =>
        obtain rfl := Option.some.inj hj
        rw [parts, if_pos rfl, tokens_junction]
    | _ => cases hj
  · rw [parts_of_joint?_ne hj]
    simp

theorem tokens_normal (h : t.Populated) : t.normal.tokens = t.tokens := by
  induction h with
  | word s => rfl
  | text s => rfl
  | @application head ts _ _ ih =>
      rw [normal, normalEach_eq_map, tokens_application, tokens_application, List.map_map]
      congr 4
      exact List.map_congr_left ih
  | array _ ih => rw [normal, tokens, ih, tokens]
  | @junction j ts _ hts ih =>
      have hparts : ∀ u ∈ ts.map normal, u.parts j ≠ [] := by
        intro u hu
        obtain ⟨t, ht, rfl⟩ := List.mem_map.1 hu
        exact (normal_normal (hts t ht)).parts_ne_nil j
      rw [normal, normalEach_eq_map, tokens_join, intercalate_flatMap hparts, tokens_junction]
      simp only [intercalate_parts, List.map_map]
      congr 1
      exact List.map_congr_left ih

end TypeTree

end Typings
