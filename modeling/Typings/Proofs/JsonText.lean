import Typings.Json.Reader
import Typings.Proofs.FloatText
import Typings.Proofs.JsonStrings

/-!
# JSON text read back

Wherever a value may stand, the reader takes the text of a value to that value: it delivers the
value to the container that is open there and goes on behind the text. A numeral must not run on in
what follows it, and nothing that the writer puts behind a value could belong to one.
-/

namespace Typings.Json

/-! ## Values that can be read back -/

mutual

/-- Integers keep to the limit of digits, and no object has two members of one name. -/
def Readable : Json → Prop
  | int n => (Numeral.digits n.natAbs).length ≤ Numeral.digitLimit
  | arr items => ReadableItems items
  | obj members => (members.map Prod.fst).Nodup ∧ ReadableMembers members
  | null | bool _ | float _ | str _ => True

def ReadableItems : List Json → Prop
  | [] => True
  | v :: rest => v.Readable ∧ ReadableItems rest

def ReadableMembers : List (String × Json) → Prop
  | [] => True
  | (_, v) :: rest => v.Readable ∧ ReadableMembers rest

end

theorem readableItems_iff {items : List Json} : ReadableItems items ↔ ∀ v ∈ items, v.Readable := by
  induction items with
  | nil => simp [ReadableItems]
  | cons v rest ih => rw [ReadableItems, ih, List.forall_mem_cons]

theorem readableMembers_iff {members : List (String × Json)} :
    ReadableMembers members ↔ ∀ p ∈ members, p.2.Readable := by
  induction members with
  | nil => simp [ReadableMembers]
  | cons p rest ih => rw [ReadableMembers, ih, List.forall_mem_cons]

theorem readable_obj {members : List (String × Json)} (hnodup : (members.map Prod.fst).Nodup)
    (h : ∀ p ∈ members, p.2.Readable) : (obj members).Readable :=
  ⟨hnodup, readableMembers_iff.2 h⟩

/-- The margins of a style consist of white space. -/
def Style.IsBlank (style : Style) : Prop :=
  ∀ depth, ∀ c ∈ style.lineStart depth, isSpace c = true

theorem Style.isBlank_ofIndent {indent : Option Int} {style : Style}
    (h : Style.ofIndent indent = .ok style) : style.IsBlank := by
  intro depth c hc
  cases indent with
  | none =>
      obtain rfl := Except.ok.inj h
      cases hc
  | some width =>
      rw [Style.ofIndent, Text.margin] at h
      split_ifs at h
      all_goals cases h
      rcases List.mem_cons.1 hc with rfl | hc
      · rfl
      · obtain ⟨margin, hmargin, hc⟩ := List.mem_flatten.1 hc
        obtain rfl := List.eq_of_mem_replicate hmargin
        obtain rfl := List.eq_of_mem_replicate hc
        rfl

/-! ## Tokens -/

variable {σ : Text.StandIns}

theorem lex_of_isSpace {c : Char} (hc : isSpace c = true) (cs : List Char) :
    lex σ (c :: cs) = (.flawed (.malformed .valueExpected (c :: cs)), []) := by
  simp only [isSpace, Bool.or_eq_true, decide_eq_true_eq] at hc
  rcases hc with ((rfl | rfl) | rfl) | rfl
  · rfl
  · rfl
  · rfl
  · rfl

theorem lex_float (x : Binary64) {rest : List Char} (hrest : EndsNumeral rest) :
    lex σ (x.text writtenSpelling ++ rest) = (.scalar (.float x), rest) := by
  cases x with
  | nan => rfl
  | infinity negative =>
      cases negative with
      | true => rfl
      | false => rfl
  | finite negative rank => exact (isNumeral_finite writtenSpelling negative rank).lex_eq σ hrest

theorem endsNumeral_cons {c : Char} (hc : isNumeralChar c = false) (cs : List Char) :
    EndsNumeral (c :: cs) := by
  rintro _ ⟨⟩
  exact hc

theorem endsNumeral_lineStart (style : Style) (depth : Nat) {c : Char}
    (hc : isNumeralChar c = false) (cs : List Char) :
    EndsNumeral (style.lineStart depth ++ c :: cs) := by
  cases style with
  | inline => exact endsNumeral_cons hc cs
  | indented margin => exact endsNumeral_cons (by decide) _

theorem endsNumeral_between (style : Style) (depth : Nat) (cs : List Char) :
    EndsNumeral (style.between depth ++ cs) := by
  cases style with
  | inline => exact endsNumeral_cons (by decide) _
  | indented margin => exact endsNumeral_cons (by decide) _

theorem endsNumeral_items (style : Style) (items : List Json) (outer depth : Nat)
    (rest : List Char) :
    EndsNumeral (writeItems style depth items ++ (style.lineStart outer ++ ']' :: rest)) := by
  cases items with
  | nil => exact endsNumeral_lineStart style outer (by decide) rest
  | cons v items =>
      rw [writeItems, List.append_assoc, List.append_assoc]
      exact endsNumeral_between style depth _

theorem endsNumeral_members (style : Style) (members : List (String × Json)) (outer depth : Nat)
    (rest : List Char) :
    EndsNumeral
      (writeMembers style depth members ++ (style.lineStart outer ++ '\x7d' :: rest)) := by
  cases members with
  | nil => exact endsNumeral_lineStart style outer (by decide) rest
  | cons p members =>
      rw [writeMembers, List.append_assoc, List.append_assoc, List.append_assoc, List.append_assoc]
      exact endsNumeral_between style depth _

namespace Machine

/-! ## Single tokens -/

section Tokens

variable {m m' : Machine} {cs rest : List Char}

theorem step_flawed_ne_ok (m : Machine) (flaw : Flaw) (text : List Char) :
    m.step (.flawed flaw) text ≠ .ok m' := by
  have hname (stack : List Frame) : takeName stack (.flawed flaw) text ≠ .ok m' := by
    unfold takeName
    split
    · next htoken => cases htoken
    · exact nofun
    · exact nofun
  obtain ⟨want, stack⟩ := m
  cases want with
  | name | nameOrClose => exact hname stack
  | _ => exact nofun

theorem run_of_lex {token : Token} (hlex : lex σ cs = (token, rest))
    (hstep : m.step token cs = .ok m') : m.run σ cs = m'.run σ rest := by
  -- No step takes a flawed token, and white space and the end of the text give only such.
  cases cs with
  | nil =>
      obtain rfl := congrArg Prod.fst hlex
      exact absurd hstep (step_flawed_ne_ok m _ _)
  | cons c cs =>
      have hspace : ¬ isSpace c = true := by
        intro hspace
        rw [lex_of_isSpace hspace] at hlex
        obtain rfl := congrArg Prod.fst hlex
        exact step_flawed_ne_ok m _ _ hstep
      rw [run, if_neg hspace, hlex, hstep]

theorem run_spaces (m : Machine) {spaces : List Char} (h : ∀ c ∈ spaces, isSpace c = true)
    (rest : List Char) : m.run σ (spaces ++ rest) = m.run σ rest := by
  induction spaces with
  | nil => rfl
  | cons c spaces ih =>
      obtain ⟨hc, hspaces⟩ := List.forall_mem_cons.1 h
      rw [List.cons_append, run, if_pos hc, ih hspaces]

end Tokens

/-- Whether a value may come next. -/
def TakesValue : Want → Prop
  | .value | .itemOrClose => True
  | _ => False

section Values

variable {want : Want} {stack : List Frame} {cs rest : List Char}

theorem takesValue_value : TakesValue .value := trivial

theorem takesValue_itemOrClose : TakesValue .itemOrClose := trivial

theorem run_of_takeValue (hwant : TakesValue want) {token : Token} (hlex : lex σ cs = (token, rest))
    (htoken : token ≠ .closeArray) {m : Machine} (hm : takeValue stack token cs = .ok m) :
    run σ ⟨want, stack⟩ cs = run σ m rest := by
  refine run_of_lex hlex ?_
  cases want with
  | value => exact hm
  | itemOrClose =>
      cases token with
      | closeArray => exact absurd rfl htoken
      | _ => exact hm
  | _ => exact hwant.elim

theorem run_scalar (hwant : TakesValue want) {v : Json} (hlex : lex σ cs = (.scalar v, rest)) :
    run σ ⟨want, stack⟩ cs = run σ (deliver v stack) rest :=
  run_of_takeValue hwant hlex nofun rfl

theorem run_string (hwant : TakesValue want) (s : String) :
    run σ ⟨want, stack⟩ (writeString s ++ rest) = run σ (deliver (.str s) stack) rest :=
  run_of_takeValue hwant (lex_writeString σ s rest) nofun rfl

theorem run_openArray (hwant : TakesValue want) (cs : List Char) :
    run σ ⟨want, stack⟩ ('[' :: cs) = run σ ⟨.itemOrClose, .arr [] :: stack⟩ cs := by
  have hlex : lex σ ('[' :: cs) = (.openArray, cs) := rfl
  exact run_of_takeValue hwant hlex nofun rfl

theorem run_openObject (hwant : TakesValue want) (cs : List Char) :
    run σ ⟨want, stack⟩ ('\x7b' :: cs) = run σ ⟨.nameOrClose, .obj [] "" :: stack⟩ cs := by
  have hlex : lex σ ('\x7b' :: cs) = (.openObject, cs) := rfl
  exact run_of_takeValue hwant hlex nofun rfl

/-- A name of a member, the colon and the blank behind it. -/
theorem run_name (hwant : want = .name ∨ want = .nameOrClose) (members : List (String × Json))
    (name key : String) (cs : List Char) :
    run σ ⟨want, .obj members name :: stack⟩ (writeString key ++ ':' :: ' ' :: cs) =
      run σ ⟨.value, .obj members key :: stack⟩ cs := by
  have hname : step ⟨want, .obj members name :: stack⟩ (.text key)
      (writeString key ++ ':' :: ' ' :: cs) = .ok ⟨.colon, .obj members key :: stack⟩ := by
    rcases hwant with rfl | rfl
    · rfl
    · rfl
  have hcolon : lex σ (':' :: ' ' :: cs) = (.colon, ' ' :: cs) := rfl
  rw [run_of_lex (lex_writeString σ key _) hname, run_of_lex hcolon rfl]
  exact run_spaces _ (List.forall_mem_singleton.2 rfl) cs

end Values

/-- A comma and the white space behind it. -/
theorem run_between {style : Style} (hstyle : style.IsBlank) {m : Machine} (m' : Machine)
    (hm : ∀ text, m.step .comma text = .ok m') (depth : Nat) (cs : List Char) :
    m.run σ (style.between depth ++ cs) = m'.run σ cs := by
  obtain ⟨spaces, hbetween, hspaces⟩ : ∃ spaces, style.between depth = ',' :: spaces ∧
      ∀ c ∈ spaces, isSpace c = true := by
    cases style with
    | inline => exact ⟨[' '], rfl, List.forall_mem_singleton.2 rfl⟩
    | indented margin => exact ⟨_, rfl, hstyle depth⟩
  have hcomma : lex σ (',' :: (spaces ++ cs)) = (.comma, spaces ++ cs) := rfl
  rw [hbetween, List.cons_append, run_of_lex hcomma (hm _), run_spaces m' hspaces]

theorem deliver_member {done : List (String × Json)} {key : String}
    (hkey : key ∉ done.map Prod.fst) (v : Json) (stack : List Frame) :
    deliver v (.obj done key :: stack) = ⟨.separator, .obj (done ++ [(key, v)]) key :: stack⟩ := by
  rw [deliver, Assoc.insert_of_notMem hkey]

/-! ## Whole values -/

section Write

variable {style : Style} (hstyle : style.IsBlank)

include hstyle

mutual

theorem run_write {v : Json} (hv : v.Readable) {want : Want} (hwant : TakesValue want)
    (depth : Nat) (stack : List Frame) {rest : List Char} (hrest : EndsNumeral rest) :
    run σ ⟨want, stack⟩ (write style depth v ++ rest) = run σ (deliver v stack) rest := by
  match v, hv with
  | null, _ | bool true, _ | bool false, _ => exact run_scalar hwant rfl
  | int n, hv => exact run_scalar hwant ((isNumeral_ofInt hv).lex_eq σ hrest)
  | float x, _ => exact run_scalar hwant (lex_float x hrest)
  | str s, _ => exact run_string hwant s
  | arr [], _ =>
      change run σ _ ('[' :: ']' :: rest) = _
      rw [run_openArray hwant]
      exact run_of_lex rfl rfl
  | arr (v :: items), hv =>
      rw [write]
      simp only [List.cons_append, List.append_assoc, List.nil_append]
      rw [run_openArray hwant, run_spaces _ (hstyle _),
        run_write hv.1 takesValue_itemOrClose _ _ (endsNumeral_items _ _ _ _ _)]
      exact run_writeItems hv.2 [v] depth (depth + 1) stack rest
  | obj [], _ =>
      change run σ _ ('\x7b' :: '\x7d' :: rest) = _
      rw [run_openObject hwant]
      exact run_of_lex rfl rfl
  | obj ((key, v) :: members), hv =>
      rw [write]
      simp only [List.cons_append, List.append_assoc, List.nil_append]
      obtain ⟨hnodup, hv, hmembers⟩ := hv
      rw [run_openObject hwant, run_spaces _ (hstyle _),
        run_name (.inr rfl), run_write hv takesValue_value _ _ (endsNumeral_members _ _ _ _ _)]
      exact run_writeMembers hmembers [(key, v)] hnodup key depth (depth + 1) stack rest

/-- The items after the first one, up to the end of the array. -/
theorem run_writeItems {items : List Json} (hitems : ReadableItems items) (done : List Json)
    (outer depth : Nat) (stack : List Frame) (rest : List Char) :
    run σ ⟨.separator, .arr done :: stack⟩
      (writeItems style depth items ++ (style.lineStart outer ++ ']' :: rest)) =
        run σ (deliver (.arr (done ++ items)) stack) rest := by
  match items, hitems with
  | [], _ =>
      rw [writeItems, List.nil_append, run_spaces _ (hstyle outer), List.append_nil]
      exact run_of_lex rfl rfl
  | v :: items, ⟨hv, hitems⟩ =>
      rw [writeItems, List.append_assoc, List.append_assoc,
        run_between hstyle ⟨.value, .arr done :: stack⟩ (fun _ ↦ rfl),
        run_write hv takesValue_value _ _ (endsNumeral_items _ _ _ _ _),
        List.append_cons done v items]
      exact run_writeItems hitems (done ++ [v]) outer depth stack rest

/-- The members after the first one, up to the end of the object. -/
theorem run_writeMembers {members : List (String × Json)} (hmembers : ReadableMembers members)
    (done : List (String × Json)) (hnodup : ((done ++ members).map Prod.fst).Nodup)
    (name : String) (outer depth : Nat) (stack : List Frame) (rest : List Char) :
    run σ ⟨.separator, .obj done name :: stack⟩
      (writeMembers style depth members ++ (style.lineStart outer ++ '\x7d' :: rest)) =
        run σ (deliver (.obj (done ++ members)) stack) rest := by
  match members, hmembers with
  | [], _ =>
      rw [writeMembers, List.nil_append, run_spaces _ (hstyle outer), List.append_nil]
      exact run_of_lex rfl rfl
  | (key, v) :: members, ⟨hv, hmembers⟩ =>
      rw [writeMembers]
      simp only [List.cons_append, List.append_assoc, List.nil_append]
      rw [run_between hstyle ⟨.name, .obj done name :: stack⟩ (fun _ ↦ rfl), run_name (.inl rfl),
        run_write hv takesValue_value _ _ (endsNumeral_members _ _ _ _ _), deliver_member]
      · rw [List.append_cons done (key, v) members] at hnodup ⊢
        exact run_writeMembers hmembers (done ++ [(key, v)]) hnodup key outer depth stack rest
      · rw [List.map_append, List.nodup_append] at hnodup
        exact fun hkey ↦ hnodup.2.2 key hkey key List.mem_cons_self rfl

end

end Write

end Machine

/-! ## Texts -/

theorem Machine.run_start_mark (cs : List Char) : start.run σ ('\ufeff' :: cs) =
    .error (.malformed .valueExpected ('\ufeff' :: cs)) := by
  have hlex : lex σ ('\ufeff' :: cs) =
      (.flawed (.malformed .valueExpected ('\ufeff' :: cs)), []) := rfl
  rw [start, run, if_neg (by decide), hlex]
  rfl

/-- What is written is read back, whatever stands for the lone surrogates, for it names none. -/
theorem readWith_render (σ : Text.StandIns) {style : Style} (hstyle : style.IsBlank) {v : Json}
    (hv : v.Readable) : readWith σ (v.render style).toList = .ok v := by
  have hrun : Machine.start.run σ (v.render style).toList = .ok v := by
    have hend : (Machine.deliver v []).run σ [] = .ok v := by
      rw [Machine.deliver, Machine.run]
      rfl
    have hnil : EndsNumeral [] := by
      rintro _ ⟨⟩
    have hwrite := Machine.run_write (σ := σ) hstyle hv Machine.takesValue_value 0 [] hnil
    rw [List.append_nil, hend] at hwrite
    rw [render, String.toList_ofList]
    exact hwrite
  -- A value that could be read cannot have begun with the mark, which is no token.
  have hmark (cs : List Char) : (v.render style).toList ≠ '\ufeff' :: cs := by
    intro hcons
    rw [hcons, Machine.run_start_mark] at hrun
    cases hrun
  unfold readWith
  split
  · next hcons => exact absurd hcons (hmark _)
  · dsimp only
    rw [hrun]

end Typings.Json
