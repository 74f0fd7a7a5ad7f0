import Typings.Proofs.Expansion
import Typings.Proofs.TypeText

/-!
# What a mention is read as

An expansion describes a tree of types, and its text is read back as a tree. The two trees have the
same normal form exactly if that form can be written without brackets: the text of an array of
composites, and that of an intersection with a union in it, are read as something else.
-/

namespace Typings

open TypeTree

namespace TypeExpr

variable {naming : Naming} {t : TypeExpr}

/-! ## The tree that an expansion describes -/

def literalMeaning : Value → TypeTree
  | .str s => .text s
  | v => .word (literalText v)

mutual

def meaning (naming : Naming) : TypeExpr → TypeTree
  | primitive p => .word (primitiveText naming p)
  | literal v => literalMeaning v
  | named name => .word name
  | synthetic id => .word (naming.synthetic id)
  | wrapper .record t => .application "Record" [.word "string", meaning naming t]
  | wrapper .nullable t => .junction .union [meaning naming t, .word "null", .word "undefined"]
  | wrapper .list t => .array (meaning naming t)
  | junction j ts => .junction j (meaningEach naming ts)

def meaningEach (naming : Naming) : List TypeExpr → List TypeTree
  | [] => []
  | t :: rest => meaning naming t :: meaningEach naming rest

end

theorem meaningEach_eq_map (ts : List TypeExpr) :
    meaningEach naming ts = ts.map (meaning naming) := by
  induction ts with
  | nil => rfl
  | cons t ts ih => rw [meaningEach, ih, List.map_cons]

/-! ## Legible expansions -/

/-- A literal that is written as it is: a truth value, a number, or a text in which nothing needs
an escape. -/
def LegibleLiteral : Value → Prop
  | .str s => ∀ c ∈ s.toList, c ≠ '"' ∧ c ≠ '\\'
  | .bool _ | .int _ | .float _ | .nan | .null => True
  | .list _ | .object _ | .reference _ => False

/-- The names in an expansion are words, its literals are legible, and no composite is empty. -/
inductive Legible (naming : Naming) : TypeExpr → Prop
  | primitive {p : Primitive} (hp : IsWord (primitiveText naming p)) : Legible naming (.primitive p)
  | literal {v : Value} (hv : LegibleLiteral v) : Legible naming (.literal v)
  | named {name : String} (hname : IsWord name) : Legible naming (.named name)
  | synthetic {id : String} (hid : IsWord (naming.synthetic id)) : Legible naming (.synthetic id)
  | wrapper (w : Wrapper) {t : TypeExpr} (ht : Legible naming t) : Legible naming (.wrapper w t)
  | junction (j : Junction) {ts : List TypeExpr} (hne : ts ≠ [])
      (hts : ∀ t ∈ ts, Legible naming t) : Legible naming (.junction j ts)

theorem isWord_primitiveText (hjson : IsWord naming.jsonTypeName) (p : Primitive) :
    IsWord (primitiveText naming p) := by
  cases p with
  | json => exact hjson
  | _ =>
      rw [primitiveText]
      decide

theorem Legible.populated (h : Legible naming t) : (t.meaning naming).Populated := by
  induction h with
  | primitive _ | named _ | synthetic _ =>
      rw [meaning]
      exact .word _
  | @literal v _ =>
      rw [meaning]
      cases v <;> constructor
  | wrapper w _ ih =>
      cases w with
      | record =>
          rw [meaning]
          exact .application _ (by simp) (by simpa using ⟨.word _, ih⟩)
      | nullable =>
          rw [meaning]
          exact .junction _ (by simp) (by simpa using ⟨ih, .word _, .word _⟩)
      | list =>
          rw [meaning]
          exact .array ih
  | junction j hne _ ih =>
      rw [meaning, meaningEach_eq_map]
      refine .junction j (by simpa using hne) fun u hu ↦ ?_
      obtain ⟨t, ht, rfl⟩ := List.mem_map.1 hu
      exact ih t ht

/-! ## The tokens of a rendered expansion -/

theorem lexes_literal {v : Value} (h : LegibleLiteral v) :
    Lexes (literalText v).toList (literalMeaning v).tokens := by
  cases v with
  | str s =>
      have htext : (literalText (.str s)).toList = '"' :: s.toList ++ ['"'] := by
        simp [literalText]
      rw [htext]
      exact lexes_text h
  | bool b => cases b <;> exact lexes_word (by decide)
  | null | nan => exact lexes_word (by decide)
  | int n => exact lexes_word (isWord_int n)
  | float x => exact lexes_word (isWord_float x)
  | list _ | object _ | reference _ => exact absurd h id

theorem lexes_wrapper (w : Wrapper) {text : String} {t : TypeExpr}
    (h : Lexes text.toList (t.meaning naming).tokens) :
    Lexes (wrapperText w text).toList ((wrapper w t).meaning naming).tokens := by
  cases w with
  | record =>
      have htext : (wrapperText .record text).toList =
          "Record".toList ++ ['<'] ++ "string".toList ++ [',', ' '] ++ text.toList ++ ['>'] := by
        change ("Record<string, " ++ text ++ ">").toList = _
        simp
      have hhead := (lexes_word (s := "Record") (by decide)).append separates_less
        (lexes_word (s := "string") (by decide))
      rw [htext, meaning, tokens_application]
      simpa [tokens] using (hhead.append separates_comma h).followed separates_greater
  | nullable =>
      have htext : (wrapperText .nullable text).toList = text.toList ++ [' ', '|', ' '] ++
          ("null".toList ++ [' ', '|', ' '] ++ "undefined".toList) := by
        change (text ++ " | null | undefined").toList = _
        simp
      have hends := (lexes_word (s := "null") (by decide)).append separates_union
        (lexes_word (s := "undefined") (by decide))
      rw [htext, meaning, tokens_junction]
      simpa [tokens] using h.append separates_union hends
  | list =>
      have htext : (wrapperText .list text).toList = text.toList ++ ['[', ']'] := by
        change (text ++ "[]").toList = _
        simp
      rw [htext, meaning, tokens]
      exact h.followed separates_brackets

theorem lexes_junction (j : Junction) {ts : List TypeExpr} (hne : ts ≠ [])
    (h : ∀ t ∈ ts, Lexes (t.render naming).toList (t.meaning naming).tokens) :
    Lexes (junctionText j (ts.map (render naming))).toList
      ((junction j ts).meaning naming).tokens := by
  rw [meaning, meaningEach_eq_map, tokens_junction, List.map_map]
  cases j with
  | union =>
      rw [junctionText, String.toList_intercalate, List.map_map]
      exact Lexes.intercalate h separates_union hne
  | intersect =>
      rw [junctionText, String.toList_intercalate, List.map_map]
      exact Lexes.intercalate h separates_intersect hne

theorem Legible.lexes (h : Legible naming t) :
    Lexes (t.render naming).toList (t.meaning naming).tokens := by
  induction h with
  | primitive h | named h | synthetic h =>
      rw [render, meaning]
      exact lexes_word h
  | literal h =>
      rw [render, meaning]
      exact lexes_literal h
  | wrapper w _ ih =>
      rw [render]
      exact lexes_wrapper w ih
  | junction j hne _ ih =>
      rw [render, renderItems_eq_map]
      exact lexes_junction j hne ih

/-- What the text of a legible expansion is read as. -/
theorem Legible.parse_eq (h : Legible naming t) :
    parse (t.render naming) = some (t.meaning naming).normal ↔
      (t.meaning naming).normal.Writable := by
  have hnormal := normal_normal h.populated
  rw [parse, h.lexes.lex_eq, Option.bind_some, read_eq_some_iff, tokens_normal h.populated,
    derives_union_iff]
  exact ⟨fun h ↦ h.1.2, fun h ↦ ⟨⟨hnormal, h⟩, rfl⟩⟩

end TypeExpr

namespace Registry

variable {r : Registry} {naming : Naming} {id : String} {x : TypeId} {text : String}

/-! ## Mentions -/

/-- The names of a registry are words, its literals are legible, and no composite is empty. -/
structure Legible (r : Registry) (naming : Naming) : Prop where
  json : IsWord naming.jsonTypeName
  named : ∀ id d name, r.get? id = some d → d.displayName = some name → IsWord name
  synthetic : ∀ id d f fields, r.get? id = some d → d.displayName = none →
    d.body = .fieldSet f fields → IsWord (naming.synthetic id)
  literals : ∀ id d v, r.get? id = some d → d.body = .literal v → TypeExpr.LegibleLiteral v
  composites : ∀ id d j items, r.get? id = some d → d.body = .junction j items → items ≠ []

theorem Expands.legible {t : TypeExpr} (h : r.Expands id t) (hr : r.Legible naming) :
    t.Legible naming := by
  induction h with
  | named hd hname => exact .named (hr.named _ _ _ hd hname)
  | fieldSet hd hname hbody => exact .synthetic (hr.synthetic _ _ _ _ hd hname hbody)
  | @primitive _ _ p _ _ _ => exact .primitive (TypeExpr.isWord_primitiveText hr.json p)
  | literal hd _ hbody => exact .literal (hr.literals _ _ _ hd hbody)
  | @wrapper _ _ w _ _ _ _ _ _ ih => exact .wrapper w ih
  | @junction _ _ j items ts hd _ hbody _ hlength _ ih =>
      have hne := hr.composites _ _ _ _ hd hbody
      refine .junction j (fun hts ↦ hne ?_) fun t ht ↦ ?_
      · rw [← List.length_eq_zero_iff, hlength, hts, List.length_nil]
      · obtain ⟨item, hp⟩ := exists_mem_zip_right hlength ht
        exact ih _ hp

/-- A type that is mentioned has one expansion, and its text is read as what that describes exactly
if this can be written without brackets. -/
theorem parse_mention_iff (hr : r.Legible naming) (h : r.mention naming x = .ok text) :
    ∃ t, (∀ u, r.Expands x.text u ↔ u = t) ∧
      (parse text = some (t.meaning naming).normal ↔ (t.meaning naming).normal.Writable) := by
  obtain ⟨t, ht, rfl⟩ := mention_eq_ok_iff.1 h
  refine ⟨t, fun u ↦ ⟨fun hu ↦ ?_, fun hu ↦ hu ▸ ht⟩, (ht.legible hr).parse_eq⟩
  rw [← expandFrom_nil_eq_ok_iff] at hu ht
  exact Except.ok.inj (hu.symm.trans ht)

/-- A text, the same or nothing, and a list of the latter. -/
def listOfNullable : Registry :=
  Table.ofList
    [("1", .ofBody (.primitive .string) none .none (.primitive .string)),
      ("2", .ofBody (.wrapper .nullable) none .none (.wrapper .nullable (.str "1"))),
      ("3", .ofBody (.wrapper .list) none .none (.wrapper .list (.str "2")))]

theorem listOfNullable_get? {y : String} {d : Descriptor} (hd : listOfNullable.get? y = some d) :
    d.displayName = none ∧ (d.body = .primitive .string ∨ ∃ w item, d.body = .wrapper w item) := by
  simp only [listOfNullable, Table.get?, Table.ofList, Assoc.ofList, List.foldl, Assoc.insert,
    Assoc.find?, String.reduceEq, if_false] at hd
  split at hd
  · obtain rfl := Option.some.inj hd
    exact ⟨rfl, .inl rfl⟩
  · split at hd
    · obtain rfl := Option.some.inj hd
      exact ⟨rfl, .inr ⟨_, _, rfl⟩⟩
    · split at hd
      · obtain rfl := Option.some.inj hd
        exact ⟨rfl, .inr ⟨_, _, rfl⟩⟩
      · cases hd

theorem legible_listOfNullable : listOfNullable.Legible {} where
  json := by decide
  named y d name hd hname := by
    rw [(listOfNullable_get? hd).1] at hname
    cases hname
  synthetic y d f fields hd _ hbody := by
    rcases (listOfNullable_get? hd).2 with hprimitive | ⟨w, item, hwrapper⟩ <;> simp_all
  literals y d v hd hbody := by
    rcases (listOfNullable_get? hd).2 with hprimitive | ⟨w, item, hwrapper⟩ <;> simp_all
  composites y d j items hd hbody := by
    rcases (listOfNullable_get? hd).2 with hprimitive | ⟨w, item, hwrapper⟩ <;> simp_all

theorem listOfNullable_expands_two :
    listOfNullable.Expands "2" (.wrapper .nullable (.primitive .string)) :=
  .wrapper rfl rfl rfl (.primitive rfl rfl rfl)

theorem listOfNullable_parse_two :
    listOfNullable.mention {} (.str "2") = .ok "string | null | undefined" ∧
      parse "string | null | undefined" =
        some (.junction .union [.word "string", .word "null", .word "undefined"]) := by
  have h : listOfNullable.mention {} (.str "2") = .ok "string | null | undefined" :=
    mention_eq_ok_iff.2 ⟨_, listOfNullable_expands_two, by decide⟩
  have hwords : ∀ t ∈ [TypeTree.word "string", .word "null", .word "undefined"], t.Writable := by
    simp [Writable.word]
  obtain ⟨t, ht, hparse⟩ := parse_mention_iff legible_listOfNullable h
  obtain rfl := (ht _).1 listOfNullable_expands_two
  exact ⟨h, hparse.2 (.union hwords)⟩

/-- The brackets of the list are read as those of the last member of the union. -/
theorem listOfNullable_parse_three :
    listOfNullable.Legible {} ∧
      listOfNullable.mention {} (.str "3") = .ok "string | null | undefined[]" ∧
      ∃ t, listOfNullable.Expands "3" t ∧
        parse "string | null | undefined[]" ≠ some (t.meaning {}).normal := by
  have hexpands : listOfNullable.Expands "3"
      (.wrapper .list (.wrapper .nullable (.primitive .string))) :=
    .wrapper rfl rfl rfl listOfNullable_expands_two
  refine ⟨legible_listOfNullable, mention_eq_ok_iff.2 ⟨_, hexpands, by decide⟩, _, hexpands, ?_⟩
  have hparse : parse "string | null | undefined[]" = some (.junction .union
      [.word "string", .word "null", .array (.word "undefined")]) := rfl
  rw [hparse]
  intro h
  cases Option.some.inj h

end Registry

end Typings
