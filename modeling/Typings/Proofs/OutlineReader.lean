import Typings.Proofs.CommentLines
import Typings.Proofs.Precedence
import Typings.Proofs.References

/-!
# Reading an endpoint tree

The outline of an endpoint tree is what its text says apart from the comments: the keys, which of
them lead to a further level, and the signatures under the others. A reader goes through the lines
of the text once and keeps the levels that are open. What was rendered it reads as the outline of
the entries, so trees with one text have one outline.
-/

namespace Typings

/-- A tree of signatures. -/
inductive Outline where
  | endpoint (signature : String)
  | branch (members : List (String × Outline))

namespace Registry

mutual

/-- What entries show of themselves: their keys in order, and where there is an endpoint, the texts
by which its types are mentioned. -/
inductive Shows (r : Registry) (naming : Naming) : Entry → Outline → Prop
  | endpoint {e : Endpoint} {input output : String} (hinput : r.mention naming e.input = .ok input)
      (houtput : r.mention naming e.output = .ok output) :
      Shows r naming (.endpoint e)
        (.endpoint ("(input: " ++ input ++ ") => Promise<" ++ output ++ ">"))
  | branch {children : List (String × Entry)} {members : List (String × Outline)}
      (h : ShowsLevel r naming children members) :
      Shows r naming (.branch children) (.branch members)

inductive ShowsLevel (r : Registry) (naming : Naming) :
    List (String × Entry) → List (String × Outline) → Prop
  | nil : ShowsLevel r naming [] []
  | cons (key : String) {e : Entry} {o : Outline} {es : List (String × Entry)}
      {os : List (String × Outline)} (h : Shows r naming e o) (hrest : ShowsLevel r naming es os) :
      ShowsLevel r naming ((key, e) :: es) ((key, o) :: os)

end

end Registry

/-! ## Rows -/

/-- The pieces of a text between its line feeds. -/
def rows (s : String) : List (List Char) := s.toList.splitOn '\n'

section

variable {s t front : String}

theorem lineFeed_notMem_append (hs : '\n' ∉ s.toList) (ht : '\n' ∉ t.toList) :
    '\n' ∉ (s ++ t).toList := by
  rw [String.toList_append, List.mem_append, not_or]
  exact ⟨hs, ht⟩

theorem rows_eq_singleton (h : '\n' ∉ s.toList) : rows s = [s.toList] := by
  refine List.splitOnP_eq_singleton fun c hc ↦ ?_
  rw [beq_eq_false_iff_ne]
  rintro rfl
  exact h hc

theorem rows_append_lineFeed (s t : String) : rows (s ++ "\n" ++ t) = rows s ++ rows t := by
  have htext : (s ++ "\n" ++ t).toList = s.toList ++ '\n' :: t.toList := by simp
  rw [rows, htext]
  exact List.splitOnP_append_cons _ _ (beq_self_eq_true '\n')

theorem rows_intercalate {lines : List String} (h : lines ≠ []) :
    rows ("\n".intercalate lines) = lines.flatMap rows := by
  induction lines with
  | nil => exact absurd rfl h
  | cons line lines ih =>
      by_cases hnil : lines = []
      · subst hnil
        rw [String.intercalate_singleton, List.flatMap_singleton]
      · have hcons : "\n".intercalate (line :: lines) =
            line ++ "\n" ++ "\n".intercalate lines := by
          rw [String.intercalate_cons_of_ne_nil hnil]
        rw [hcons, rows_append_lineFeed, ih hnil, List.flatMap_cons]

theorem rows_append_bracedLines (hfront : '\n' ∉ front.toList) {lines : List String}
    (h : lines ≠ []) : rows (front ++ bracedLines lines) =
      (front.toList ++ ['\x7b']) :: (lines.flatMap rows ++ [['\x7d']]) := by
  obtain ⟨line, rest, rfl⟩ := List.exists_cons_of_ne_nil h
  have htext : front ++ bracedLines (line :: rest) =
      (front ++ "\x7b") ++ "\n" ++ ("\n".intercalate (line :: rest) ++ "\n" ++ "\x7d") := by
    simp [String.ext_iff, bracedLines]
  have hopen : '\n' ∉ (front ++ "\x7b").toList := lineFeed_notMem_append hfront (by decide)
  have hclose : rows "\x7d" = [['\x7d']] := rows_eq_singleton (by decide)
  rw [htext, rows_append_lineFeed, rows_append_lineFeed, rows_intercalate h,
    rows_eq_singleton hopen, hclose]
  simp

theorem rows_attach (note : Note) (text : String) :
    rows (note.attach text) = note.block.map String.toList ++ rows text := by
  have hblock : note.block.flatMap rows = note.block.map String.toList := by
    rw [← List.flatMap_singleton' (note.block.map String.toList), List.flatMap_map]
    refine List.flatMap_congr fun line hline ↦ rows_eq_singleton fun hmem ↦ ?_
    cases Note.isUnbroken_of_mem_block (List.mem_map_of_mem hline) _ hmem
  rw [Note.attach, rows_intercalate (by simp), List.flatMap_append, List.flatMap_singleton, hblock]

end

/-! ## Keys -/

/-- No character of a key ends it. Identifiers hold neither colons nor line feeds. -/
def IsKey (key : String) : Prop := ∀ c ∈ key.toList, c ≠ ':' ∧ c ≠ '\n'

instance (key : String) : Decidable (IsKey key) :=
  List.decidableBAll (fun c ↦ c ≠ ':' ∧ c ≠ '\n') key.toList

theorem IsKey.colon_notMem {key : String} (h : IsKey key) : ':' ∉ key.toList :=
  fun hmem ↦ (h _ hmem).1 rfl

theorem IsKey.lineFeed_notMem {key : String} (h : IsKey key) : '\n' ∉ (key ++ ": ").toList :=
  lineFeed_notMem_append (fun hmem ↦ (h _ hmem).2 rfl) (by decide)

/-! ## The reader -/

/-- Where a reader stands between two lines. -/
structure OutlineReader where
  inComment : Bool
  /-- The members of the innermost open level, up to here. -/
  level : List (String × Outline)
  /-- The levels around it, each with the key that leads on to the next one, innermost first. -/
  around : List (List (String × Outline) × String)

namespace OutlineReader

/-- Goes on behind a key: a level opens, or is empty, or there is a signature. -/
def take (s : OutlineReader) (key : String) (rest : List Char) : OutlineReader :=
  if rest = ['\x7b'] then { s with level := [], around := (s.level, key) :: s.around }
  else if rest = ['\x7b', '\x7d'] then { s with level := s.level ++ [(key, .branch [])] }
  else { s with level := s.level ++ [(key, .endpoint (String.ofList rest))] }

/-- The innermost level ends and becomes a member of the one around it. -/
def close? (s : OutlineReader) : Option OutlineReader :=
  match s.around with
  | [] => none
  | (level, key) :: around => some { s with level := level ++ [(key, .branch s.level)], around }

/-- Reads a line. A comment is all lines up to one that is its end and nothing else; a key ends at
the first colon. -/
def step (s : OutlineReader) (row : List Char) : Option OutlineReader :=
  if s.inComment then some { s with inComment := row != ['*', '/'] }
  else if row = ['/', '*', '*'] then some { s with inComment := true }
  else if row = ['\x7d'] then s.close?
  else
    match row.dropWhile (· != ':') with
    | ':' :: ' ' :: rest => some (s.take (String.ofList (row.takeWhile (· != ':'))) rest)
    | _ => none

def run (s : OutlineReader) (lines : List (List Char)) : Option OutlineReader := lines.foldlM step s

end OutlineReader

/-- Reads the text of a tree, as what stands under a key by itself. -/
def Outline.read (text : String) : Option (List (String × Outline)) :=
  match OutlineReader.run ⟨false, [], []⟩ (rows (": " ++ text)) with
  | some ⟨false, [(_, .branch members)], []⟩ => some members
  | _ => none

/-! ## What is read of a rendered tree -/

namespace OutlineReader

variable {s t u : OutlineReader} {lines more : List (List Char)}

theorem run_cons {row : List Char} (h : s.step row = some t) :
    s.run (row :: lines) = t.run lines := by
  rw [run, List.foldlM_cons, h]
  rfl

theorem run_append (h : s.run lines = some t) : s.run (lines ++ more) = t.run more := by
  rw [run] at h
  rw [run, List.foldlM_append, h]
  rfl

theorem run_inside (hs : s.inComment = true) (h : ∀ line ∈ lines, line ≠ ['*', '/']) :
    s.run lines = some s := by
  induction lines with
  | nil => rfl
  | cons line lines ih =>
      obtain ⟨hline, hlines⟩ := List.forall_mem_cons.1 h
      have hstep : s.step line = some s := by
        rw [step, if_pos hs, bne_iff_ne.2 hline, ← hs]
      rw [run_cons hstep, ih hlines]

/-- A comment is passed over, whatever its texts are. -/
theorem run_block (hs : s.inComment = false) (note : Note) :
    s.run (note.block.map String.toList) = some s := by
  cases hempty : note.isEmpty with
  | true =>
      rw [Note.block, if_pos hempty]
      rfl
  | false =>
      obtain ⟨inComment, level, around⟩ := s
      obtain rfl : inComment = false := hs
      have hopen : step ⟨false, level, around⟩ "/**".toList = some ⟨true, level, around⟩ := rfl
      have hspoken : ∀ line ∈ note.spokenLines.map ("* ".toList ++ ·), line ≠ ['*', '/'] := by
        intro line hline heq
        obtain ⟨spoken, -, rfl⟩ := List.mem_map.1 hline
        have htail : ' ' :: spoken = ['/'] := (List.cons_eq_cons.1 heq).2
        cases (List.cons_eq_cons.1 htail).1
      have hclose : step ⟨true, level, around⟩ "*/".toList = some ⟨false, level, around⟩ := rfl
      rw [Note.toList_block hempty, List.cons_append, run_cons hopen,
        run_append (run_inside rfl hspoken), run_cons hclose]
      rfl

theorem step_member (hs : s.inComment = false) {key : List Char} (hkey : ':' ∉ key)
    (rest : List Char) :
    s.step (key ++ ':' :: ' ' :: rest) = some (s.take (String.ofList key) rest) := by
  -- Neither the start of a comment nor the end of a level holds a colon.
  have hcolon : ':' ∈ key ++ ':' :: ' ' :: rest := List.mem_append_right _ List.mem_cons_self
  have hopen : key ++ ':' :: ' ' :: rest ≠ ['/', '*', '*'] := by
    intro heq
    rw [heq] at hcolon
    revert hcolon
    decide
  have hclose : key ++ ':' :: ' ' :: rest ≠ ['\x7d'] := by
    intro heq
    rw [heq] at hcolon
    revert hcolon
    decide
  have hall : ∀ c ∈ key, (c != ':') = true := by
    intro c hc
    rw [bne_iff_ne]
    rintro rfl
    exact hkey hc
  rw [step, hs, if_neg Bool.false_ne_true, if_neg hopen, if_neg hclose,
    List.dropWhile_append_of_pos hall, List.takeWhile_append_of_pos hall]
  simp

theorem take_signature (s : OutlineReader) (key : String) (naming : Naming)
    (signature : Signature) : s.take key (signature.render naming).toList =
      { s with level := s.level ++ [(key, .endpoint (signature.render naming))] } := by
  have hround : ∃ rest, (signature.render naming).toList = '(' :: rest := by
    simp [Signature.render]
  obtain ⟨rest, hrest⟩ := hround
  rw [take, if_neg (by rw [hrest]; exact nofun), if_neg (by rw [hrest]; exact nofun),
    String.ofList_toList]

/-- If some lines add members to the level that is being read, then between braces they add a level
with these members. -/
theorem run_bracedLines {key : String} (hkey : IsKey key) {texts : List String}
    {members : List (String × Outline)}
    (h : ∀ level around, run ⟨false, level, around⟩ (texts.flatMap rows) =
      some ⟨false, level ++ members, around⟩)
    (level : List (String × Outline)) (around : List (List (String × Outline) × String)) :
    run ⟨false, level, around⟩ (rows (key ++ ": " ++ bracedLines texts)) =
      some ⟨false, level ++ [(key, .branch members)], around⟩ := by
  by_cases hnil : texts = []
  · -- Without lines nothing is read, so there are no members, and a line says so.
    subst hnil
    obtain rfl : [] = members := congrArg OutlineReader.level (Option.some.inj (h [] []))
    have hrow : rows (key ++ ": " ++ bracedLines []) =
        [key.toList ++ ':' :: ' ' :: ['\x7b', '\x7d']] := by
      rw [rows_eq_singleton (lineFeed_notMem_append hkey.lineFeed_notMem (by decide))]
      simp [bracedLines]
    rw [hrow, run_cons (step_member rfl hkey.colon_notMem _), String.ofList_toList]
    rfl
  · have hrow : (key ++ ": ").toList ++ ['\x7b'] = key.toList ++ ':' :: ' ' :: ['\x7b'] := by
      simp
    have hopen : take ⟨false, level, around⟩ key ['\x7b'] = ⟨false, [], (level, key) :: around⟩ :=
      rfl
    rw [rows_append_bracedLines hkey.lineFeed_notMem hnil, hrow,
      run_cons (step_member rfl hkey.colon_notMem _), String.ofList_toList, hopen,
      run_append (h _ _)]
    rfl

end OutlineReader

/-! ## Trees of entries -/

mutual

/-- Every key within an entry, at every level, is one. -/
def Entry.WellKeyed : Entry → Prop
  | .branch children => WellKeyedLevel children
  | .endpoint _ | .foreign _ => True

def WellKeyedLevel : List (String × Entry) → Prop
  | [] => True
  | (key, e) :: rest => IsKey key ∧ e.WellKeyed ∧ WellKeyedLevel rest

end

namespace Registry

variable {r : Registry} {naming : Naming}

/-- No type is mentioned by a text with a line feed in it. -/
def MentionsInLine (r : Registry) (naming : Naming) : Prop :=
  ∀ x text, r.mention naming x = .ok text → '\n' ∉ text.toList

theorem MentionsInLine.signature (hr : r.MentionsInLine naming) {e : Endpoint} {s : Signature}
    (h : r.signature e = .ok s) :
    '\n' ∉ (s.render naming).toList ∧
      r.Shows naming (.endpoint e) (.endpoint (s.render naming)) := by
  obtain ⟨hinput, houtput⟩ := signature_eq_ok h
  have hinput' : r.mention naming e.input = .ok (s.input.render naming) := mention_of_expand hinput
  have houtput' : r.mention naming e.output = .ok (s.output.render naming) :=
    mention_of_expand houtput
  refine ⟨?_, .endpoint hinput' houtput'⟩
  simpa [Signature.render] using ⟨hr _ _ hinput', hr _ _ houtput'⟩

open OutlineReader in
mutual

/-- The lines of a member add what it shows to the level that is being read, whatever is around. -/
theorem run_renderMember (hr : r.MentionsInLine naming) {key : String} {e : Entry} {s : Surface}
    (hkey : IsKey key) (he : e.WellKeyed) (h : r.surface e = .ok s) :
    ∃ o, r.Shows naming e o ∧ ∀ level around,
      run ⟨false, level, around⟩ (rows (s.renderMember naming key)) =
        some ⟨false, level ++ [(key, o)], around⟩ := by
  match e with
  | .endpoint e =>
      rw [surface] at h
      obtain ⟨signature, hsignature, h⟩ := exists_of_bind_eq_ok h
      obtain rfl := Except.ok.inj h
      obtain ⟨hline, hshows⟩ := hr.signature hsignature
      refine ⟨_, hshows, fun level around ↦ ?_⟩
      have hrow : rows (key ++ ": " ++ signature.render naming) =
          [key.toList ++ ':' :: ' ' :: (signature.render naming).toList] := by
        rw [rows_eq_singleton (lineFeed_notMem_append hkey.lineFeed_notMem hline)]
        simp
      rw [Surface.renderMember, rows_attach, run_append (run_block rfl e.note), hrow,
        run_cons (step_member rfl hkey.colon_notMem _), String.ofList_toList, take_signature]
      rfl
  | .branch children =>
      rw [surface] at h
      obtain ⟨members, hmembers, h⟩ := exists_of_bind_eq_ok h
      obtain rfl := Except.ok.inj h
      obtain ⟨os, hos, hrun⟩ := run_renderMembers hr he hmembers
      refine ⟨.branch os, .branch hos, fun level around ↦ ?_⟩
      rw [Surface.renderMember]
      exact run_bracedLines hkey hrun level around
  | .foreign x =>
      rw [surface] at h
      cases h

theorem run_renderMembers (hr : r.MentionsInLine naming) {es : List (String × Entry)}
    {ss : List (String × Surface)} (hes : WellKeyedLevel es) (h : r.surfaces es = .ok ss) :
    ∃ os, r.ShowsLevel naming es os ∧ ∀ level around,
      run ⟨false, level, around⟩ ((Surface.renderMembers naming ss).flatMap rows) =
        some ⟨false, level ++ os, around⟩ := by
  match es with
  | [] =>
      rw [surfaces] at h
      obtain rfl := Except.ok.inj h
      exact ⟨[], .nil, fun level around ↦ by rw [List.append_nil]; rfl⟩
  | (key, e) :: rest =>
      obtain ⟨hkey, he, hrest⟩ := hes
      rw [surfaces] at h
      obtain ⟨s, hs, h⟩ := exists_of_bind_eq_ok h
      obtain ⟨ss, hss, h⟩ := exists_of_bind_eq_ok h
      obtain rfl := Except.ok.inj h
      obtain ⟨o, ho, hrun⟩ := run_renderMember hr hkey he hs
      obtain ⟨os, hos, hruns⟩ := run_renderMembers hr hrest hss
      refine ⟨(key, o) :: os, .cons key ho hos, fun level around ↦ ?_⟩
      rw [Surface.renderMembers, List.flatMap_cons, run_append (hrun level around), hruns,
        List.append_assoc, List.singleton_append]

end

theorem read_renderTree (hr : r.MentionsInLine naming) {es : Namespace}
    {ss : List (String × Surface)} (hes : WellKeyedLevel es) (h : r.surfaces es = .ok ss) :
    ∃ tree, r.ShowsLevel naming es tree ∧
      Outline.read (Surface.renderTree naming ss) = some tree := by
  obtain ⟨tree, htree, hrun⟩ := run_renderMembers hr hes h
  refine ⟨tree, htree, ?_⟩
  have hkey : IsKey "" := by decide
  have htext : ": " ++ Surface.renderTree naming ss =
      "" ++ ": " ++ bracedLines (Surface.renderMembers naming ss) := rfl
  rw [Outline.read, htext, OutlineReader.run_bracedLines hkey hrun]
  rfl

/-- If all types are mentioned within a line, the outline of a tree can be read off its text, and
trees that have one text show one outline. -/
theorem outline_of_renderTree (hr : r.MentionsInLine naming) {es : Namespace}
    {ss : List (String × Surface)} (hes : WellKeyedLevel es) (h : r.surfaces es = .ok ss) :
    (∃ tree, r.ShowsLevel naming es tree ∧
      Outline.read (Surface.renderTree naming ss) = some tree) ∧
    ∀ (es' : Namespace) (ss' : List (String × Surface)), WellKeyedLevel es' →
      r.surfaces es' = .ok ss' → Surface.renderTree naming ss' = Surface.renderTree naming ss →
        ∃ tree, r.ShowsLevel naming es tree ∧ r.ShowsLevel naming es' tree := by
  obtain ⟨tree, htree, hread⟩ := read_renderTree hr hes h
  refine ⟨⟨tree, htree, hread⟩, fun es' ss' hes' h' htext ↦ ?_⟩
  obtain ⟨tree', htree', hread'⟩ := read_renderTree hr hes' h'
  rw [htext, hread] at hread'
  obtain rfl := Option.some.inj hread'
  exact ⟨tree, htree, htree'⟩

theorem listOfNullable_mentionsInLine : listOfNullable.MentionsInLine {} := by
  have hexpands {y : String} {t : TypeExpr} (h : listOfNullable.Expands y t) :
      '\n' ∉ (t.render {}).toList := by
    induction h with
    | @primitive y d p hd _ hbody =>
        rcases (listOfNullable_get? hd).2 with hstring | ⟨w, item, hwrapper⟩
        · obtain rfl := Body.primitive.inj (hbody.symm.trans hstring)
          decide
        · cases hbody.symm.trans hwrapper
    | @wrapper y d w item t hd _ _ _ ih =>
        rw [TypeExpr.render]
        cases w with
        | record => exact lineFeed_notMem_append (lineFeed_notMem_append (by decide) ih) (by decide)
        | nullable | list => exact lineFeed_notMem_append ih (by decide)
    | named hd hname => cases (listOfNullable_get? hd).1.symm.trans hname
    | fieldSet hd _ hbody | literal hd _ hbody | junction hd _ hbody =>
        rcases (listOfNullable_get? hd).2 with hstring | ⟨w, item, hwrapper⟩
        · cases hbody.symm.trans hstring
        · cases hbody.symm.trans hwrapper
  intro x text h
  obtain ⟨t, ht, rfl⟩ := mention_eq_ok_iff.1 h
  exact hexpands ht

/-- An endpoint next to a level without members, one level down, and another endpoint. -/
def searchTree (id : TypeId) (note : Note) : Namespace :=
  [("users", .branch [("find", .endpoint ⟨id, .str "2", note⟩), ("admin", .branch [])]),
    ("all", .endpoint ⟨.str "1", .str "3", .none⟩)]

def remarkOnly : Note := ⟨some "Finds a user.\n@deprecated Use all.", none⟩

def remarkAndNotice : Note := ⟨some "Finds a user.", some "Use all."⟩

def searchSurface (note : Note) : List (String × Surface) :=
  [("users", .branch
      [("find", .endpoint ⟨.primitive .string, .wrapper .nullable (.primitive .string)⟩ note),
        ("admin", .branch [])]),
    ("all", .endpoint
      ⟨.primitive .string, .wrapper .list (.wrapper .nullable (.primitive .string))⟩ .none)]

theorem surfaces_searchTree {id : TypeId} (note : Note)
    (hid : listOfNullable.expand id = .ok (.primitive .string)) :
    listOfNullable.surfaces (searchTree id note) = .ok (searchSurface note) := by
  have htwo : listOfNullable.expand (.str "2") = .ok (.wrapper .nullable (.primitive .string)) :=
    expand_eq_ok_iff.2 listOfNullable_expands_two
  have hone : listOfNullable.expand (.str "1") = .ok (.primitive .string) :=
    expand_eq_ok_iff.2 (.primitive rfl rfl rfl)
  have hthree : listOfNullable.expand (.str "3") =
      .ok (.wrapper .list (.wrapper .nullable (.primitive .string))) :=
    expand_eq_ok_iff.2 (.wrapper rfl rfl rfl listOfNullable_expands_two)
  have hfind : listOfNullable.signature ⟨id, .str "2", note⟩ =
      .ok ⟨.primitive .string, .wrapper .nullable (.primitive .string)⟩ := by
    rw [signature, hid, htwo]
    rfl
  have hall : listOfNullable.signature ⟨.str "1", .str "3", .none⟩ = .ok
      ⟨.primitive .string, .wrapper .list (.wrapper .nullable (.primitive .string))⟩ := by
    rw [signature, hone, hthree]
    rfl
  rw [searchTree, surfaces, surface, surfaces, surface, hfind, surfaces, surface, surfaces,
    surfaces, surface, hall, surfaces]
  rfl

/-- Other ids and other notes, and the same text. -/
theorem searchTree_outline : listOfNullable.MentionsInLine {} ∧
    WellKeyedLevel (searchTree (.str "1") remarkOnly) ∧
    WellKeyedLevel (searchTree (.int 1) remarkAndNotice) ∧
    listOfNullable.surfaces (searchTree (.str "1") remarkOnly) = .ok (searchSurface remarkOnly) ∧
    listOfNullable.surfaces (searchTree (.int 1) remarkAndNotice) =
      .ok (searchSurface remarkAndNotice) ∧
    Surface.renderTree {} (searchSurface remarkAndNotice) =
      Surface.renderTree {} (searchSurface remarkOnly) ∧
    (∃ tree, listOfNullable.ShowsLevel {} (searchTree (.str "1") remarkOnly) tree ∧
      Outline.read (Surface.renderTree {} (searchSurface remarkOnly)) = some tree) ∧
    ∃ tree, listOfNullable.ShowsLevel {} (searchTree (.str "1") remarkOnly) tree ∧
      listOfNullable.ShowsLevel {} (searchTree (.int 1) remarkAndNotice) tree := by
  have hkeys (id : TypeId) (note : Note) : WellKeyedLevel (searchTree id note) :=
    ⟨by decide, ⟨by decide, trivial, by decide, trivial, trivial⟩, by decide, trivial, trivial⟩
  have hstring : listOfNullable.expand (.str "1") = .ok (.primitive .string) :=
    expand_eq_ok_iff.2 (.primitive rfl rfl rfl)
  have hint : listOfNullable.expand (.int 1) = .ok (.primitive .string) :=
    expand_eq_ok_iff.2 (.primitive rfl rfl rfl)
  have hremark := surfaces_searchTree remarkOnly hstring
  have hnotice := surfaces_searchTree remarkAndNotice hint
  have hblock : remarkAndNotice.block = remarkOnly.block := by decide
  have htext : Surface.renderTree {} (searchSurface remarkAndNotice) =
      Surface.renderTree {} (searchSurface remarkOnly) := by
    simp only [searchSurface, Surface.renderTree, Surface.renderMembers, Surface.renderMember,
      Note.attach, hblock]
  obtain ⟨hread, hsame⟩ := outline_of_renderTree listOfNullable_mentionsInLine (hkeys _ _) hremark
  exact ⟨listOfNullable_mentionsInLine, hkeys _ _, hkeys _ _, hremark, hnotice, htext, hread,
    hsame _ _ (hkeys _ _) hnotice htext⟩

end Registry

end Typings
