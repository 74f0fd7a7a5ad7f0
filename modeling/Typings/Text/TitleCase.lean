import Typings.Text.CaseMapping

/-!
# Title case

A cased character after another cased one is written small and every other character in title case;
so each word begins with a capital, and anything that has no case separates words.
-/

namespace Typings.Text

/-- A sigma is final after a cased character and before none, where characters that case mappings
ignore do not count on either side. -/
def isFinalSigma (before after : List Char) : Bool :=
  startsCased before && !startsCased after
where
  startsCased (cs : List Char) : Bool :=
    match cs.dropWhile isCaseIgnorable with
    | [] => false
    | c :: _ => isCased c

def titleCase (cs : List Char) : List Char := go [] cs
where
  /-- `before` holds the characters already passed, the last one first. -/
  go (before : List Char) : List Char → List Char
    | [] => []
    | c :: rest =>
      let mapped :=
        if (before.head?.map isCased).getD false then
          if c = 'Σ' then [if isFinalSigma before rest then 'ς' else 'σ'] else toLower c
        else toTitle c
      mapped ++ go (c :: before) rest

/-- The key of a field on the wire: the words of its name between underscores are joined, all but
the first in title case. -/
def camelCase (name : String) : String :=
  match name.toList.splitOn '_' with
  | [] => ""
  | first :: words => String.ofList (first ++ (words.map titleCase).flatten)

end Typings.Text
