import Typings.Descriptor
import Typings.Text.Lines

/-!
# Documentation comments

The description and the deprecation notice become one block of lines, so that whatever the texts
hold, the block ends at its last line only.
-/

namespace Typings

namespace Comment

/-- Breaks up every end of a comment. -/
def escapeEnd : List Char → List Char
  | '*' :: '/' :: rest => '*' :: '\\' :: '/' :: escapeEnd rest
  | c :: rest => c :: escapeEnd rest
  | [] => []

/-- The lines of one text; the first one names what the text is. -/
def lines (tag : String) (text : String) : List String :=
  match Text.splitLines (escapeEnd text.toList) with
  | [] => ["* " ++ tag ++ " "]
  | first :: rest =>
    ("* " ++ tag ++ " " ++ String.ofList first) :: rest.map fun line ↦ "* " ++ String.ofList line

end Comment

namespace Note

/-- A text that is there and not empty. -/
def present (text : Option String) : Option String :=
  match text with
  | some s => if s = "" then Option.none else some s
  | .none => Option.none

def isEmpty (note : Note) : Bool :=
  (present note.description).isNone && (present note.deprecated).isNone

/-- The lines of the comment; none if there is nothing to say. -/
def block (note : Note) : List String :=
  if note.isEmpty then []
  else
    ["/**"] ++ ((present note.description).map (Comment.lines "@remarks")).getD [] ++
      ((present note.deprecated).map (Comment.lines "@deprecated")).getD [] ++ ["*/"]

/-- Puts the comment on the lines before a text. -/
def attach (note : Note) (text : String) : String :=
  "\n".intercalate (note.block ++ [text])

end Note

end Typings
