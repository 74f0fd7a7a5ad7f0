import Typings.Json.Printer
import Typings.Json.Reader
import Typings.Wire.Decode
import Typings.Wire.Encode

/-!
# Descriptions as documents

The text of a description is JSON. A text is refused if it is no JSON, if it holds an integer of too
many digits, or if the JSON does not describe an API.
-/

namespace Typings.Wire

inductive DocumentError where
  | text (e : Json.ReadError)
  | content (e : Error)

def DocumentError.message : DocumentError → String
  | text e@(.malformed _ _) => "Invalid JSON: " ++ e.message
  | text e@(.numeralTooLong _) => e.message
  | content e => e.message

/-- The description that a text is of, with stand-ins for the lone surrogates of the text. -/
def parseWith (σ : Text.StandIns) (catalog : Catalog) (document : String) :
    Except DocumentError Description :=
  match Json.readWith σ document.toList with
  | .error e => .error (.text e)
  | .ok v =>
    match decode catalog v with
    | .error e => .error (.content e)
    | .ok d => .ok d

def parse (catalog : Catalog) (document : String) : Except DocumentError Description :=
  parseWith (Json.standIns document.toList) catalog document

/-- Why a description cannot be written as text. -/
inductive PrintError where
  | content (e : EncodeError)
  | margin (e : Text.MarginError)

def PrintError.message : PrintError → String
  | content e => e.message
  | margin e => e.message

/-- The text of a description, in which numbers are written however long they are. An indent that is
out of bounds shows after the endpoint tree has been found sound, and before any data is looked
at. -/
def print (indent : Option Int) (d : Description) : Except PrintError String :=
  match encode d, Json.Style.ofIndent indent with
  | .error e@(.foreign _), _ => .error (.content e)
  | _, .error e => .error (.margin e)
  | .error e, .ok _ => .error (.content e)
  | .ok v, .ok style => .ok (v.render style)

end Typings.Wire
