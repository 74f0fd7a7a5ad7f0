import Typings.Kind
import Typings.Value

/-!
# What is wrong with a serialized description

An error names the place that is at fault and what is wrong there. Places below an endpoint count as
the endpoint itself, and places below a type or a field as that type or field.
-/

namespace Typings.Wire

inductive Site where
  | description
  | type (id : String)
  | field (id name : String)
  /-- The entry reached by following the keys from a root of the given name. -/
  | entry (root : String) (path : List String)
deriving DecidableEq

def Site.text : Site → String
  | description => "description"
  | type id => "types[" ++ Text.quoted id ++ "]"
  | field id name => "types[" ++ Text.quoted id ++ "].fields[" ++ Text.quoted name ++ "]"
  | entry root path => root ++ String.join (path.map fun key ↦ "[" ++ Text.quoted key ++ "]")

inductive Problem where
  /-- The site itself is no object. -/
  | notObject (found : Json)
  | missing (key : String)
  | notString (key : String) (found : Json)
  /-- The value under a key of the site is no object. -/
  | memberNotObject (key : String)
  | memberNotList (key : String)
  | notLiteral (found : Json)
  | notFinite (found : Json)
  | unknownType (tag : String)
  | unknownEntry (tag : Json)
  /-- All is there, but nothing is of this kind. -/
  | uninhabited (e : UninhabitedError)
  /-- An integer in an id has too many digits to be written. -/
  | overlongId

structure Error where
  site : Site
  problem : Problem

def Problem.message (site : Site) : Problem → String
  | notObject found => site.text ++ ": expected an object, got " ++ found.typeName
  | missing key => site.text ++ ": missing '" ++ key ++ "'"
  | notString key found =>
    site.text ++ "." ++ key ++ ": expected a string, got " ++ found.typeName
  | memberNotObject key => site.text ++ "." ++ key ++ ": expected an object"
  | memberNotList key => site.text ++ "." ++ key ++ ": expected a list"
  | notLiteral found =>
    site.text ++ ".value: expected a string, number or boolean, got " ++ found.inspect
  | notFinite found =>
    site.text ++ ".value: literal numbers must be finite, got " ++ found.inspect
  | unknownType tag => site.text ++ ": unknown type kind " ++ Text.quoted tag
  | unknownEntry tag => site.text ++ ": unknown entry kind " ++ tag.inspect
  | uninhabited e => e.message
  | overlongId => Numeral.overlongMessage

def Error.message (e : Error) : String := e.problem.message e.site

end Typings.Wire
