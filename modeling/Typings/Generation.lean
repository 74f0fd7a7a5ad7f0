import Typings.Endpoints
import Typings.Formatter

/-!
# Generated modules

A module holds the alias for JSON values if some type needs it, the declarations of the field sets
in registry order, and the exported type of the endpoint tree. The first fault ends the generation,
the registry coming before the endpoint tree.
-/

namespace Typings

structure Options extends Naming where
  formatter : Formatter := Formatter.layout (some 2)

/-- A generated module before it becomes text. -/
structure Module where
  needsJson : Bool
  declarations : List Declaration
  surface : List (String × Surface)

inductive GenerationError where
  | fault (f : Fault)
  | format (e : FormatError)

def GenerationError.message : GenerationError → String
  | fault f => f.message
  | format e => e.message

/-- The alias for values that can be written as JSON. -/
def Naming.jsonAlias (naming : Naming) : String :=
  let name := naming.jsonTypeName
  "type " ++ name ++ " = number | string | boolean | null | undefined | " ++ name ++
    "[] | \x7b toJSON(): string \x7d | \x7b [key: string]: " ++ name ++ " \x7d"

namespace Description

def toModule (d : Description) : Except Fault Module := do
  let declarations ← (d.types.emitAll .empty).toExcept
  let surface ← d.types.surfaces d.entries
  return { needsJson := d.types.hasJson, declarations, surface }

end Description

namespace Module

def parts (naming : Naming) (m : Module) : List String :=
  (if m.needsJson then [naming.jsonAlias] else []) ++
    m.declarations.map (Declaration.render naming) ++
    ["export type " ++ naming.apiTypeName ++ " = " ++ Surface.renderTree naming m.surface]

def render (naming : Naming) (m : Module) : String := "\n\n".intercalate (m.parts naming)

end Module

def generate (options : Options) (d : Description) : Except GenerationError String :=
  match d.toModule with
  | .error f => .error (.fault f)
  | .ok m =>
    match options.formatter (m.render options.toNaming) with
    | .error e => .error (.format e)
    | .ok text => .ok text

end Typings
