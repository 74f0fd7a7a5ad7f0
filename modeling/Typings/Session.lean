import Typings.Declaration

/-!
# Sessions

A session declares types one after another, in any order and as often as is asked for, and keeps one
set of exported names all along. A fault ends the step in which it arises and nothing else: the
names that have been claimed until then stay.
-/

namespace Typings

/-- A computation that may claim names, and may fail with some of them claimed. -/
abbrev Claiming : Type → Type := EStateM Fault Exports

inductive SessionStep where
  /-- Declares a type under an id, whether it is registered there or not. -/
  | declare (id : TypeId) (d : Descriptor)
  /-- Declares all types of the registry, in order. -/
  | declareAll
  | claim (name : String)

def claimName (name : String) : Claiming Unit := do
  match (← get).claim name with
  | .ok names => set names
  | .error fault => throw fault

namespace Registry

/-- Its fields are expanded before the name of a type is claimed. -/
def exportNext (r : Registry) (id : String) (d : Descriptor) : Claiming (Option Declaration) := do
  match r.declare id d with
  | .error fault => throw fault
  | .ok none => return none
  | .ok (some declaration) =>
    match declaration.exportName with
    | none => return some declaration
    | some name => do
      claimName name
      return some declaration

/-- Whether a declaration can be recorded: unless there is none, its id must have a text. -/
def isRecordable (id : TypeId) (declaration : Option Declaration) : Bool :=
  declaration.isNone || id.hasText

/-- A declaration is recorded once its name is claimed. -/
def declareNext (r : Registry) (id : TypeId) (d : Descriptor) : Claiming (Option Declaration) := do
  let declaration ← r.exportNext id.text d
  if isRecordable id declaration then return declaration else throw .overlongId

def declareEach (r : Registry) : List (String × Descriptor) → Claiming (List Declaration)
  | [] => return []
  | (id, d) :: rest => do
    let declaration ← r.declareNext (.str id) d
    let later ← declareEach r rest
    return declaration.toList ++ later

/-- The declarations that a step gives. -/
def perform (r : Registry) : SessionStep → Claiming (List Declaration)
  | .declare id d => do
    let declaration ← r.declareNext id d
    return declaration.toList
  | .declareAll => r.declareEach r.entries
  | .claim name => do
    claimName name
    return []

end Registry

/-- A step of a session with the names before it and what came of it. -/
structure Performance where
  step : SessionStep
  before : Exports
  result : EStateM.Result Fault Exports (List Declaration)

namespace Performance

def after (p : Performance) : Exports :=
  match p.result with
  | .ok _ names | .error _ names => names

def declarations (p : Performance) : List Declaration :=
  match p.result with
  | .ok declarations _ => declarations
  | .error _ _ => []

end Performance

namespace Registry

/-- The steps of a session that goes on with some names. -/
def history (r : Registry) (names : Exports) : List SessionStep → List Performance
  | [] => []
  | step :: rest =>
    let p : Performance := { step, before := names, result := (r.perform step).run names }
    p :: history r p.after rest

def session (r : Registry) (steps : List SessionStep) : List Performance := r.history .empty steps

end Registry

end Typings
