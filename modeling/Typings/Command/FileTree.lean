import Typings.Command.Path
import Typings.SystemError
import Typings.Table

/-!
# File trees

A tree maps the places of directories and files, given by their names from the root on, to what is
there. Paths are followed component by component from the working directory or from the root.
-/

namespace Typings.Command

abbrev Place : Type := List String

inductive Item where
  | directory
  | file (bytes : List UInt8)
deriving DecidableEq

structure FileTree where
  items : List (Place × Item)

namespace FileTree

/-- The root is a directory, whether it is listed or not. -/
def item? (t : FileTree) (place : Place) : Option Item :=
  if place = [] then some .directory else Assoc.find? place t.items

def put (t : FileTree) (place : Place) (item : Item) : FileTree :=
  ⟨Assoc.insert place item t.items⟩

/-- The limit on the bytes of one name. -/
def nameLimit : Nat := 255

/-- The limit on the bytes of a whole path. -/
def pathLimit : Nat := 4095

/-- One component further, which must be there; a name within a directory. -/
def step (t : FileTree) (place : Place) (name : String) : Except SystemCause Place :=
  match t.item? place with
  | some .directory =>
    if name = ".." then .ok place.dropLast
    else if nameLimit < name.utf8ByteSize then .error .nameTooLong
    else if (t.item? (place ++ [name])).isSome then .ok (place ++ [name])
    else .error .notFound
  | some (.file _) => .error .notDirectory
  | none => .error .notFound

def follow (t : FileTree) (place : Place) : List String → Except SystemCause Place
  | [] => .ok place
  | name :: rest =>
    match t.step place name with
    | .ok place => t.follow place rest
    | .error cause => .error cause

def origin (working : Place) (p : Path) : Place := if p.root = "" then working else []

/-- The length of a path is looked at before any of its components. -/
def locate (t : FileTree) (working : Place) (p : Path) : Except SystemCause Place :=
  if pathLimit < p.text.utf8ByteSize then .error .nameTooLong
  else t.follow (origin working p) p.components

def read (t : FileTree) (working : Place) (p : Path) : Except SystemCause (List UInt8) := do
  match t.item? (← t.locate working p) with
  | some (.file bytes) => return bytes
  | some .directory => .error .isDirectory
  | none => .error .notFound

/-- Where the last component of a path is to be: an existing directory and a name in it, or only an
existing place if the path ends in no name. -/
def target (t : FileTree) (working : Place) (p : Path) :
    Except SystemCause (Place × Option String) :=
  if pathLimit < p.text.utf8ByteSize then .error .nameTooLong
  else match p.components.getLast? with
    | none => .ok (origin working p, none)
    | some ".." => (t.locate working p).map fun place ↦ (place, none)
    | some name =>
      match t.locate working p.parent with
      | .error cause => .error cause
      | .ok place =>
        match t.item? place with
        | some .directory =>
          if nameLimit < name.utf8ByteSize then .error .nameTooLong else .ok (place, some name)
        | _ => .error .notDirectory

/-- Creates or replaces a file. -/
def write (t : FileTree) (working : Place) (p : Path) (bytes : List UInt8) :
    Except SystemCause FileTree := do
  match ← t.target working p with
  | (_, none) => .error .isDirectory
  | (place, some name) =>
    match t.item? (place ++ [name]) with
    | some .directory => .error .isDirectory
    | _ => return t.put (place ++ [name]) (.file bytes)

def makeDirectory (t : FileTree) (working : Place) (p : Path) : Except SystemCause FileTree := do
  match ← t.target working p with
  | (_, none) => .error .alreadyExists
  | (place, some name) =>
    if (t.item? (place ++ [name])).isSome then .error .alreadyExists
    else return t.put (place ++ [name]) .directory

def isDirectory (t : FileTree) (working : Place) (p : Path) : Bool :=
  match t.locate working p with
  | .ok place => t.item? place == some .directory
  | .error _ => false

/-- Enters the tree with a directory made in it. A directory that is there already is as good as
made. -/
def settle (working : Place) (p : Path) :
    Except SystemCause FileTree → EStateM SystemError FileTree Unit
  | .ok t => set t
  | .error cause => do
    if (← get).isDirectory working p then return () else throw ⟨cause, p.text⟩

/-- Makes a directory together with those that lead to it, unless it is there. The components are
given innermost first. Of those that lead to it some may have been made when the system refuses. -/
def ensureDirectory (working : Place) (root : String) :
    List String → EStateM SystemError FileTree Unit
  | [] => do settle working ⟨root, []⟩ ((← get).makeDirectory working ⟨root, []⟩)
  | name :: outer => do
    let p : Path := ⟨root, (name :: outer).reverse⟩
    match (← get).makeDirectory working p with
    | .error .notFound =>
      ensureDirectory working root outer
      settle working p ((← get).makeDirectory working p)
    | made => settle working p made

end FileTree

end Typings.Command
