import Typings.Text.Quoted

/-!
# Refusals by the system
-/

namespace Typings

/-- Why the system refuses to open, create or run something. -/
inductive SystemCause where
  | notFound
  | permissionDenied
  | alreadyExists
  | notDirectory
  | isDirectory
  | nameTooLong
deriving DecidableEq

def SystemCause.number : SystemCause → Nat
  | notFound => 2
  | permissionDenied => 13
  | alreadyExists => 17
  | notDirectory => 20
  | isDirectory => 21
  | nameTooLong => 36

def SystemCause.message : SystemCause → String
  | notFound => "No such file or directory"
  | permissionDenied => "Permission denied"
  | alreadyExists => "File exists"
  | notDirectory => "Not a directory"
  | isDirectory => "Is a directory"
  | nameTooLong => "File name too long"

structure SystemError where
  cause : SystemCause
  path : String
deriving DecidableEq

def SystemError.message (e : SystemError) : String :=
  "[Errno " ++ toString e.cause.number ++ "] " ++ e.cause.message ++ ": " ++ Text.quoted e.path

end Typings
