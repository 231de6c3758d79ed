import DartScaffold.Disk.Location
import DartScaffold.Text.Quoted

/-!
Why the disk refuses an operation.
-/

namespace DartScaffold.Disk

inductive Cause where
  | notFound
  | occupied
  | notDirectory
  | isDirectory
  | nameTooLong
  deriving DecidableEq, Repr

structure Error where
  cause : Cause
  place : Location
  deriving DecidableEq, Repr

namespace Cause

def kind : Cause → String
  | notFound => "FileNotFoundError"
  | occupied => "FileExistsError"
  | notDirectory => "NotADirectoryError"
  | isDirectory => "IsADirectoryError"
  | nameTooLong => "OSError"

def number : Cause → Nat
  | notFound => 2
  | occupied => 17
  | notDirectory => 20
  | isDirectory => 21
  | nameTooLong => 36

def text : Cause → String
  | notFound => "No such file or directory"
  | occupied => "File exists"
  | notDirectory => "Not a directory"
  | isDirectory => "Is a directory"
  | nameTooLong => "File name too long"

end Cause

def Error.message (e : Error) : String :=
  "[Errno " ++ toString e.cause.number ++ "] " ++ e.cause.text ++ ": " ++
    Text.quoted e.place.toString

end DartScaffold.Disk
