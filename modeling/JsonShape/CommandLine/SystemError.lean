/-!
# Errors of the operating system

Why the operating system refuses a request. The words and the numbers are its own.
-/

namespace JsonShape

namespace CommandLine

/-- Why the operating system refuses a request. -/
inductive SystemError where
  /-- Nothing has the name that is asked for. -/
  | notFound
  /-- The request is not allowed. -/
  | permissionDenied
  /-- A path goes on after something that is no directory. -/
  | notDirectory
  /-- A directory stands where a file is needed. -/
  | isDirectory
  /-- A name, or a whole path, has too many bytes. -/
  | nameTooLong
  /-- Another reason, as it is described. -/
  | other (description : String)
deriving Repr, DecidableEq

namespace SystemError

/-- The error of a number, if it is one of those that are told apart here. -/
def ofNumber? : Nat → Option SystemError
  | 2 => some notFound
  | 13 => some permissionDenied
  | 20 => some notDirectory
  | 21 => some isDirectory
  | 36 => some nameTooLong
  | _ => none

/-- The words for an error, with its number. -/
def message : SystemError → String
  | notFound => "No such file or directory (os error 2)"
  | permissionDenied => "Permission denied (os error 13)"
  | notDirectory => "Not a directory (os error 20)"
  | isDirectory => "Is a directory (os error 21)"
  | nameTooLong => "File name too long (os error 36)"
  | other description => description

end SystemError

end CommandLine

end JsonShape
