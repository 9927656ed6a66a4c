import JsonShape.CommandLine.Arguments
import JsonShape.CommandLine.SystemError
import JsonShape.Error
import JsonShape.Unicode.WhiteSpace

/-!
# Sources

Where the command takes its document from: the arguments, the standard input, a file, or an editor
in which the user writes it. A host answers for everything outside the command; how its answers
become a text, or a failure, is said here.
-/

namespace JsonShape

namespace CommandLine

/-- Where a document comes from. -/
inductive Source where
  /-- It is given as it is. -/
  | text (document : String)
  /-- It is read from the standard input. -/
  | standardInput
  /-- It is read from a file. -/
  | file (path : String)
  /-- It is written with an editor; `command` is the program and its first arguments. -/
  | editor (command : String)
deriving Repr, DecidableEq

/-- The editor of a user who has chosen none. -/
def defaultEditor : String := "vim"

/-- The source that the arguments select: a text before a file, where a dash is the standard input,
and a file before an editor. The arguments choose the editor before the environment does. -/
def Arguments.source (given : Arguments) (environmentEditor : Option String) : Source :=
  match given.string, given.file with
  | some document, _ => .text document
  | none, some path => if path = "-" then .standardInput else .file path
  | none, none => .editor ((given.editor.or environmentEditor).getD defaultEditor)

/-- Why something cannot be read as a text. -/
inductive ReadError where
  /-- The operating system has no bytes to give. -/
  | system (cause : SystemError)
  /-- The bytes are no text in UTF-8. -/
  | notText
deriving Repr, DecidableEq

/-- The words for an error in reading. -/
def ReadError.message : ReadError → String
  | system cause => cause.message
  | notText => "stream did not contain valid UTF-8"

/-- Why the command has no declaration to show. -/
inductive Failure where
  /-- The standard input cannot be read. -/
  | standardInput (cause : ReadError)
  /-- A file cannot be read. -/
  | file (path : String) (cause : ReadError)
  /-- No editor is named. -/
  | noEditor
  /-- The editor cannot be started. -/
  | editorNotStarted (command : String) (cause : SystemError)
  /-- The editor ended with a status other than zero. -/
  | editorFailed (command : String) (status : Nat)
  /-- What the editor left cannot be read. -/
  | editedFile (cause : ReadError)
  /-- The document has no declaration. -/
  | document (cause : Error)
deriving Repr, DecidableEq

namespace Failure

/-- What failed, and the reason if another program gave one. -/
def explain : Failure → String × Option String
  | standardInput cause => ("reading stdin", some cause.message)
  | file path cause => ("reading " ++ path, some cause.message)
  | noEditor => ("no editor configured", none)
  | editorNotStarted command cause => ("launching editor " ++ command, some cause.message)
  | editorFailed command status =>
    ("editor " ++ command ++ " exited with exit status: " ++ status.repr, none)
  | editedFile cause => ("reading back the edited file", some cause.message)
  | document cause => (cause.message, none)

/-- The lines that report a failure. -/
def report (failure : Failure) : String :=
  match failure.explain with
  | (what, none) => "Error: " ++ what ++ "\n"
  | (what, some reason) => "Error: " ++ what ++ "\n\nCaused by:\n    " ++ reason ++ "\n"

end Failure

/-- How an editor ended. -/
inductive Edit where
  /-- It was not started. -/
  | notStarted (cause : SystemError)
  /-- It ended with a status; if that is zero, the file is read back, unless the operating system
  refuses it. -/
  | ended (status : Nat) (file : Except SystemError ByteArray)

/-- What the surroundings of the command answer. -/
structure Host where
  /-- All that the standard input holds. -/
  standardInput : Except SystemError ByteArray
  /-- The editor that the environment names. -/
  editor : Option String
  /-- The bytes of a file, or why there are none. -/
  fileBytes : (path : String) → Except SystemError ByteArray
  /-- Starts a program on an empty file; `words` are the program and its first arguments. -/
  edit : (words : List String) → Edit

/-- The text of some bytes in UTF-8. -/
def decode (bytes : Except SystemError ByteArray) : Except ReadError String :=
  match bytes with
  | .error cause => .error (.system cause)
  | .ok bytes =>
    match String.fromUTF8? bytes with
    | some text => .ok text
    | none => .error .notText

/-- The text that an editor leaves. -/
def Edit.text (command : String) : Edit → Except Failure String
  | notStarted cause => .error (.editorNotStarted command cause)
  | ended status file =>
    if status = 0 then (decode file).mapError .editedFile
    else .error (.editorFailed command status)

/-- The text of a source. -/
def Host.text (host : Host) : Source → Except Failure String
  | .text document => .ok document
  | .standardInput => (decode host.standardInput).mapError .standardInput
  | .file path => (decode (host.fileBytes path)).mapError (.file path)
  | .editor command =>
    match Unicode.words command with
    | [] => .error .noEditor
    | words => (host.edit words).text command

end CommandLine

end JsonShape
