import JsonShape.CommandLine.Source

/-!
# File systems

A tree of files and directories, the place in it to which a path leads, and the host that has such
a tree for its files. A path is followed one component at a time from the root or from the working
directory, so the first component that leads nowhere decides why the path is refused.
-/

namespace JsonShape

namespace CommandLine

/-- A file, or a directory with what it holds under each name. -/
inductive FileTree where
  /-- A file of some bytes. If it is a program, it ends with a status that its arguments decide, and
  it leaves every file as it is. -/
  | file (bytes : ByteArray) (program : Option (List String → Nat))
  /-- A directory. -/
  | directory (entries : List (String × FileTree))

/-! ## Paths -/

/-- The most bytes that the name of an entry has. -/
def maxNameBytes : Nat := 255

/-- The most bytes that a path has. -/
def maxPathBytes : Nat := 4095

/-- The components of a path: `component` is the one that is being read, backwards. -/
def componentsAfter (component : List Char) : List Char → List String
  | [] => [String.ofList component.reverse]
  | c :: rest =>
    if c = '/' then String.ofList component.reverse :: componentsAfter [] rest
    else componentsAfter (c :: component) rest

/-- The pieces of a path between its slashes, the empty ones too. -/
def components (path : String) : List String := componentsAfter [] path.toList

/-- Whether a path starts at the root. -/
def isAbsolute (path : String) : Bool := path.toList.head? = some '/'

/-! ## Places -/

/-- A place in a tree: what is there, and the directories around it, the nearest first. -/
structure Place where
  /-- What is at the place. -/
  here : FileTree
  /-- The directories on the way from the root, the last one first. -/
  above : List FileTree

namespace Place

/-- The directory around a place. The root is around itself. -/
def parent (place : Place) : Place :=
  match place.above with
  | [] => place
  | nearest :: further => ⟨nearest, further⟩

/-- The place to which a component leads. Only a directory leads on: an empty component and one dot
stay in it, two dots leave it, and any other component is the name of one of its entries. -/
def step (place : Place) (component : String) : Except SystemError Place :=
  match place.here with
  | .file _ _ => .error .notDirectory
  | .directory entries =>
    if component = "" ∨ component = "." then .ok place
    else if component = ".." then .ok place.parent
    else if maxNameBytes < component.utf8ByteSize then .error .nameTooLong
    else
      match entries.lookup component with
      | none => .error .notFound
      | some entry => .ok ⟨entry, place.here :: place.above⟩

/-- The place to which some components lead, one after the other. -/
def walk (place : Place) : List String → Except SystemError Place
  | [] => .ok place
  | component :: rest =>
    match place.step component with
    | .error cause => .error cause
    | .ok next => next.walk rest

end Place

/-! ## File systems -/

/-- All files of a machine, and the two directories from which names are looked up. -/
structure FileSystem where
  /-- The root directory. -/
  root : FileTree
  /-- The names on the way from the root to the directory in which relative paths start. -/
  workingDirectory : List String
  /-- The names on the way from the root to the directory that holds the programs. -/
  programDirectory : List String

namespace FileSystem

/-- What some components lead to from the root. -/
def follow (system : FileSystem) (route : List String) : Except SystemError FileTree :=
  (Place.walk ⟨system.root, []⟩ route).map Place.here

/-- What a path leads to. An empty path leads nowhere. -/
def find (system : FileSystem) (path : String) : Except SystemError FileTree :=
  if path = "" then .error .notFound
  else if maxPathBytes < path.utf8ByteSize then .error .nameTooLong
  else if isAbsolute path then system.follow (components path)
  else system.follow (system.workingDirectory ++ components path)

/-- The bytes of the file to which a path leads. -/
def fileBytes (system : FileSystem) (path : String) : Except SystemError ByteArray :=
  match system.find path with
  | .error cause => .error cause
  | .ok (.file bytes _) => .ok bytes
  | .ok (.directory _) => .error .isDirectory

/-- What the name of a program stands for: a path if there is a slash in it, and otherwise an entry
of the program directory. -/
def findProgram (system : FileSystem) (name : String) : Except SystemError FileTree :=
  if name.toList.contains '/' then system.find name
  else system.follow (system.programDirectory ++ [name])

/-- The status with which a program ends. Only a file that is a program can be started. -/
def programStatus (system : FileSystem) (name : String) (arguments : List String) :
    Except SystemError Nat :=
  match system.findProgram name with
  | .error cause => .error cause
  | .ok (.file _ (some status)) => .ok (status arguments)
  | .ok _ => .error .permissionDenied

/-- How an editor ends. The file that it is given is empty and stays so. -/
def edit (system : FileSystem) : List String → Edit
  | [] => .notStarted .notFound
  | name :: arguments =>
    match system.programStatus name arguments with
    | .error cause => .notStarted cause
    | .ok status => .ended status (.ok .empty)

/-- The host with these files. -/
def host (system : FileSystem) (standardInput : ByteArray) (editor : Option String) : Host where
  standardInput := .ok standardInput
  editor
  fileBytes := system.fileBytes
  edit := system.edit

end FileSystem

end CommandLine

end JsonShape
