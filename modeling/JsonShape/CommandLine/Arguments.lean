/-!
# Arguments

Reads the arguments of the command. A value belongs to an option in any of the spellings `-sX`,
`-s=X`, `--string=X` and, as an argument of its own, `-s X` and `--string X`; flags may share one
dash. There are no arguments besides options. The first argument that breaks a rule ends the
reading, and so does a request for the version or for help.
-/

namespace JsonShape

namespace CommandLine

/-- The options that take a value. -/
inductive Setting where
  /-- The document itself. -/
  | string
  /-- The file that holds the document. -/
  | file
  /-- The name of the type. -/
  | name
  /-- The name of the package. -/
  | package
  /-- The editor in which the document is written. -/
  | editor
deriving Repr, DecidableEq

/-- The options that take none. -/
inductive Flag where
  /-- No package clause. -/
  | noPackage
  /-- One more level of messages. -/
  | verbose
  /-- Show the options. -/
  | help
  /-- Show the version. -/
  | version
deriving Repr, DecidableEq

/-- An option of either kind. -/
inductive Switch where
  /-- One that takes a value. -/
  | setting (setting : Setting)
  /-- One that takes none. -/
  | flag (flag : Flag)
deriving Repr, DecidableEq

namespace Switch

/-- All options. -/
def all : List Switch :=
  [setting .string, setting .file, setting .name, setting .package, setting .editor,
    flag .noPackage, flag .verbose, flag .help, flag .version]

/-- The long name of an option. -/
def name : Switch → String
  | setting .string => "string"
  | setting .file => "file"
  | setting .name => "name"
  | setting .package => "package"
  | setting .editor => "editor"
  | flag .noPackage => "no-package"
  | flag .verbose => "verbose"
  | flag .help => "help"
  | flag .version => "version"

/-- The letter of an option, if it has one. -/
def letter? : Switch → Option Char
  | setting .string => some 's'
  | setting .file => some 'f'
  | flag .verbose => some 'v'
  | flag .help => some 'h'
  | flag .version => some 'V'
  | _ => none

/-- The option with a long name. -/
def ofName? (name : String) : Option Switch := all.find? fun option => option.name = name

/-- The option with a letter. -/
def ofLetter? (letter : Char) : Option Switch :=
  all.find? fun option => option.letter? = some letter

end Switch

/-- What the arguments say. -/
structure Arguments where
  /-- The document itself. -/
  string : Option String := none
  /-- The file that holds the document. -/
  file : Option String := none
  /-- The name of the type. -/
  name : Option String := none
  /-- The name of the package. -/
  package : Option String := none
  /-- The editor. -/
  editor : Option String := none
  /-- Whether the package clause is left out. -/
  noPackage : Bool := false
  /-- How many levels of messages are asked for. -/
  verbosity : Nat := 0
deriving Repr, DecidableEq, Inhabited

/-- Which rule the arguments break. -/
inductive Misuse where
  /-- An argument is neither an option nor a value of one. -/
  | unknown (argument : String)
  /-- An option has no value. -/
  | valueMissing (setting : Setting)
  /-- A flag has a value. -/
  | valueUnwanted (flag : Flag)
  /-- A file has no name. -/
  | emptyPath
  /-- An option is given twice. -/
  | repeated (option : Switch)
  /-- Two options exclude each other. -/
  | conflict (one other : Switch)
deriving Repr, DecidableEq

/-- The wording of a broken rule. -/
def Misuse.message : Misuse → String
  | unknown argument => "unexpected argument '" ++ argument ++ "' found"
  | valueMissing setting => "a value is required for '--" ++ (Switch.setting setting).name ++ "'"
  | valueUnwanted flag => "no value is allowed for '--" ++ (Switch.flag flag).name ++ "'"
  | emptyPath => "a path cannot be empty"
  | repeated setting => "the option '--" ++ setting.name ++ "' cannot be used twice"
  | conflict one other => "'--" ++ one.name ++ "' cannot be used with '--" ++ other.name ++ "'"

/-- Why no document is looked for. -/
inductive Halt where
  /-- The version was asked for. -/
  | version
  /-- Help was asked for. -/
  | help
  /-- The arguments break a rule. -/
  | misuse (cause : Misuse)
deriving Repr, DecidableEq

namespace Arguments

/-! ## One option -/

/-- The value that an option has so far. -/
def get? (given : Arguments) : Setting → Option String
  | .string => given.string
  | .file => given.file
  | .name => given.name
  | .package => given.package
  | .editor => given.editor

/-- The arguments with a value for an option. -/
def put (given : Arguments) (value : String) : Setting → Arguments
  | .string => { given with string := some value }
  | .file => { given with file := some value }
  | .name => { given with name := some value }
  | .package => { given with package := some value }
  | .editor => { given with editor := some value }

/-- Gives an option its value, once; a path is not empty. -/
def set (given : Arguments) (setting : Setting) (value : String) : Except Halt Arguments :=
  if (given.get? setting).isSome then .error (.misuse (.repeated (.setting setting)))
  else if setting = .file && value.isEmpty then .error (.misuse .emptyPath)
  else .ok (given.put value setting)

/-- Raises a flag, which only the one for messages allows more than once. -/
def raise (given : Arguments) : Flag → Except Halt Arguments
  | .noPackage =>
    if given.noPackage then .error (.misuse (.repeated (.flag .noPackage)))
    else .ok { given with noPackage := true }
  | .verbose => .ok { given with verbosity := given.verbosity + 1 }
  | .help => .error .help
  | .version => .error .version

/-! ## One argument -/

/-- What one argument leads to: the arguments so far, and the option whose value comes next, if one
waits for it. -/
abbrev Progress := Except Halt (Arguments × Option Setting)

/-- Options that share one dash. After one that takes a value the rest is that value, less one
equals sign before it. -/
def readLetters (given : Arguments) : List Char → Progress
  | [] => .ok (given, none)
  | letter :: rest =>
    match Switch.ofLetter? letter with
    | none => .error (.misuse (.unknown (.ofList ['-', letter])))
    | some (.flag flag) =>
      match given.raise flag with
      | .error halt => .error halt
      | .ok next => readLetters next rest
    | some (.setting setting) =>
      match rest with
      | [] => .ok (given, some setting)
      | c :: value =>
        (given.set setting (.ofList (if c = '=' then value else rest))).map fun next => (next, none)

/-- An option with a long name; a value follows the first equals sign. -/
def readLong (given : Arguments) (text : List Char) : Progress :=
  let name := text.takeWhile (· ≠ '=')
  let value? := match text.dropWhile (· ≠ '=') with
    | [] => none
    | _ :: value => some (String.ofList value)
  match Switch.ofName? (.ofList name), value? with
  | none, _ => .error (.misuse (.unknown (.ofList ('-' :: '-' :: text))))
  | some (.flag flag), some _ => .error (.misuse (.valueUnwanted flag))
  | some (.flag flag), none => (given.raise flag).map fun next => (next, none)
  | some (.setting setting), some value => (given.set setting value).map fun next => (next, none)
  | some (.setting setting), none => .ok (given, some setting)

/-- Whether an argument that stands where a value is due is one. A single dash is. -/
def isValue (argument : String) : Bool :=
  match argument.toList with
  | '-' :: _ :: _ => false
  | _ => true

/-- One argument where no value is due. -/
def readArgument (given : Arguments) (argument : String) : Progress :=
  match argument.toList with
  | '-' :: '-' :: text => given.readLong text
  | '-' :: letter :: rest => given.readLetters (letter :: rest)
  | _ => .error (.misuse (.unknown argument))

/-! ## All arguments -/

/-- Reads arguments on top of those that are given. Two dashes alone end the options, and nothing
may follow them. -/
def readAll (given : Arguments) : List String → Except Halt Arguments
  | [] => .ok given
  | argument :: rest =>
    if argument = "--" then
      match rest with
      | [] => .ok given
      | extra :: _ => .error (.misuse (.unknown extra))
    else
      match given.readArgument argument with
      | .error halt => .error halt
      | .ok (next, none) => readAll next rest
      | .ok (next, some setting) =>
        match rest with
        | [] => .error (.misuse (.valueMissing setting))
        | value :: rest =>
          if isValue value then
            match next.set setting value with
            | .error halt => .error halt
            | .ok next => readAll next rest
          else .error (.misuse (.valueMissing setting))

/-- Refuses options that exclude each other. -/
def check (given : Arguments) : Except Halt Arguments :=
  if given.string.isSome && given.file.isSome then
    .error (.misuse (.conflict (.setting .string) (.setting .file)))
  else if given.package.isSome && given.noPackage then
    .error (.misuse (.conflict (.setting .package) (.flag .noPackage)))
  else .ok given

/-- Reads the arguments of the command. -/
def read (arguments : List String) : Except Halt Arguments := (readAll {} arguments).bind check

end Arguments

end CommandLine

end JsonShape
