import JsonShape.CommandLine.Source
import JsonShape.Generator

/-!
# The command

Takes a document from the source that the arguments select and shows its declaration. The exit code
is 0 if there is something to show, 1 if there is no declaration, and 2 if the arguments break a
rule.
-/

namespace JsonShape

namespace CommandLine

/-- What the command leaves behind. -/
structure Outcome where
  /-- The exit code. -/
  code : Nat
  /-- What is written to the standard output. -/
  output : String
  /-- What happened on the way, as far as the arguments ask for it. -/
  log : List Event
  /-- The report of a failure. -/
  report : String
deriving Repr, DecidableEq

/-- The line that answers a request for the version. -/
def versionLine : String := "json2struct 0.1.0\n"

/-- The answer to a request for help. -/
def helpText : String :=
  "Generates a Go struct definition from a JSON document\n\n" ++
  "Usage: json2struct [OPTIONS]\n\n" ++
  "Options:\n" ++
  "  -s, --string <STRING>    JSON document to generate from\n" ++
  "  -f, --file <FILE>        Path to a JSON file. Dash (hyphen) reads from stdin\n" ++
  "      --name <NAME>        Name of the generated type [default: JSONToStruct]\n" ++
  "      --package <PACKAGE>  Package clause of the generated file [default: generated]\n" ++
  "      --no-package         Emit only the type declaration, without a package clause\n" ++
  "      --editor <EDITOR>    Editor to type the JSON into when neither --string nor --file is " ++
  "given\n" ++
  "  -v, --verbose...         Log more details to stderr. Repeat for more\n" ++
  "  -h, --help               Print help\n" ++
  "  -V, --version            Print version\n"

/-- The lines that report arguments which break a rule. -/
def Misuse.report (cause : Misuse) : String :=
  "error: " ++ cause.message ++ "\n\nFor more information, try '--help'.\n"

/-- The outcome where no document is looked for. -/
def Halt.outcome : Halt → Outcome
  | version => ⟨0, versionLine, [], ""⟩
  | help => ⟨0, helpText, [], ""⟩
  | misuse cause => ⟨2, "", [], cause.report⟩

/-- The options of a declaration that the arguments choose. A name that they do not give is set all
the same, to the default. -/
def Arguments.options (given : Arguments) : Options :=
  let named := Options.default.withTypeName (given.name.getD Options.defaultTypeName)
  if given.noPackage then named.withoutPackage
  else named.withPackage (given.package.getD Options.defaultPackage)

/-- Whether an event is shown at a verbosity. -/
def shows (verbosity : Nat) (event : Event) : Bool :=
  match event.level with
  | .info => 1 ≤ verbosity
  | .debug => 2 ≤ verbosity

/-- The line that shows an event. -/
def logLine : Event → String
  | event@(.parsing bytes) => "DEBUG " ++ event.message ++ " bytes=" ++ bytes.repr
  | event@(.duplicateKey key) => "DEBUG " ++ event.message ++ " key=" ++ key.quote
  | event@(.renamed rename) =>
    " INFO " ++ event.message ++ " key=" ++ rename.key.quote ++ " ident=" ++ rename.ident.quote

/-- The outcome for a text, or for the failure to get one. -/
def Arguments.outcome (given : Arguments) : Except Failure String → Outcome
  | .error failure => ⟨1, "", [], failure.report⟩
  | .ok json =>
    let generated := Generator.run given.options json
    let log := generated.events.filter (shows given.verbosity)
    match generated.result with
    | .error cause => ⟨1, "", log, (Failure.document cause).report⟩
    | .ok declaration => ⟨0, declaration, log, ""⟩

/-- Runs the command on a host. -/
def run (host : Host) (arguments : List String) : Outcome :=
  match Arguments.read arguments with
  | .error halt => halt.outcome
  | .ok given => given.outcome (host.text (given.source host.editor))

end CommandLine

end JsonShape
