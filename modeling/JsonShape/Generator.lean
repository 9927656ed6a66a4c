import JsonShape.Declaration
import JsonShape.Shape.Infer
import JsonShape.Token.Scan

/-!
# From a text to a declaration

Cuts a text into tokens, reads their tree, infers its shape and writes the declaration. Noteworthy
events on the way are kept in the order in which they happen; a failure keeps those before it.
-/

namespace JsonShape

/-- Something noteworthy about a document. -/
inductive Event where
  /-- A text of so many bytes is about to be read. -/
  | parsing (bytes : Nat)
  /-- An object has a member under a key that it already had. -/
  | duplicateKey (key : String)
  /-- A field is not named like its key. -/
  | renamed (rename : Rename)
deriving Repr, DecidableEq

namespace Event

/-- How much an event matters. -/
inductive Level where
  /-- Of interest to whoever looks for the cause of a problem. -/
  | debug
  /-- Of interest to whoever uses the declaration. -/
  | info
deriving Repr, DecidableEq

/-- How much an event matters. -/
def level : Event → Level
  | parsing _ | duplicateKey _ => .debug
  | renamed _ => .info

/-- The wording of an event, without its particulars. -/
def message : Event → String
  | parsing _ => "parsing document"
  | duplicateKey _ => "duplicate key in object"
  | renamed _ => "renamed key to a valid Go identifier"

end Event

namespace Generator

/-- The tree of a text. -/
def parse (json : String) (maxDepth : Nat) : Except Error Node :=
  Document.ofTokens maxDepth (tokens json)

/-- What came of generating a declaration. -/
structure Outcome where
  /-- What was noted, in order. -/
  events : List Event
  /-- The declaration, or the first error. -/
  result : Except Error String

/-- Generates the declaration for a text. -/
def run (options : Options) (json : String) : Outcome :=
  let reading := Document.read options.maxDepth (tokens json)
  let events := .parsing json.utf8ByteSize :: reading.duplicates.map .duplicateKey
  match reading.result.bind Inferred.ofRoot with
  | .error e => ⟨events, .error e⟩
  | .ok inferred =>
    ⟨events ++ inferred.renames.map .renamed, .ok (inferred.shape.declaration options)⟩

/-- The declaration for a text. -/
def generate (options : Options) (json : String) : Except Error String := (run options json).result

end Generator

/-- The declaration for a text under the default options. -/
def generate (json : String) : Except Error String := Generator.generate .default json

end JsonShape
