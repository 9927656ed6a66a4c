import JsonShape.Unicode.DecimalDigit
import JsonShape.Unicode.Letter
import JsonShape.Unicode.Lowercase
import JsonShape.Unicode.Upper

/-!
# Identifiers

Makes a legal Go identifier of any text. The first character of an identifier is a letter or an
underscore, each later one a letter, an underscore or a decimal digit; what is neither is replaced.
An identifier is exported if its first letter is upper case.
-/

namespace JsonShape

namespace Naming

/-! ## Reserved words -/

/-- The keywords of the language. Nothing may be named after one. -/
def keywords : List String :=
  ["break", "case", "chan", "const", "continue", "default", "defer", "else", "fallthrough", "for",
   "func", "go", "goto", "if", "import", "interface", "map", "package", "range", "return",
   "select", "struct", "switch", "type", "var"]

/-- The predeclared identifiers. A declaration named after one would hide it. -/
def predeclared : List String :=
  ["any", "bool", "byte", "comparable", "complex64", "complex128", "error", "float32", "float64",
   "int", "int8", "int16", "int32", "int64", "rune", "string", "uint", "uint8", "uint16", "uint32",
   "uint64", "uintptr", "true", "false", "iota", "nil", "append", "cap", "clear", "close",
   "complex", "copy", "delete", "imag", "len", "make", "max", "min", "new", "panic", "print",
   "println", "real", "recover"]

/-- Whether a name is a keyword. -/
def isKeyword (name : String) : Bool := keywords.contains name

/-- Whether a name is a keyword or a predeclared identifier. -/
def isReserved (name : String) : Bool := isKeyword name || predeclared.contains name

/-! ## Legal characters -/

/-- The characters with which an identifier may begin. -/
def isStart (c : Char) : Bool := c = '_' || Unicode.isLetter c

/-- The characters with which an identifier may go on. -/
def isPart (c : Char) : Bool := isStart c || Unicode.isDecimalDigit c

/-- Puts an underscore in the place of each character that is not legal there, and of no text. -/
def legalize : List Char → List Char
  | [] => ['_']
  | c :: rest =>
    (if isStart c then c else '_') :: rest.map fun d => if isPart d then d else '_'

/-- Writes the first letter in upper case if it is in lower case. -/
def capitalize : List Char → List Char
  | [] => []
  | c :: rest =>
    if Unicode.isLetter c then
      if Unicode.isLowercase c then Unicode.upper c ++ rest else c :: rest
    else c :: capitalize rest

/-! ## Names -/

/-- The exported identifier for a text. One that names something reserved before its first letter
becomes upper case gets a leading underscore. -/
def identifier (text : String) : String :=
  let legal := legalize text.toList
  let exported := capitalize legal
  .ofList (if isReserved (.ofList legal) then '_' :: exported else exported)

/-- The package name for a text, its case kept. The blank identifier and the keywords get a leading
underscore. -/
def packageName (text : String) : String :=
  let legal := legalize text.toList
  .ofList (if legal = ['_'] || isKeyword (.ofList legal) then '_' :: legal else legal)

end Naming

end JsonShape
