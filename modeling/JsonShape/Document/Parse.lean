import JsonShape.Error

/-!
# Tree of a token list

Reads exactly one object or array from a list of tokens. The reader keeps the container that it is
in and, for each container around it, the place that waits for the value being read. One token moves
it one step; the first token that the grammar has no place for ends the reading with an error, and
no part of a tree is returned.

Any list of tokens can be read, not only one that was cut from a text: a list that runs out reads as
the end of input, and what follows an end of input is never looked at.
-/

namespace JsonShape

namespace Document

/-- How deep containers may nest unless told otherwise. -/
def defaultMaxDepth : Nat := 512

/-! ## Where the reader is -/

/-- What an object accepts next. -/
inductive ObjectState where
  /-- A first key, or the end of an object without members. -/
  | keyOrClose
  /-- A key, after a comma. -/
  | key
  /-- The colon after a key. -/
  | colon (key : String)
  /-- The value of a key. -/
  | value (key : String)
  /-- A comma or the end, after a member. -/
  | commaOrClose
deriving Repr, DecidableEq

/-- What an array accepts next. -/
inductive ArrayState where
  /-- A first element, or the end of an array without elements. -/
  | valueOrClose
  /-- An element, after a comma. -/
  | value
  /-- A comma or the end, after an element. -/
  | commaOrClose
deriving Repr, DecidableEq

/-- A container that has been opened and not yet closed. -/
inductive Open where
  /-- An object with the members read so far. -/
  | object (members : Members Node) (state : ObjectState)
  /-- An array with the elements read so far. -/
  | array (elements : Array Node) (state : ArrayState)

/-- The container that is open. -/
def Open.container : Open → Container
  | object _ _ => .object
  | array _ _ => .array

/-- The place in an open container that waits for a value. -/
inductive Slot where
  /-- The value of a key, after the members before it. -/
  | member (members : Members Node) (key : String)
  /-- The next element, after those before it. -/
  | element (elements : Array Node)

/-- How far a document has been read. -/
inductive Position where
  /-- Nothing has been read. -/
  | start
  /-- A container is open; the slots are those around it, the innermost first. -/
  | inside (current : Open) (outer : List Slot)
  /-- The document is complete. -/
  | done (root : Node)

/-- Where one token leads, and the key that it completed a second time, if it did. -/
structure Advance where
  /-- The new position. -/
  position : Position
  /-- The key of a member whose key its object already had. -/
  duplicate : Option String

namespace Advance

/-- Moves on without completing a repeated member. -/
def reach (position : Position) : Advance := ⟨position, none⟩

end Advance

/-! ## One token -/

/-- The primitive type that a token stands for. -/
def primitive? : Token.Kind → Option Primitive
  | .string => some .string
  | .integer => some .integer
  | .float => some .float
  | .bool => some .bool
  | .null => some .null
  | _ => none

/-- Puts a complete value into the innermost slot; without a slot it is the document. -/
def complete (value : Node) : List Slot → Advance
  | [] => .reach (.done value)
  | .member members key :: outer =>
    ⟨.inside (.object (members.push key value) .commaOrClose) outer,
      if (members.get? key).isSome then some key else none⟩
  | .element elements :: outer =>
    .reach (.inside (.array (elements.push value) .commaOrClose) outer)

/-- Enters the container that `t` opens, unless that is one level too deep. -/
def enter (limit : Nat) (t : Token) (container : Open) (outer : List Slot) :
    Except Error Advance :=
  if outer.length < limit then .ok (.reach (.inside container outer))
  else .error (.nestingTooDeep limit t.start)

/-- Begins the value for the innermost slot, if `t` can begin one. -/
def beginValue? (limit : Nat) (t : Token) (slots : List Slot) : Option (Except Error Advance) :=
  match t.kind with
  | .leftBrace => some (enter limit t (.object .empty .keyOrClose) slots)
  | .leftBracket => some (enter limit t (.array #[] .valueOrClose) slots)
  | kind => (primitive? kind).map fun type => .ok (complete (.primitive type) slots)

/-- One token inside an object. -/
def stepObject (limit : Nat) (t : Token) (members : Members Node) (outer : List Slot) :
    ObjectState → Except Error Advance
  | .keyOrClose =>
    match t.kind with
    | .string => .ok (.reach (.inside (.object members (.colon t.text)) outer))
    | .rightBrace => .ok (complete (.object members) outer)
    | _ => .error (.unexpected t .object)
  | .key =>
    match t.kind with
    | .string => .ok (.reach (.inside (.object members (.colon t.text)) outer))
    | .rightBrace => .error (.trailingComma .object t.start)
    | _ => .error (.unexpected t .object)
  | .colon key =>
    match t.kind with
    | .colon => .ok (.reach (.inside (.object members (.value key)) outer))
    | _ => .error (.unexpected t .object)
  | .value key =>
    (beginValue? limit t (.member members key :: outer)).getD (.error (.unexpected t .object))
  | .commaOrClose =>
    match t.kind with
    | .comma => .ok (.reach (.inside (.object members .key) outer))
    | .rightBrace => .ok (complete (.object members) outer)
    | _ => .error (.unexpected t .object)

/-- One token inside an array. -/
def stepArray (limit : Nat) (t : Token) (elements : Array Node) (outer : List Slot) :
    ArrayState → Except Error Advance
  | .valueOrClose =>
    match t.kind with
    | .rightBracket => .ok (complete (.array elements.toList) outer)
    | _ => (beginValue? limit t (.element elements :: outer)).getD (.error (.unexpected t .array))
  | .value =>
    match t.kind with
    | .rightBracket => .error (.trailingComma .array t.start)
    | _ => (beginValue? limit t (.element elements :: outer)).getD (.error (.unexpected t .array))
  | .commaOrClose =>
    match t.kind with
    | .comma => .ok (.reach (.inside (.array elements .value) outer))
    | .rightBracket => .ok (complete (.array elements.toList) outer)
    | _ => .error (.unexpected t .array)

/-- One token that is neither the end of input nor a fault. -/
def step (limit : Nat) (t : Token) : Position → Except Error Advance
  | .start =>
    match t.kind with
    | .leftBrace => enter limit t (.object .empty .keyOrClose) []
    | .leftBracket => enter limit t (.array #[] .valueOrClose) []
    | _ => .error (.invalidRoot t)
  | .inside (.object members state) outer => stepObject limit t members outer state
  | .inside (.array elements state) outer => stepArray limit t elements outer state
  | .done _ => .error (.trailingContent t)

/-- What the end of input at token `t` makes of a position. -/
def finish (t : Token) : Position → Except Error Node
  | .start => .error (.invalidRoot t)
  | .inside current _ => .error (.unexpectedEnd current.container)
  | .done root => .ok root

/-! ## All tokens -/

/-- What came of reading a list of tokens. -/
structure Reading where
  /-- The keys of the members that were completed under a key which their object already had, in the
  order of completion, whether or not the reading failed later. -/
  duplicates : List String
  /-- The tree, or the first error. -/
  result : Except Error Node

/-- Reads tokens from a position on; `stop` is the offset behind the last token before them. -/
def run (limit : Nat) (position : Position) (stop : Nat) : List Token → Reading
  | [] => ⟨[], finish (.atEnd stop) position⟩
  | t :: rest =>
    match t.kind with
    | .fault cause => ⟨[], .error (.lexical cause t.start)⟩
    | .endOfInput => ⟨[], finish t position⟩
    | _ =>
      match step limit t position with
      | .error e => ⟨[], .error e⟩
      | .ok ⟨next, none⟩ => run limit next t.stop rest
      | .ok ⟨next, some key⟩ =>
        let reading := run limit next t.stop rest
        { reading with duplicates := key :: reading.duplicates }

/-- Reads a document from a list of tokens. -/
def read (limit : Nat) (items : List Token) : Reading := run limit .start 0 items

/-- The tree of a list of tokens whose containers nest at most `limit` deep. -/
def ofTokens (limit : Nat) (items : List Token) : Except Error Node := (read limit items).result

end Document

end JsonShape
