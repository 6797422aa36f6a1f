/-
Why, and where, a text is no JSON.

A reader that goes from left to right holds what is left of a text, so it gives a place as a `Mark`: what is left
there, and how many octets of that are passed already. `Mark.position` counts the lines of the whole text up to the
mark, and the octets since the last line feed. A `Fault` is a cause and the mark where it is noticed, a `Break` a
place where reading stops.
-/
import LogRelay.Text.Octets

namespace LogRelay.Json

/-- a place in a text: `passed` octets into the part `rest` that ends the text -/
structure Mark where
  rest : List Char
  passed : Nat
  deriving DecidableEq, Repr

/-- a place in a text by its line, counted from one, and the octets of that line before it -/
structure Position where
  line : Nat
  column : Nat
  deriving DecidableEq, Repr

def lineFeed : UInt8 := 10

/-- the position after some octets -/
def Position.after (s : Octets) : Position := ⟨s.count lineFeed + 1, (s.reverse.takeWhile (· != lineFeed)).length⟩

/-- the position of a mark in a text -/
def Mark.position (text : List Char) (m : Mark) : Position :=
  .after (Text.octets (text.take (text.length - m.rest.length)) ++ (Text.octets m.rest).take m.passed)

def Position.message (p : Position) : String :=
  "line " ++ toString p.line ++ " column " ++ toString p.column

/-- why a text is no JSON -/
inductive Cause where
  /-- the text ends within an array -/
  | endInArray
  /-- the text ends within an object -/
  | endInObject
  /-- the text ends within a text in quotes -/
  | endInText
  /-- the text ends where a value is due, or goes on -/
  | endAtValue
  | colonDue
  /-- a comma is due, or the end of the array -/
  | itemEndDue
  /-- a comma is due, or the end of the object -/
  | entryEndDue
  /-- a letter of a word such as `null` is due -/
  | letterDue
  | valueDue
  | keyDue
  /-- a comma stands before the end of a container -/
  | lastComma
  /-- the text goes on after the value -/
  | textAfter
  | badEscape
  | badNumeral
  /-- a numeral too large for a number -/
  | hugeNumeral
  | controlCharacter
  /-- a surrogate without its partner -/
  | loneSurrogate
  /-- no escape by number follows a leading surrogate -/
  | cutSurrogate
  /-- too many containers are open -/
  | tooDeep
  deriving DecidableEq, Repr

namespace Cause

def message : Cause → String
  | endInArray => "EOF while parsing a list"
  | endInObject => "EOF while parsing an object"
  | endInText => "EOF while parsing a string"
  | endAtValue => "EOF while parsing a value"
  | colonDue => "expected `:`"
  | itemEndDue => "expected `,` or `]`"
  | entryEndDue => "expected `,` or `\x7d`"
  | letterDue => "expected ident"
  | valueDue => "expected value"
  | keyDue => "key must be a string"
  | lastComma => "trailing comma"
  | textAfter => "trailing characters"
  | badEscape => "invalid escape"
  | badNumeral => "invalid number"
  | hugeNumeral => "number out of range"
  | controlCharacter => "control character (\\u0000-\\u001F) found while parsing a string"
  | loneSurrogate => "lone leading surrogate in hex escape"
  | cutSurrogate => "unexpected end of hex escape"
  | tooDeep => "recursion limit exceeded"

/-- whether the text ends too early, and does not go on wrongly -/
def isEnd : Cause → Bool
  | endInArray => true
  | endInObject => true
  | endInText => true
  | endAtValue => true
  | _ => false

end Cause

/-- why a text is no JSON, and where that is noticed -/
structure Fault where
  cause : Cause
  mark : Mark
  deriving DecidableEq, Repr

namespace Fault

/-- a fault of the character that comes next, or of the end of the text -/
def next (c : Cause) (rest : List Char) : Fault := ⟨c, ⟨rest, 1⟩⟩

/-- a fault of what is passed already -/
def here (c : Cause) (rest : List Char) : Fault := ⟨c, ⟨rest, 0⟩⟩

/-- what is due does not come next: the text ends, or it goes on otherwise -/
def missing (atEnd otherwise : Cause) (rest : List Char) : Fault :=
  next (if rest.isEmpty then atEnd else otherwise) rest

end Fault

/-- a place where reading stops: the fault if the value there is wanted, and if it is passed over -/
structure Break where
  wanted : Fault
  skipped : Fault
  deriving DecidableEq, Repr

/-- a break that is the same fault for every reader -/
def Break.both (f : Fault) : Break := ⟨f, f⟩

/-- a break where what is due does not come next -/
def Break.missing (atEnd otherwise : Cause) (rest : List Char) : Break := .both (.missing atEnd otherwise rest)

end LogRelay.Json
