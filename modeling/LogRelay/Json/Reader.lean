/-
Reading a text as a JSON tree, from left to right.

`readValue` reads one value and gives the tree with what follows it; nothing follows a tree that is broken off. The
readers of values, items and entries call each other; each call uses up one unit of fuel, and twice the length of a text
is enough for it. `Document.read` reads a whole text: the tree and what follows it.
-/
import LogRelay.Json.Tree
import LogRelay.Text.Natural
import LogRelay.Text.Octets

namespace LogRelay.Json

def isBlank (c : Char) : Bool := c = ' ' || c = '\n' || c = '\t' || c = '\r'

/-- a text without the blanks it begins with -/
def skipBlanks (s : List Char) : List Char := s.dropWhile isBlank

/-! ## Texts in quotes -/

/-- the number that four hexadecimal digits write -/
def hex4? (a b c d : Char) : Option Nat := do
  let a ← Text.hexDigit? a
  let b ← Text.hexDigit? b
  let c ← Text.hexDigit? c
  let d ← Text.hexDigit? d
  return ((a * 16 + b) * 16 + c) * 16 + d

/-- the character that an escape of one letter stands for -/
def escaped? : Char → Option Char
  | '"' => some '"'
  | '\\' => some '\\'
  | '/' => some '/'
  | 'b' => some '\x08'
  | 'f' => some '\x0c'
  | 'n' => some '\n'
  | 'r' => some '\r'
  | 't' => some '\t'
  | _ => none

def isHighSurrogate (n : Nat) : Bool := 0xD800 ≤ n && n ≤ 0xDBFF

def isLowSurrogate (n : Nat) : Bool := 0xDC00 ≤ n && n ≤ 0xDFFF

/-- a text in quotes as far as it is read -/
structure Draft where
  /-- its characters, the last one first -/
  chars : List Char := []
  /-- a leading surrogate that still lacks its partner -/
  leading : Option Nat := none
  /-- the first surrogate that goes without a partner -/
  lone : Option Fault := none

namespace Draft

def push (d : Draft) (c : Char) : Draft := { d with chars := c :: d.chars }

/-- a surrogate goes without a partner -/
def unpaired (d : Draft) (f : Fault) : Draft := { d with leading := none, lone := d.lone.or (some f) }

/-- no escape by number comes at `s`, so a leading surrogate before it goes without a partner -/
def settle (d : Draft) (s : List Char) : Draft :=
  if d.leading.isSome then d.unpaired (.next .cutSurrogate s) else d

/-- one more UTF-16 unit, written by number; `r` follows it -/
def unit (d : Draft) (n : Nat) (r : List Char) : Draft :=
  match d.leading with
  | some h =>
    if isLowSurrogate n then
      { d with chars := Char.ofNat (0x10000 + (h - 0xD800) * 0x400 + (n - 0xDC00)) :: d.chars, leading := none }
    else d.unpaired (.here .loneSurrogate r)
  | none =>
    if isHighSurrogate n then { d with leading := some n }
    else if isLowSurrogate n then d.unpaired (.here .loneSurrogate r)
    else d.push (Char.ofNat n)

/-- the text is complete -/
def text (d : Draft) : Except Fault String :=
  match d.lone with
  | some f => .error f
  | none => .ok (String.ofList d.chars.reverse)

/-- the text breaks off: a surrogate that goes without a partner comes before the fault `f` -/
def breakOff (d : Draft) (f : Fault) : Break := ⟨d.lone.getD f, f⟩

end Draft

/-- the rest of a text in quotes, and what follows the closing quote -/
def readText (d : Draft) : List Char → Except Break (Except Fault String × List Char)
  | [] => .error (d.breakOff (.here .endInText []))
  | '"' :: r => .ok ((d.settle ('"' :: r)).text, r)
  | '\\' :: 'u' :: h :: i :: j :: k :: r =>
    match hex4? h i j k with
    | some n => readText (d.unit n r) r
    | none => .error (d.breakOff ⟨.badEscape, ⟨h :: i :: j :: k :: r, 4⟩⟩)
  | '\\' :: 'u' :: r =>
    .error (d.breakOff
      (if (Text.octets r).length < 4 then .here .endInText [] else ⟨.badEscape, ⟨r, 4⟩⟩))
  | '\\' :: e :: r =>
    let d := d.settle (e :: r)
    match escaped? e with
    | some c => readText (d.push c) r
    | none => .error (d.breakOff (.next .badEscape (e :: r)))
  | ['\\'] => .error (d.breakOff (.here .endInText []))
  | c :: r =>
    let d := d.settle (c :: r)
    if c < ' ' then .error (d.breakOff (.here .controlCharacter r)) else readText (d.push c) r

/-! ## Words and numerals -/

/-- what follows the rest of a word such as `null` -/
def readWord : List Char → List Char → Except Break (List Char)
  | [], s => .ok s
  | _ :: _, [] => .error (.missing .endAtValue .letterDue [])
  | w :: ws, c :: s => if c = w then readWord ws s else .error (.missing .endAtValue .letterDue (c :: s))

def digitValue (c : Char) : Nat := c.toNat - '0'.toNat

/-- the decimal digits a text begins with, and what follows them -/
def readDigits (s : List Char) : List Nat × List Char :=
  ((s.takeWhile Char.isDigit).map digitValue, s.dropWhile Char.isDigit)

/-- the break where a digit is missing: a numeral that is passed over is wrong even where the text ends -/
def missingDigit (s : List Char) : Break := ⟨.missing .endAtValue .badNumeral s, .next .badNumeral s⟩

/-- what follows the digit with which a number passes `exponentLimit`, or else all its digits; `n` is what it was -/
def pastLimit (n : Nat) : List Char → List Char
  | [] => []
  | c :: r =>
    if !c.isDigit then c :: r
    else if exponentLimit < n * 10 + digitValue c then r
    else pastLimit (n * 10 + digitValue c) r

/-- a part of a text, and what follows it; `noticed` is what follows the place where it would be found too large -/
structure Portion (α : Type) where
  value : α
  noticed : List Char
  rest : List Char

/-- the exponent of a numeral, if one is written -/
def readExponent : List Char → Except Break (Portion (Option (Bool × List Nat)))
  | [] => .ok ⟨none, [], []⟩
  | c :: r =>
    if c = 'e' || c = 'E' then
      let (neg, r) := match r with
        | '+' :: r => (false, r)
        | '-' :: r => (true, r)
        | r => (false, r)
      match readDigits r with
      | ([], r) => .error (missingDigit r)
      | (ds, q) => .ok ⟨some (neg, ds), if neg then q else pastLimit 0 r, q⟩
    else .ok ⟨none, c :: r, c :: r⟩

/-- the fraction of a numeral, if a point is written -/
def readFraction : List Char → Except Break (Option (List Nat) × List Char)
  | '.' :: r =>
    match readDigits r with
    | ([], r) => .error (missingDigit r)
    | (ds, r) => .ok (some ds, r)
  | s => .ok (none, s)

/-- a numeral after its sign: no digit before a digit may be a leading zero -/
def readNumeral (negative : Bool) (s : List Char) : Except Break (Portion Numeral) := do
  match readDigits s with
  | ([], r) => .error (missingDigit r)
  | (0 :: _ :: _, _) => .error (.both (.next .badNumeral s.tail))
  | (whole, r) =>
    let (fraction, r) ← readFraction r
    let e ← readExponent r
    return ⟨⟨negative, whole, fraction.getD [], e.value, fraction.isSome || e.value.isSome⟩, e.noticed, e.rest⟩

/-! ## Values -/

/-- the break where text follows an item of an array -/
def Break.afterItem (s : List Char) : Break := .missing .endInArray .itemEndDue s

/-- the break where text follows an entry of an object -/
def Break.afterEntry (s : List Char) : Break := .missing .endInObject .entryEndDue s

mutual

/-- one value, and what follows it unless it is broken off -/
def readValue : Nat → List Char → Tree × Option (List Char)
  | 0, s => (.broken (.missing .endAtValue .valueDue s), none)
  | fuel + 1, s =>
    match skipBlanks s with
    | [] => (.broken (.missing .endAtValue .valueDue []), none)
    | '"' :: r =>
      match readText {} r with
      | .ok (.ok v, q) => (.scalar (.text v) ⟨'"' :: r, q⟩, some q)
      | .ok (.error f, q) => (.flawed f, some q)
      | .error b => (.broken b, none)
    | '[' :: r =>
      match skipBlanks r with
      | [] => (.array ⟨'[' :: r, []⟩ [] (some (.afterItem [])), none)
      | ']' :: q => (.array ⟨'[' :: r, q⟩ [] none, some q)
      | q =>
        let (items, stop, rest) := readItems fuel q
        (.array ⟨'[' :: r, rest.getD []⟩ items stop, rest)
    | '{' :: r =>
      match skipBlanks r with
      | [] => (.object ⟨'{' :: r, []⟩ [] (some (.afterEntry [])), none)
      | '}' :: q => (.object ⟨'{' :: r, q⟩ [] none, some q)
      | q =>
        let (entries, stop, rest) := readEntries fuel q
        (.object ⟨'{' :: r, rest.getD []⟩ entries stop, rest)
    | 'n' :: r => word .null ('n' :: r) "ull".toList r
    | 't' :: r => word (.bool true) ('t' :: r) "rue".toList r
    | 'f' :: r => word (.bool false) ('f' :: r) "alse".toList r
    | '-' :: r => numeral true ('-' :: r) r
    | c :: r =>
      if c.isDigit then numeral false (c :: r) (c :: r)
      else (.broken (.missing .endAtValue .valueDue (c :: r)), none)
where
  /-- a word that stands for a value -/
  word (v : Scalar) (start w r : List Char) : Tree × Option (List Char) :=
    match readWord w r with
    | .ok r => (.scalar v ⟨start, r⟩, some r)
    | .error b => (.broken b, none)
  /-- a numeral as a value -/
  numeral (negative : Bool) (start r : List Char) : Tree × Option (List Char) :=
    match readNumeral negative r with
    | .error b => (.broken b, none)
    | .ok p =>
      match p.value.number? with
      | some n => (.scalar (.number n) ⟨start, p.rest⟩, some p.rest)
      | none => (.flawed (.here .hugeNumeral p.noticed), some p.rest)

/-- the items of an array up to its closing bracket, where an item is due -/
def readItems : Nat → List Char → List Tree × Option Break × Option (List Char)
  | 0, s => ([], some (.afterItem s), none)
  | fuel + 1, s =>
    match readValue fuel s with
    | (t, none) => ([t], none, none)
    | (t, some r) =>
      match skipBlanks r with
      | ']' :: q => ([t], none, some q)
      | ',' :: q =>
        match skipBlanks q with
        | ']' :: q => ([t, .broken (.both (.next .lastComma (']' :: q)))], none, none)
        | q =>
          let (ts, stop, rest) := readItems fuel q
          (t :: ts, stop, rest)
      | q => ([t], some (.afterItem q), none)

/-- the entries of an object up to its closing brace, where a key is due -/
def readEntries : Nat → List Char → List (Key × Tree) × Option Break × Option (List Char)
  | 0, s => ([], some (.afterEntry s), none)
  | fuel + 1, s =>
    match skipBlanks s with
    | '"' :: r =>
      match readText {} r with
      | .error b => ([], some b, none)
      | .ok (text, r) =>
        let key : Key := ⟨text, r⟩
        match skipBlanks r with
        | ':' :: q =>
          match readValue fuel q with
          | (t, none) => ([(key, t)], none, none)
          | (t, some r) =>
            match skipBlanks r with
            | '}' :: q => ([(key, t)], none, some q)
            | ',' :: q =>
              let (es, stop, rest) := readEntries fuel q
              ((key, t) :: es, stop, rest)
            | q => ([(key, t)], some (.afterEntry q), none)
        | q => ([(key, .broken (.missing .endInObject .colonDue q))], none, none)
    | '}' :: r => ([], some (.both (.next .lastComma ('}' :: r))), none)
    | q => ([], some (.missing .endAtValue .keyDue q), none)

end

/-- a text read as one value -/
structure Document where
  tree : Tree
  /-- what follows the value; none when the value is broken off -/
  rest : Option (List Char)

/-- the value a text begins with, and what follows it -/
def Document.read (s : List Char) : Document :=
  let (t, rest) := readValue (2 * s.length + 1) s
  ⟨t, rest⟩

/-- the fault if anything but blanks follows the value -/
def Document.trailing? (d : Document) : Option Fault :=
  match d.rest.map skipBlanks with
  | some (c :: r) => some (.next .textAfter (c :: r))
  | _ => none

end LogRelay.Json
