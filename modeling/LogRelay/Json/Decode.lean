/-
Taking values of a given kind out of a JSON tree.

A reader goes through the tree in the order of the text and reports the first problem it meets, so what it reads
before a break may be refused before the break is. A `Problem` is a fault of the text or a mismatch: well-formed so
far, but not of the kind or value expected. `Record` reads a structure from an object, whose unknown keys are passed
over and whose known keys may stand once, or from an array of the fields in their order, which may be short.

A value of the wrong kind is noticed after a scalar and before a container. Any other mismatch is noticed where the
innermost container around it is left: a reader that gives up still takes the end of that container if it comes next.
`ofText` reads a whole text and turns marks into positions.
-/
import LogRelay.Json.Reader
import LogRelay.Decimal.Layout
import LogRelay.Severity
import LogRelay.Text.Hidden

namespace LogRelay.Json

open Decimal

/-- what is expected of a value -/
inductive Expected where
  | text
  | boolean
  | map
  | sequence
  /-- a whole number that counts octets, records or threads -/
  | size
  /-- any other whole number of 64 bits -/
  | word
  /-- a structure with this name -/
  | structure (name : String)
  deriving DecidableEq, Repr

/-- what is found instead -/
inductive Found where
  | scalar (v : Scalar)
  | sequence
  | map
  deriving DecidableEq, Repr

/-- well-formed JSON of the wrong kind or value -/
inductive Mismatch where
  | wrongKind (found : Found) (expected : Expected)
  /-- the number below zero with magnitude `n` -/
  | belowZero (n : Nat) (expected : Expected)
  | duplicateField (name : String)
  | unknownSeverity (u : Severity.Unknown)
  /-- a payload value that holds an array -/
  | notAValue
  deriving DecidableEq, Repr

/-- why a value cannot be taken out of a text -/
inductive Problem where
  /-- the text is no JSON -/
  | fault (c : Cause)
  | mismatch (m : Mismatch)
  deriving DecidableEq, Repr

/-- what a reader of trees refuses, and where it notices that, as far as it knows -/
structure Objection where
  problem : Problem
  mark : Option Mark
  deriving DecidableEq, Repr

/-- what a reader of texts refuses, and where it notices that, if within a value -/
structure Refusal where
  problem : Problem
  position : Option Position
  deriving DecidableEq, Repr

/-! ## Words -/

def Expected.message : Expected → String
  | text => "a string"
  | boolean => "a boolean"
  | map => "a map"
  | sequence => "a sequence"
  | size => "usize"
  | word => "u64"
  | .structure name => "struct " ++ name

def Number.message : Number → String
  | natural n => "integer `" ++ toString n ++ "`"
  | negative n => "integer `-" ++ toString n ++ "`"
  | float x => "floating point `" ++ json.render x ++ "`"

def Scalar.message : Scalar → String
  | null => "null"
  | bool b => "boolean `" ++ (if b then "true" else "false") ++ "`"
  | number n => n.message
  | text s => "string " ++ Text.describe s

def Found.message : Found → String
  | scalar v => v.message
  | sequence => "sequence"
  | map => "map"

def Mismatch.message : Mismatch → String
  | wrongKind f e => "invalid type: " ++ f.message ++ ", expected " ++ e.message
  | belowZero n e => "invalid value: " ++ (Number.negative n).message ++ ", expected " ++ e.message
  | duplicateField name => "duplicate field `" ++ name ++ "`"
  | unknownSeverity u => u.message
  | notAValue => "data did not match any variant of untagged enum FieldValue"

def Problem.message : Problem → String
  | fault c => c.message
  | mismatch m => m.message

/-- a refusal in words, with its position if it has one -/
def Refusal.message (r : Refusal) : String :=
  r.problem.message ++ match r.position with
    | some p => " at " ++ p.message
    | none => ""

/-! ## Objections -/

namespace Objection

variable {α : Type}

/-- the objection with a mark, unless it has one -/
def noticedAt (o : Objection) (m : Mark) : Objection := { o with mark := some (o.mark.getD m) }

/-- the objection as a refusal of a whole text -/
def refusal (o : Objection) (text : List Char) : Refusal := ⟨o.problem, o.mark.map (·.position text)⟩

end Objection

def refuse {α : Type} (f : Fault) : Except Objection α := .error ⟨.fault f.cause, some f.mark⟩

/-- refuses a mismatch that is noticed at the beginning of a text `s` -/
def mismatched {α : Type} (m : Mismatch) (s : List Char) : Except Objection α := .error ⟨.mismatch m, some ⟨s, 0⟩⟩

/-- refuses a mismatch that is noticed where the container around it is left -/
def unsuitable {α : Type} (m : Mismatch) : Except Objection α := .error ⟨.mismatch m, none⟩

/-- where an object is left from its text `s`: after its brace if that comes next -/
def leaveObject (s : List Char) : Mark :=
  match skipBlanks s with
  | '}' :: r => ⟨r, 0⟩
  | r => ⟨r, 0⟩

/-- where an array is left from its text `s`: after its bracket, or after a comma and blanks, if that comes next -/
def leaveArray (s : List Char) : Mark :=
  match skipBlanks s with
  | ']' :: r => ⟨r, 0⟩
  | ',' :: r => ⟨skipBlanks r, 0⟩
  | r => ⟨r, 0⟩

namespace Tree

variable {α : Type}

/-- refuses a tree that is not of the kind expected; a value without parts is read to its end first -/
def unexpected (e : Expected) : Tree → Except Objection α
  | scalar v x => mismatched (.wrongKind (.scalar v) e) x.rest
  | array x _ _ => mismatched (.wrongKind .sequence e) x.start
  | object x _ _ => mismatched (.wrongKind .map e) x.start
  | flawed f => refuse f
  | broken b => refuse b.wanted

def asText : Tree → Except Objection String
  | scalar (.text s) _ => .ok s
  | t => t.unexpected .text

def asBool : Tree → Except Objection Bool
  | scalar (.bool b) _ => .ok b
  | t => t.unexpected .boolean

/-- a whole number of 64 bits -/
def asWord (e : Expected) : Tree → Except Objection UInt64
  | scalar (.number (.natural v)) _ => .ok v.toUInt64
  | scalar (.number (.negative v)) x => mismatched (.belowZero v e) x.rest
  | t => t.unexpected e

/-- nothing for null, and else a value -/
def asOption (read : Tree → Except Objection α) : Tree → Except Objection (Option α)
  | scalar .null _ => .ok none
  | t => (read t).map some

/-- refuses where a container stops before it is closed -/
def closed : Option Break → Except Objection Unit
  | none => .ok ()
  | some b => refuse b.wanted

def asList (read : Tree → Except Objection α) : Tree → Except Objection (List α)
  | array _ items stop => do
    let vs ← items.mapM fun t => (read t).mapError (·.noticedAt (leaveArray t.rest))
    closed stop
    return vs
  | t => t.unexpected .sequence

/-- the severity with the name a text gives -/
def asSeverity (t : Tree) : Except Objection Severity := do
  match Severity.parse (← t.asText) with
  | .ok s => return s
  | .error u => unsuitable (.unknownSeverity u)

end Tree

/-- a field of a structure: its name, and how its value replaces the field -/
structure Field (σ : Type) where
  name : String
  read : Tree → Except Objection (σ → σ)

/-- a structure that is read from JSON: its name and its fields in order -/
structure Record (σ : Type) where
  name : String
  fields : List (Field σ)

namespace Record

variable {σ : Type}

/-- one entry of an object: `seen` holds the known keys before it -/
def entry (r : Record σ) (acc : σ × List String) (e : Key × Tree) : Except Objection (σ × List String) :=
  match e.1.text with
  | .error f => refuse f
  | .ok key =>
    match r.fields.find? fun f => f.name == key with
    | none =>
      match e.2.gap? with
      | some f => refuse f
      | none => .ok acc
    | some f =>
      if key ∈ acc.2 then .error ⟨.mismatch (.duplicateField key), some (leaveObject e.1.rest)⟩
      else
        ((f.read e.2).mapError (·.noticedAt (leaveObject e.2.rest))).map fun set => (set acc.1, key :: acc.2)

/-- the fault where an array goes on after the last field, of which `s` is what follows -/
def surplus (s : List Char) : Fault :=
  match skipBlanks s with
  | ',' :: r =>
    match skipBlanks r with
    | ']' :: q => .next .lastComma (']' :: q)
    | q => .next .textAfter q
  | r => .missing .endInArray .textAfter r

/-- the fields from an array, in order; nothing may be left of the array. `s` is what follows the field before -/
def ofItems (stop : Option Break) : List (Field σ) → List Tree → List Char → σ → Except Objection σ
  | [], ts, s, v => if ts.isEmpty && stop.isNone then .ok v else refuse (surplus s)
  | _ :: _, [], _, v => (Tree.closed stop).map fun _ => v
  | f :: fs, t :: ts, _, v =>
    ((f.read t).mapError (·.noticedAt (leaveArray t.rest))).bind fun set => ofItems stop fs ts t.rest (set v)

/-- a structure whose missing fields are those of `start` -/
def read (r : Record σ) (start : σ) : Tree → Except Objection σ
  | .object _ entries stop => do
    let acc ← entries.foldlM r.entry (start, [])
    Tree.closed stop
    return acc.1
  | .array e items stop => ofItems stop r.fields items e.start.tail start
  | t => t.unexpected (.structure r.name)

end Record

/-- a value read from a whole text -/
def ofText {α : Type} (read : Tree → Except Objection α) (s : List Char) : Except Refusal α :=
  let d := Document.read s
  match read d.tree, d.trailing? with
  | .error o, _ => .error (o.refusal s)
  | .ok _, some f => .error ⟨.fault f.cause, some (f.mark.position s)⟩
  | .ok v, none => .ok v

end LogRelay.Json
