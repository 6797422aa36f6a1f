/-
The payload of a record: named values, held in the order of their keys.

A value is a text, a whole number of 64 bits, a floating-point number, a truth value, a map of values, or null.
Inserting under a key that is there replaces its value, so a payload depends only on the last value of each key, and
its text is the same whenever the payload is. Reading takes the values back from JSON: maps for objects, and no arrays
anywhere.
-/
import LogRelay.Json.Decode
import LogRelay.Json.Quote

namespace LogRelay

open Decimal Json

inductive Value where
  | text (s : String)
  | int (n : Int64)
  | float (x : Double)
  | bool (b : Bool)
  | map (fields : List (String × Value))
  | null
  deriving Repr, Inhabited

/-- named values, the keys in the order of their octets -/
structure Payload where
  fields : List (String × Value)
  deriving Repr, Inhabited

namespace Value

def kind : Value → String
  | text _ => "string"
  | int _ => "int"
  | float _ => "float"
  | bool _ => "bool"
  | map _ => "map"
  | null => "null"

mutual

def json : Value → List Char
  | text s => quote s.toList
  | int n => (toString n.toInt).toList
  | float x => (Decimal.json.render x).toList
  | bool b => (if b then "true" else "false").toList
  | map fields => '{' :: jsonOfFields fields ++ ['}']
  | null => "null".toList

/-- the fields of an object as compact JSON, without the braces -/
def jsonOfFields : List (String × Value) → List Char
  | [] => []
  | [(k, v)] => quote k.toList ++ ':' :: v.json
  | (k, v) :: f :: fs => quote k.toList ++ ':' :: v.json ++ ',' :: jsonOfFields (f :: fs)

end

mutual

/-- a value as compact JSON, in the parts in which it is put down: those of its texts, its other plain values, and the
marks between them -/
def jsonParts : Value → List (List Char)
  | text s => quoteParts s.toList
  | map fields => ['{'] :: jsonPartsOfFields fields ++ [['}']]
  | v => [v.json]

/-- the fields of an object in such parts, without the braces -/
def jsonPartsOfFields : List (String × Value) → List (List Char)
  | [] => []
  | [(k, v)] => quoteParts k.toList ++ [':'] :: v.jsonParts
  | (k, v) :: f :: fs => quoteParts k.toList ++ [':'] :: v.jsonParts ++ [','] :: jsonPartsOfFields (f :: fs)

end

mutual

/-- the parts of a value make up its JSON -/
@[simp] theorem flatten_jsonParts (v : Value) : v.jsonParts.flatten = v.json := by
  cases v with
  | map fields => simp [jsonParts, json, flatten_jsonPartsOfFields fields]
  | _ => simp [jsonParts, json]

theorem flatten_jsonPartsOfFields (fs : List (String × Value)) :
    (jsonPartsOfFields fs).flatten = jsonOfFields fs := by
  match fs with
  | [] => rfl
  | [(k, v)] => simp [jsonPartsOfFields, jsonOfFields, flatten_jsonParts v]
  | (k, v) :: f :: fs =>
    simp [jsonPartsOfFields, jsonOfFields, flatten_jsonParts v, flatten_jsonPartsOfFields (f :: fs)]

end

/-- a value as shown alone -/
def shown : Value → String
  | text s => s
  | int n => toString n.toInt
  | float x => Decimal.shown.render x
  | bool b => if b then "true" else "false"
  | map fields => String.ofList (map fields).json
  | null => "null"

mutual

/-- equal as values: numbers compare as numbers, and a whole number is no floating-point number -/
def same : Value → Value → Bool
  | text s, text t => s == t
  | int m, int n => m == n
  | float x, float y => x.same y
  | bool a, bool b => a == b
  | map f, map g => sameFields f g
  | null, null => true
  | _, _ => false

/-- equal keys with equal values, in the same order -/
def sameFields : List (String × Value) → List (String × Value) → Bool
  | [], [] => true
  | (k, v) :: f, (l, w) :: g => k == l && v.same w && sameFields f g
  | _, _ => false

end

end Value

namespace Payload

def empty : Payload := ⟨[]⟩

/-- fields in the order of their keys, with one key set to a value -/
def put (key : String) (value : Value) : List (String × Value) → List (String × Value)
  | [] => [(key, value)]
  | (k, v) :: fs =>
    if k = key then (key, value) :: fs
    else if Text.before key k then (key, value) :: (k, v) :: fs
    else (k, v) :: put key value fs

/-- the payload with one key set to a value -/
def insert (p : Payload) (key : String) (value : Value) : Payload := ⟨put key value p.fields⟩

/-- the payload of a list of fields; of a repeated key the last value counts -/
def ofList (fs : List (String × Value)) : Payload := fs.foldl (fun p f => p.insert f.1 f.2) empty

def get? (p : Payload) (key : String) : Option Value := p.fields.lookup key

def size (p : Payload) : Nat := p.fields.length

def isEmpty (p : Payload) : Bool := p.fields.isEmpty

def json (p : Payload) : List Char := (Value.map p.fields).json

/-- the payload as compact JSON, in the parts in which it is put down -/
def jsonParts (p : Payload) : List (List Char) := (Value.map p.fields).jsonParts

@[simp] theorem flatten_jsonParts (p : Payload) : p.jsonParts.flatten = p.json := Value.flatten_jsonParts _

def text (p : Payload) : String := String.ofList p.json

def same (p q : Payload) : Bool := Value.sameFields p.fields q.fields

end Payload

/-! ## Reading -/

namespace Value

/-- the value of a number: whole where it fits in 64 bits with a sign -/
def ofNumber : Number → Value
  | .natural n => if n < Nat.pow 2 63 then int (Int64.ofInt n) else float ((Double.ofNat? n).getD Double.zero)
  | .negative n => int (Int64.ofInt (-(n : Int)))
  | .float x => float x

def ofScalar : Scalar → Value
  | .null => null
  | .bool b => bool b
  | .number n => ofNumber n
  | .text s => text s

mutual

/-- the value of a tree without faults; none when it holds an array -/
def ofTree? : Tree → Option Value
  | .scalar v _ => some (ofScalar v)
  | .array _ _ _ => none
  | .object _ entries _ => (ofEntries? entries).map fun fs => map (Payload.ofList fs).fields
  | .flawed _ => none
  | .broken _ => none

/-- the fields of an object without faults; none when one of them holds an array -/
def ofEntries? : List (Key × Tree) → Option (List (String × Value))
  | [] => some []
  | (k, t) :: es => do
    let v ← ofTree? t
    let fs ← ofEntries? es
    let key ← k.text.toOption
    return (key, v) :: fs

end

/-- a value, when `depth` more containers may be opened: it is read whole before it is looked at -/
def read (depth : Nat) (t : Tree) : Except Objection Value :=
  match t.fault? depth with
  | some f => refuse f
  | none =>
    match ofTree? t with
    | some v => .ok v
    | none => unsuitable .notAValue

def ofJson (s : List Char) : Except Refusal Value := Json.ofText (read depthLimit) s

end Value

namespace Payload

/-- one entry of the object that holds a payload -/
def readEntry (p : Payload) (e : Key × Tree) : Except Objection Payload :=
  match e.1.text with
  | .error f => refuse f
  | .ok key =>
    ((Value.read (depthLimit - 1) e.2).mapError (·.noticedAt (leaveObject e.2.rest))).map (p.insert key ·)

/-- a payload: the entries of an object, each read before the next is looked at -/
def read : Tree → Except Objection Payload
  | .object _ entries stop => do
    let p ← entries.foldlM readEntry empty
    Tree.closed stop
    return p
  | t => t.unexpected .map

/-- a payload from a JSON text -/
def ofJson (s : List Char) : Except Refusal Payload := Json.ofText read s

end Payload
end LogRelay
