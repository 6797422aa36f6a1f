/-
A JSON text as far as it can be read.

`Tree` is the value a text begins with. Where the text stops being JSON the tree is broken off: a value in it is
`broken`, or a container stops before it is closed. What was read before the break is kept, because a reader that goes
from left to right may object to it before it comes to the break.

A value that is wanted must meet more than one that is passed over: its texts have paired surrogates, its numbers are in
range, and no more than `depthLimit` containers are open. `Tree.fault?` is the first fault of a tree that is wanted
whole, `Tree.gap?` that of a tree that is passed over.
-/
import LogRelay.Json.Fault
import LogRelay.Json.Numeral

namespace LogRelay.Json

/-- a value without parts -/
inductive Scalar where
  | null
  | bool (b : Bool)
  | number (n : Number)
  | text (s : String)
  deriving DecidableEq, Repr

/-- where a value stands: the text from its first character on, and what follows it -/
structure Extent where
  start : List Char
  rest : List Char
  deriving DecidableEq, Repr

/-- a key as read: its text, if the surrogates in it have their partners, and what follows it -/
structure Key where
  text : Except Fault String
  rest : List Char
  deriving Repr

/-- a JSON value as read; nothing follows a container that is not closed -/
inductive Tree where
  | scalar (v : Scalar) (place : Extent)
  | array (place : Extent) (items : List Tree) (stop : Option Break)
  | object (place : Extent) (entries : List (Key × Tree)) (stop : Option Break)
  /-- a value that can only be passed over -/
  | flawed (f : Fault)
  | broken (b : Break)
  deriving Repr

/-- how many containers may be open at once -/
def depthLimit : Nat := 127

namespace Tree

/-- what follows a tree that is a whole value -/
def rest : Tree → List Char
  | scalar _ e => e.rest
  | array e _ _ => e.rest
  | object e _ _ => e.rest
  | flawed _ => []
  | broken _ => []

mutual

/-- the first fault of a tree that is wanted whole, when `depth` more containers may be opened -/
def fault? (depth : Nat) : Tree → Option Fault
  | scalar _ _ => none
  | array e items stop =>
    match depth with
    | 0 => some (.next .tooDeep e.start)
    | depth + 1 => (faultOfItems? depth items).or (stop.map (·.wanted))
  | object e entries stop =>
    match depth with
    | 0 => some (.next .tooDeep e.start)
    | depth + 1 => (faultOfEntries? depth entries).or (stop.map (·.wanted))
  | flawed f => some f
  | broken b => some b.wanted

/-- the first fault among the items of an array -/
def faultOfItems? (depth : Nat) : List Tree → Option Fault
  | [] => none
  | t :: ts => (t.fault? depth).or (faultOfItems? depth ts)

/-- the first fault among the entries of an object, keys included -/
def faultOfEntries? (depth : Nat) : List (Key × Tree) → Option Fault
  | [] => none
  | (k, t) :: es =>
    match k.text with
    | .error f => some f
    | .ok _ => (t.fault? depth).or (faultOfEntries? depth es)

end

mutual

/-- the first fault of a tree that is passed over -/
def gap? : Tree → Option Fault
  | scalar _ _ => none
  | array _ items stop => (gapOfItems? items).or (stop.map (·.skipped))
  | object _ entries stop => (gapOfEntries? entries).or (stop.map (·.skipped))
  | flawed _ => none
  | broken b => some b.skipped

/-- the first fault among the items of an array that is passed over -/
def gapOfItems? : List Tree → Option Fault
  | [] => none
  | t :: ts => t.gap?.or (gapOfItems? ts)

/-- the first fault among the entries of an object that is passed over -/
def gapOfEntries? : List (Key × Tree) → Option Fault
  | [] => none
  | (_, t) :: es => t.gap?.or (gapOfEntries? es)

end

end Tree
end LogRelay.Json
