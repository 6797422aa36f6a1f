/-
Fields written against a budget of octets.

Every field owns one octet of the budget; the rest, the slack, is shared in the order of the fields. What no longer fits
is cut where a character ends, and the record is marked as truncated. An escape is written whole or not at all; one that
does not fit uses up the slack.
-/
import LogRelay.Text.Octets

namespace LogRelay.Record

open Text

/-- a part of a field: text that may be cut, or an escape that may not -/
inductive Piece where
  | run (s : List Char)
  | whole (s : List Char)
  deriving DecidableEq, Repr

/-- the pieces of one field -/
abbrev Field := List Piece

/-- the characters of a piece -/
def Piece.chars : Piece → List Char
  | run s => s
  | whole s => s

/-- a field written in full -/
def fullText (f : Field) : List Char := f.flatMap Piece.chars

/-- what is left to write with -/
structure Budget where
  /-- the octets left for all fields together -/
  slack : Nat
  /-- the octets already written to the field at hand -/
  written : Nat
  truncated : Bool
  deriving DecidableEq, Repr

namespace Budget

/-- the octet a field owns, while nothing is written to it -/
def reserved (b : Budget) : Nat := if b.written = 0 then 1 else 0

/-- the octets that may be written to the field at hand -/
def allowance (b : Budget) : Nat := b.slack + b.reserved

/-- text that may be cut: what is written of it, and the budget after it -/
def push (b : Budget) (s : Octets) : Octets × Budget :=
  let kept := cut s b.allowance
  let truncated := b.truncated || b.allowance < s.length
  if kept.isEmpty then (kept, { b with truncated := truncated })
  else (kept, ⟨b.slack - (kept.length - min b.reserved kept.length), b.written + kept.length, truncated⟩)

/-- text that may not be cut -/
def pushWhole (b : Budget) (s : Octets) : Octets × Budget :=
  if b.allowance < s.length then ([], { b with slack := 0, truncated := true }) else b.push s

def piece (b : Budget) : Piece → Octets × Budget
  | .run s => b.push (octets s)
  | .whole s => b.pushWhole (octets s)

/-- the pieces of a field, in order: what is written of each -/
def pieces (b : Budget) : List Piece → List Octets × Budget
  | [] => ([], b)
  | p :: ps =>
    let (s, b) := b.piece p
    let (ss, b) := b.pieces ps
    (s :: ss, b)

/-- one field, with its own octet: what is written of each piece -/
def field (b : Budget) (f : Field) : List Octets × Budget := { b with written := 0 }.pieces f

/-- the fields of a record, in order: what is written of each piece of each -/
def fields (b : Budget) : List Field → List (List Octets) × Budget
  | [] => ([], b)
  | f :: fs =>
    let (s, b) := b.field f
    let (ss, b) := b.fields fs
    (s :: ss, b)

end Budget
end LogRelay.Record
