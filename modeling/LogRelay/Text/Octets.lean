/-
Text as the octets of its UTF-8 form.

A character has one to four octets; all but the first are continuation octets. `cut s n` keeps at most `n` octets of `s`
and goes back over continuation octets, so that what it keeps ends where a character ends. Text order is the order of
the octets, first difference first.
-/
namespace LogRelay

/-- text in its UTF-8 form -/
abbrev Octets := List UInt8

namespace Text

/-- the octets of a text, character by character -/
def octets (cs : List Char) : Octets := cs.flatMap String.utf8EncodeChar

def octetsOf (s : String) : Octets := octets s.toList

/-- an octet that goes on with a character begun before it -/
def isContinuation (b : UInt8) : Bool := b &&& 0xC0 == 0x80

/-- the last place at or before `n` at which no character of `s` is split -/
def boundary (s : Octets) : Nat → Nat
  | 0 => 0
  | n + 1 => if (s[n + 1]?).any isContinuation then boundary s n else n + 1

/-- the most of `s` that fits in `n` octets and splits no character -/
def cut (s : Octets) (n : Nat) : Octets := s.take (boundary s n)

/-- the string with these octets; a replacement character stands for octets that are no text -/
def ofOctets (s : Octets) : String := (String.fromUTF8? ⟨s.toArray⟩).getD "\ufffd"

/-- text order: the octets decide, first difference first, and a beginning comes before the whole -/
def before (a b : String) : Bool := octetsOf a < octetsOf b

theorem octets_append (a b : List Char) : octets (a ++ b) = octets a ++ octets b := by
  simp [octets]

@[simp] theorem octets_nil : octets [] = [] := rfl

theorem boundary_le (s : Octets) (n : Nat) : boundary s n ≤ n := by
  induction n with
  | zero => simp [boundary]
  | succ n ih => unfold boundary; split <;> omega

theorem cut_length_le (s : Octets) (n : Nat) : (cut s n).length ≤ n := by
  have := boundary_le s n
  simp only [cut, List.length_take]
  omega

end Text
end LogRelay
