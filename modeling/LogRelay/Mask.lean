/-
Passwords in request data.

Where `password=` is followed by a character that is neither an ampersand nor blank, the longest run of such
characters is a password, and a fixed text takes its place. Everything else stays.
-/
import LogRelay.Text.Blank

namespace LogRelay.Mask

/-- what stands before a password -/
def key : List Char := "password=".toList

/-- what takes the place of a password -/
def hidden : List Char := "<HIDDEN_BY_SECURITY_FILTER>".toList

/-- whether a character may be part of a password -/
def isSecret (c : Char) : Bool := c != '&' && !Text.isBlank c

/-- whether a text begins with the key and a password -/
def startsSecret (s : List Char) : Bool :=
  key.isPrefixOf s && (match s.drop key.length with
    | [] => false
    | c :: _ => isSecret c)

/-- the text with the passwords in it hidden; `k` characters belong to a key already found, and `inside` says that a
password follows them -/
def maskFrom : Nat → Bool → List Char → List Char
  | _, _, [] => []
  | k + 1, inside, _ :: r => maskFrom k inside r
  | 0, inside, c :: r =>
    if inside && isSecret c then maskFrom 0 true r
    else if startsSecret (c :: r) then key ++ hidden ++ maskFrom (key.length - 1) true r
    else c :: maskFrom 0 false r

/-- the text with the passwords in it hidden -/
def mask (s : List Char) : List Char := maskFrom 0 false s

end LogRelay.Mask
