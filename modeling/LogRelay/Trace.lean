/-
The frames of a stack trace and the choice of the caller among them.

`parse` reads the lines of a trace: a line with a number, a colon and a symbol begins a frame, and a line
`at path:line` places the frame before it. `select` passes over the frames of the runtime and of the relay itself up
to the first that belongs to neither, steps over `skip` frames more, and takes the first frame from there that is
neither internal nor in a package to be stepped over; when there is none it takes the first.
-/
import LogRelay.Text.Blank
import LogRelay.Text.Natural
import LogRelay.Text.Split

namespace LogRelay

/-- the name the relay goes by, in symbols and on standard error -/
def relayName : String := "rust_log_transport"

/-- one frame: the symbol, and the path and line if they are known -/
structure Frame where
  symbol : List Char
  location : Option (List Char × Nat) := none
  deriving DecidableEq, Repr, Inhabited

/-- who made a logging call -/
structure Caller where
  /-- the module of the calling function -/
  component : List Char
  /-- the file name and the line -/
  fileLine : List Char
  deriving DecidableEq, Repr

namespace Trace

open Text

/-! ## Parsing -/

/-- a line or column: a number of 32 bits -/
def number? (s : List Char) : Option Nat := natural? UInt32.size s

/-- the path and line of `path:line:column` or `path:line` -/
def location? (s : List Char) : Option (List Char × Nat) := do
  let (rest, last) ← breakLast? [':'] (trim s)
  let last ← number? last
  match breakLast? [':'] rest with
  | some (path, line) =>
    match number? line with
    | some line => return (path, line)
    | none => return (rest, last)
  | none => return (rest, last)

/-- the frames with the last one placed, unless it has a place already -/
def place (s : List Char) : List Frame → List Frame
  | [] => []
  | f :: fs => (if f.location.isNone then { f with location := location? s } else f) :: fs

/-- the frames after one more line; the last frame comes first -/
def readLine (frames : List Frame) (line : List Char) : List Frame :=
  let line := trimStart line
  match afterPrefix? "at ".toList line with
  | some s => place s frames
  | none =>
    match breakAt? ": ".toList line with
    | some (index, symbol) =>
      if !index.isEmpty && index.all Char.isDigit then ⟨trim symbol, none⟩ :: frames else frames
    | none => frames

def parse (trace : List Char) : List Frame := ((lines trace).foldl readLine []).reverse

/-! ## Symbols -/

/-- a symbol without the hash it may end in: `::h` and sixteen hexadecimal digits -/
def withoutHash (symbol : List Char) : List Char :=
  match breakLast? "::h".toList symbol with
  | some (head, hash) =>
    if hash.length = 16 && hash.all fun c => c.isDigit || ('a' ≤ c && c ≤ 'f') || ('A' ≤ c && c ≤ 'F') then head
    else symbol
  | none => symbol

/-- a symbol up to the first place where `sep` stands -/
def upTo? (sep s : List Char) : Option (List Char) := (breakAt? sep s).map (·.1)

/-- the path of a symbol: the hash removed, a qualified type taken out of its brackets, generic arguments cut off -/
def path (symbol : List Char) : List Char :=
  let s := match withoutHash symbol with
    | '<' :: inner => ((upTo? " as ".toList inner).or (upTo? ['>'] inner)).getD inner
    | s => s
  (upTo? ['<'] s).getD s

/-- whether a symbol is a method of a type in brackets -/
def isQualified (symbol : List Char) : Bool := (withoutHash symbol).head? = some '<'

/-- a segment that names part of the path: neither empty nor a closure -/
def isNamed (s : List Char) : Bool :=
  match s with
  | [] => false
  | c :: _ => c != '{'

/-- a segment that names a type -/
def isType (s : List Char) : Bool :=
  match s with
  | [] => false
  | c :: _ => 'A' ≤ c && c ≤ 'Z'

/-- the module of a symbol: its path without function, closures and types -/
def component (symbol : List Char) : List Char :=
  let segments := (split "::".toList (path symbol)).filter isNamed
  let segments := if !isQualified symbol && segments.length > 1 then segments.dropLast else segments
  "::".toList.intercalate (segments.filter fun s => !isType s)

/-- the roots of the runtime -/
def runtimeRoots : List String := ["std::", "core::", "alloc::", "backtrace::", "std_detect::", "__rust"]

/-- the modules of the relay that stand between a caller and the place where the stack is taken -/
def ownModules : List String :=
  ["core::caller", "core::event", "core::format", "core::logger", "core::transport", "core::collector"]

def occurs (p s : List Char) : Bool := (breakAt? p s).isSome

/-- whether a path is a module or lies below it -/
def isWithin (module path : List Char) : Bool :=
  match afterPrefix? module path with
  | some tail => tail.isEmpty || "::".toList.isPrefixOf tail
  | none => false

/-- whether a symbol belongs to the runtime or to the relay itself -/
def isInternal (symbol : List Char) : Bool :=
  if "<unknown>".toList.isPrefixOf symbol then true
  else
    let p := path symbol
    if runtimeRoots.any fun r => r.toList.isPrefixOf p then true
    else
      match afterPrefix? (relayName ++ "::").toList p with
      | some rest => !occurs "::tests".toList rest && ownModules.any fun m => isWithin m.toList rest
      | none => false

/-- whether a module is one of the packages to be stepped over, or lies in one -/
def isSkipped (component : List Char) (packages : List String) : Bool :=
  packages.any fun p => isWithin p.toList component

/-! ## The caller -/

/-- the file name of a path, and a line -/
def fileLine (path : List Char) (line : Nat) : List Char :=
  (path.reverse.takeWhile fun c => c != '/' && c != '\\').reverse ++ ':' :: (toString line).toList

/-- the caller a frame stands for -/
def callerOf (f : Frame) : Caller :=
  ⟨component f.symbol, match f.location with
    | some (path, line) => fileLine path line
    | none => []⟩

def isEligible (eventSkips configSkips : List String) (f : Frame) : Bool :=
  !isInternal f.symbol && !isSkipped (component f.symbol) eventSkips && !isSkipped (component f.symbol) configSkips

/-- the place from which frames are looked at; places are counted in 64 bits -/
def start (first skip : Nat) : Nat := (first + skip) % UInt64.size

/-- the caller among the frames of a trace -/
def select (frames : List Frame) (skip : Nat) (eventSkips configSkips : List String) : Option Caller := do
  let first ← frames.findIdx? fun f => !isInternal f.symbol
  let candidates := frames.drop (start first skip)
  let fallback ← candidates.head?
  return callerOf ((candidates.find? (isEligible eventSkips configSkips)).getD fallback)

end Trace
end LogRelay
