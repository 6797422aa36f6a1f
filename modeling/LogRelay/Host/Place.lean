/-
The files and directories that stand on every host.

`Place.find` follows a path through them, one part after the other: an empty part and a point stay where they are, two
points go up, and a name goes down. Only a directory can be gone on from.
-/
import LogRelay.Text.Split

namespace LogRelay

inductive Place where
  | file
  | directory (entries : List (String × Place))
  deriving Repr, Inhabited

namespace Place

/-- why nothing stands at a path -/
inductive Absence where
  | missing
  | notDirectory
  deriving DecidableEq, Repr

/-- a directory in which nothing is known -/
def blank : Place := directory []

def files (names : List String) : Place := directory (names.map (·, file))

/-- where relative paths begin -/
def workplace : String × Place := ("tmp", blank)

def root : Place := directory [
  ("bin", files ["sh"]), ("boot", blank),
  ("dev", directory ([("pts", blank), ("shm", blank)]
    ++ ["full", "null", "random", "tty", "urandom", "zero"].map (·, file))),
  ("etc", files ["group", "hostname", "hosts", "passwd", "resolv.conf"]), ("home", blank), ("lib", blank),
  ("lib64", blank), ("media", blank), ("mnt", blank), ("opt", blank), ("proc", files ["meminfo", "version"]),
  ("root", blank), ("run", blank), ("sbin", blank), ("srv", blank), ("sys", blank), workplace,
  ("usr", directory (["bin", "lib", "local", "sbin", "share"].map (·, blank))),
  ("var", directory (["lib", "log", "tmp"].map (·, blank)))]

/-- what stands where the parts of a path lead from a place; `above` holds the directories over it, the nearest first -/
def follow (above : List Place) (here : Place) : List (List Char) → Except Absence Place
  | [] => .ok here
  | p :: ps =>
    match here with
    | file => .error .notDirectory
    | directory entries =>
      if p.isEmpty || p == ".".toList then follow above here ps
      else if p == "..".toList then
        match above with
        | [] => follow [] here ps
        | d :: ds => follow ds d ps
      else
        match entries.lookup (String.ofList p) with
        | some d => follow (here :: above) d ps
        | none => .error .missing

/-- what stands at a path -/
def find (path : String) : Except Absence Place :=
  let parts := Text.split ['/'] path.toList
  if path.startsWith "/" then follow [] root parts else follow [root] workplace.2 parts

end Place
end LogRelay
