/-
A host that log records are sent from: the local sockets that listen on it, and its standard output.

There is no route from the host to any network, so of all sockets only local ones can be reached; `Host.unreached`
says what comes of the attempt to reach another. A stream keeps one text for each connection made to it, a datagram
socket one for each datagram; either may be full, and then takes no more. `Host.send` hands a datagram to a path,
`Host.reach` finds the socket a connection is made to.
-/
import LogRelay.Address
import LogRelay.Failure
import LogRelay.Host.Place
import LogRelay.Text.Octets

namespace LogRelay

/-- how a local socket takes octets -/
inductive Shape where
  | stream
  | datagram
  deriving DecidableEq, Repr, Inhabited

/-- a local socket that listens -/
structure Listener where
  shape : Shape
  /-- the texts of the connections, or the datagrams, the first first -/
  received : List Octets := []
  isFull : Bool := false
  deriving DecidableEq, Repr, Inhabited

/-- a host: its local sockets by path, and what reached its standard output -/
structure Host where
  listeners : List (String × Listener) := []
  output : Octets := []
  deriving DecidableEq, Repr, Inhabited

namespace Host

/-! ## Failures of the system -/

def notFound : IoFailure := ⟨.notFound, "No such file or directory (os error 2)"⟩

def wouldBlock : IoFailure := ⟨.wouldBlock, "Resource temporarily unavailable (os error 11)"⟩

def brokenPipe : IoFailure := ⟨.brokenPipe, "Broken pipe (os error 32)"⟩

def wrongShape : IoFailure := ⟨.other, "Protocol wrong type for socket (os error 91)"⟩

def noRoute : IoFailure := ⟨.other, "Network is unreachable (os error 101)"⟩

def noSource : IoFailure := ⟨.addressUnavailable, "Cannot assign requested address (os error 99)"⟩

def invalid : IoFailure := ⟨.other, "Invalid argument (os error 22)"⟩

def refused : IoFailure := ⟨.connectionRefused, "Connection refused (os error 111)"⟩

def notDirectory : IoFailure := ⟨.other, "Not a directory (os error 20)"⟩

/-- a path or an address that cannot be used -/
def unusable (text : String) : IoFailure := ⟨.other, text⟩

/-! ## Listening -/

/-- how many octets a path and the null after it may have together -/
def pathSize : Nat := 108

/-- why a path cannot be that of a socket, if it cannot -/
def badPath? (path : String) : Option IoFailure :=
  if path.toList.contains '\x00' then some (unusable "paths must not contain interior null bytes")
  else if pathSize ≤ path.utf8ByteSize then some (unusable "path must be shorter than SUN_LEN")
  else none

def listener? (h : Host) (path : String) : Option Listener := h.listeners.lookup path

def setListener (h : Host) (path : String) (l : Option Listener) : Host :=
  { h with listeners := (l.map fun l => (path, l)).toList ++ h.listeners.filter fun x => x.1 != path }

/-- a socket listens at a path, with nothing received -/
def listen (h : Host) (path : String) (shape : Shape) : Host := h.setListener path (some { shape := shape })

def unlisten (h : Host) (path : String) : Host := h.setListener path none

/-- the socket at a path is filled by others -/
def fill (h : Host) (path : String) : Host :=
  h.setListener path ((h.listener? path).map fun l => { l with isFull := true })

/-- what the socket at a path holds is taken from it -/
def drain (h : Host) (path : String) : Option (List Octets) × Host :=
  match h.listener? path with
  | some l => (some l.received, h.setListener path (some { l with received := [], isFull := false }))
  | none => (none, h)

/-! ## Reaching a socket -/

/-- why no socket is at a path: nothing is there, or what is there is none -/
def absence (path : String) : IoFailure :=
  match Place.find path with
  | .ok _ => refused
  | .error .missing => notFound
  | .error .notDirectory => notDirectory

/-- the socket of a shape at a path -/
def reach (h : Host) (path : String) (shape : Shape) : Except IoFailure Listener :=
  match badPath? path with
  | some f => .error f
  | none =>
    match h.listener? path with
    | none => .error (absence path)
    | some l => if l.shape = shape then .ok l else .error wrongShape

/-- a connection is made to the stream at a path: the number of its text there -/
def connect (h : Host) (path : String) : Except IoFailure Nat × Host :=
  match h.reach path .stream with
  | .error f => (.error f, h)
  | .ok l => (.ok l.received.length, h.setListener path (some { l with received := l.received ++ [[]] }))

/-- octets are sent on a connection to the stream at a path -/
def stream (h : Host) (path : String) (number : Nat) (text : Octets) : Except IoFailure Nat × Host :=
  match h.reach path .stream with
  | .error _ => (.error brokenPipe, h)
  | .ok l =>
    if l.isFull then (.error wouldBlock, h)
    else (.ok text.length, h.setListener path (some { l with received := l.received.modify number (· ++ text) }))

/-- a datagram is sent to a path -/
def send (h : Host) (path : String) (text : Octets) : Except IoFailure Nat × Host :=
  match h.reach path .datagram with
  | .error f => (.error f, h)
  | .ok l =>
    if l.isFull then (.error wouldBlock, h)
    else (.ok text.length, h.setListener path (some { l with received := l.received ++ [text] }))

/-- why a socket of a shape cannot reach a host on a network: the fourth version has no route, and the sixth no
address to send from; an address of one link needs its zone, and no stream goes to many hosts -/
def unreached (shape : Shape) : Inet → IoFailure
  | .v4 _ => noRoute
  | .v6 groups zone =>
    if Inet.isMapped groups then noRoute
    else if Inet.isMulticast groups && shape = .stream then noRoute
    else if zone = 0 && Inet.isOfOneLink groups then invalid
    else noSource

def print (h : Host) (text : Octets) : Host := { h with output := h.output ++ text }

end Host
end LogRelay
