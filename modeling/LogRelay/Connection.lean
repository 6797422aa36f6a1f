/-
Connections by the kind of the network and an address.

`Connection.dial` opens one: without a network or an address it is standard output, else a local socket or a network
socket of the kind named, and a kind that is not known is refused. A record goes out whole: a stream takes all its
octets, a datagram socket one datagram.
-/
import LogRelay.Datagram
import LogRelay.Host

namespace LogRelay

inductive Connection where
  /-- standard output -/
  | output
  /-- a connection to a local stream, with its number there -/
  | stream (path : String) (number : Nat) (isOpen : Bool)
  /-- a datagram socket bound to a path, which waits for the receiver -/
  | datagrams (path : String) (isOpen : Bool)
  /-- a sender of datagrams to a path, which does not wait -/
  | sender (path : String) (state : Datagram)
  deriving DecidableEq, Repr, Inhabited

namespace Connection

def name : Connection → String
  | output => "stdout"
  | stream _ _ _ => "unix"
  | datagrams _ _ => "unixgram"
  | sender _ _ => "unixgram_nonblocking"

/-- the shape of a kind of network socket, and the family it is bound to, or none if it may have either; nothing for
other kinds -/
def inetKind? : String → Option (Shape × Option Family)
  | "tcp" => some (.stream, none)
  | "tcp4" => some (.stream, some .v4)
  | "tcp6" => some (.stream, some .v6)
  | "udp" => some (.datagram, none)
  | "udp4" => some (.datagram, some .v4)
  | "udp6" => some (.datagram, some .v6)
  | _ => none

/-- why a network socket cannot be reached: its address is flawed, or else its host is out of reach -/
def inetFailure (shape : Shape) (only : Option Family) (address : String) : IoFailure :=
  match Address.find only address with
  | .error .wrongFamily => ⟨.addressUnavailable, Address.Flaw.wrongFamily.message⟩
  | .error f => Host.unusable f.message
  | .ok a => Host.unreached shape a

/-- a connection of a kind to an address -/
def dial (policy : Backoff) (h : Host) (network address : String) : Except Failure Connection × Host :=
  if network.isEmpty || address.isEmpty then (.ok output, h)
  else
    match network, inetKind? network with
    | "unixgram_nonblocking", _ => (.ok (sender address { policy := policy }), h)
    | "unixgram", _ =>
      match h.reach address .datagram with
      | .ok _ => (.ok (datagrams address true), h)
      | .error f => (.error (.connect network address f), h)
    | "unix", _ =>
      match h.connect address with
      | (.ok number, h) => (.ok (stream address number true), h)
      | (.error f, h) => (.error (.connect network address f), h)
    | _, some (shape, only) => (.error (.connect network address (inetFailure shape only address)), h)
    | _, none => (.error (.invalidConfiguration "network" ("unsupported network '" ++ network ++ "'")), h)

/-- the answer of a socket as the answer to a write -/
def answer : Except IoFailure Nat → Except Failure Nat
  | .ok n => .ok n
  | .error f => .error (.write f)

def write (c : Connection) (h : Host) (text : Octets) : Except Failure Nat × Connection × Host :=
  match c with
  | output => (.ok text.length, output, h.print text)
  | stream path number isOpen =>
    if text.isEmpty then (.ok 0, c, h)
    else if isOpen then
      let (r, h) := h.stream path number text
      (answer r, c, h)
    else (.error (.write Host.brokenPipe), c, h)
  | datagrams path isOpen =>
    if isOpen then
      let (r, h) := h.send path text
      (answer r, c, h)
    else (.error (.write Host.brokenPipe), c, h)
  | sender path d =>
    let (r, d, h) := d.write (fun h => Host.send h path text) h
    (r, sender path d, h)

/-- the connection is closed; a second close does nothing -/
def close : Connection → Connection
  | output => output
  | stream path number _ => stream path number false
  | datagrams path _ => datagrams path false
  | sender path d => sender path d.close

end Connection
end LogRelay
