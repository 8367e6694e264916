import PeerMesh.Engine.Station
import PeerMesh.Tcp.Address

/-! Beacons: the datagrams by which nodes of a local network find each other. A beacon is the
letters `ZRE`, a version byte 1, the identity of the node and the number of its inbox port, high
byte first; port 0 says that the node is leaving. -/

namespace PeerMesh
set_option autoImplicit false

structure Beacon where
  peer : PeerId
  /-- The port of the node's inbox; 0 if the node is leaving. -/
  port : UInt16
  deriving DecidableEq

namespace Beacon

/-- The bytes that open every beacon. -/
def opening : List UInt8 := [0x5a, 0x52, 0x45, 0x01]

def size : Nat := 22

/-- The most bytes of a datagram that are looked at. -/
def bufferSize : Nat := 512

inductive DecodeError
  | wrongSize (bytes : Nat)
  | badPrefix
  deriving DecidableEq

def DecodeError.message : DecodeError → String
  | wrongSize bytes => "beacon is " ++ toString bytes ++ " bytes, expected " ++ toString size
  | badPrefix => "not a ZRE beacon"

def encode (b : Beacon) : List UInt8 := opening ++ b.peer.bytes ++ Wire.ofUInt16 b.port

def decode (bytes : List UInt8) : Except DecodeError Beacon :=
  if bytes.length ≠ size then .error (.wrongSize bytes.length)
  else if bytes.take 4 ≠ opening then .error .badPrefix
  else
    match PeerId.ofBytes? ((bytes.drop 4).take 16), bytes.drop 20 with
    | some peer, [hi, lo] => .ok ⟨peer, hi.toUInt16 <<< 8 ||| lo.toUInt16⟩
    | _, _ => .error (.wrongSize bytes.length)

/-- What a node makes of a datagram from an address: the sighting of another node, or nothing if
the datagram is no beacon or the node's own. -/
def sighting? (self : PeerId) (source : Tcp.IPv4) (datagram : List UInt8) : Option Sighting :=
  match decode (datagram.take bufferSize) with
  | .error _ => none
  | .ok b =>
    if b.peer = self then none
    else if b.port = 0 then some (.lost b.peer)
    else some (.found b.peer (Tcp.SocketAddress.endpoint ⟨.v4 source, 0, b.port⟩))

end Beacon
end PeerMesh
