import PeerMesh.Wire

/-! What carries messages from node to node. A node opens one mailbox for each of its peers and
puts messages into it; what arrives elsewhere is handed to the receiving node together with the
routing id under which the mailbox was opened. -/

namespace PeerMesh
set_option autoImplicit false

inductive ConnectError
  | invalidEndpoint (endpoint : String)
  | unreachable (endpoint : String)
  deriving DecidableEq

def ConnectError.message : ConnectError → String
  | invalidEndpoint endpoint => "invalid endpoint " ++ Text.quoted endpoint
  | unreachable endpoint => "endpoint " ++ endpoint ++ " unreachable"

inductive SendError
  /-- The queue is full: the peer does not keep up. -/
  | wouldBlock
  | disconnected
  | encode (error : Wire.EncodeError)
  | oversized
  deriving DecidableEq

namespace SendError

def message : SendError → String
  | wouldBlock => "send would block"
  | disconnected => "mailbox disconnected"
  | encode error => "cannot encode message: " ++ error.message
  | oversized => "message too large for transport"

/-- Whether the peer behind the mailbox can no longer be reached. The other errors reject one
message and leave the connection as it was. -/
def isFatal : SendError → Bool
  | wouldBlock | disconnected => true
  | encode _ | oversized => false

end SendError

abbrev SendResult := Except SendError Unit

def SendResult.isFatal : SendResult → Bool
  | .error e => e.isFatal
  | .ok _ => false

/-- A carriage in state `κ` whose mailboxes are named by `μ`. Connecting and sending may answer
anything and never wait. -/
class Carriage (κ : Type) (μ : outParam Type) where
  connect : κ → List UInt8 → String → Except ConnectError μ × κ
  send : κ → μ → Content → SendResult × κ

end PeerMesh
