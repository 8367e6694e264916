import PeerMesh.Carriage
import PeerMesh.Identity
import PeerMesh.Log

/-! What a node notes down while it works, beside the events it reports to its application. A note
is a cause with its data; its wording for the log is fixed here and nowhere else. -/

namespace PeerMesh
set_option autoImplicit false

inductive Note
  | mailboxOpened (peer : PeerId) (endpoint : String)
  | mailboxClosed (peer : PeerId) (endpoint : String)
  | cannotEncode (peer : PeerId) (command : Command) (error : Wire.EncodeError)
  | sending (peer : PeerId) (name : String) (command : Command) (sequence : UInt16)
  | rejected (peer : PeerId) (command : Command) (error : SendError)
  | sendFailed (peer : PeerId) (name : String) (error : SendError)
  | received (peer : PeerId) (name : String) (command : Command) (sequence : UInt16)
  | sequenceError (peer : PeerId) (name : String) (expected found : UInt16)
  | memberUnreached (group : String) (peer : PeerId) (error : SendError)
  | joining (node group : String) (status : UInt8)
  | leaving (node group : String) (status : UInt8)
  | whisperDropped (peer : PeerId)
  | shoutDropped (group : String)
  | shuttingDown (node : String) (peers : Nat)
  | discoveryLost (peer : PeerId)
  | malformed (error : Wire.DecodeError)
  | badRoutingId (length : Nat)
  | greetedAgain (peer : PeerId)
  | unready (peer : PeerId) (command : Command)
  | lostMessages (peer : PeerId)
  | expired (peer : PeerId) (name : String)
  | evasive (peer : PeerId) (name : String)
  | purging (peer : PeerId) (endpoint : String)
  | cannotConnect (peer : PeerId) (endpoint : String) (error : ConnectError)
  | cannotGreet (peer : PeerId) (endpoint : String) (error : SendError)
  | entered (peer : PeerId) (name endpoint : String)
  | joinedGroup (peer : PeerId) (name group : String)
  | leftGroup (peer : PeerId) (name group : String)
  | statusMismatch (peer : PeerId) (name : String) (command : Command) (expected found : UInt8)
  | exited (peer : PeerId) (name : String)
  | beaconing (port : UInt16)
  | nodeStarted (node : PeerId) (name endpoint : String)
  | nodeStopped (node : PeerId)
  deriving DecidableEq

namespace Note
open Log (Level Value Record)

def peerTarget : String := "zre_core::peer"

def groupTarget : String := "zre_core::group"

def engineTarget : String := "zre_core::engine"

def discoveryTarget : String := "zre_node::discovery"

def nodeTarget : String := "zre_node::node"

def about (peer : PeerId) : String × Value := ("peer", .plain peer.text)

def record : Note → Record
  | mailboxOpened peer endpoint =>
    ⟨.debug, peerTarget, "connected mailbox", [about peer, ("endpoint", .quoted endpoint)]⟩
  | mailboxClosed peer endpoint =>
    ⟨.debug, peerTarget, "disconnected mailbox", [about peer, ("endpoint", .plain endpoint)]⟩
  | cannotEncode peer command error =>
    ⟨.warn, peerTarget, "cannot encode",
      [about peer, ("command", .quoted command.name), ("error", .plain error.message)]⟩
  | sending peer name command sequence =>
    ⟨.debug, peerTarget, "send",
      [about peer, ("name", .quoted name), ("command", .quoted command.name),
        ("sequence", .number sequence.toNat)]⟩
  | rejected peer command error =>
    ⟨.warn, peerTarget, "message rejected",
      [about peer, ("command", .quoted command.name), ("error", .plain error.message)]⟩
  | sendFailed peer name error =>
    ⟨.info, peerTarget, "send failed, disconnecting",
      [about peer, ("name", .quoted name), ("error", .plain error.message)]⟩
  | received peer name command sequence =>
    ⟨.debug, peerTarget, "recv",
      [about peer, ("name", .quoted name), ("command", .quoted command.name),
        ("sequence", .number sequence.toNat)]⟩
  | sequenceError peer name expected found =>
    ⟨.warn, peerTarget, "sequence error",
      [about peer, ("name", .quoted name), ("expected", .number expected.toNat),
        ("got", .number found.toNat)]⟩
  | memberUnreached group peer error =>
    ⟨.debug, groupTarget, "group send failed",
      [("group", .plain group), about peer, ("error", .plain error.message)]⟩
  | joining node group status =>
    ⟨.info, engineTarget, "joining group",
      [("node", .plain node), ("group", .quoted group), ("status", .number status.toNat)]⟩
  | leaving node group status =>
    ⟨.info, engineTarget, "leaving group",
      [("node", .plain node), ("group", .quoted group), ("status", .number status.toNat)]⟩
  | whisperDropped peer => ⟨.debug, engineTarget, "whisper to unknown peer dropped", [about peer]⟩
  | shoutDropped group =>
    ⟨.debug, engineTarget, "shout to unknown group dropped", [("group", .quoted group)]⟩
  | shuttingDown node peers =>
    ⟨.info, engineTarget, "shutting down", [("node", .plain node), ("peers", .number peers)]⟩
  | discoveryLost peer => ⟨.info, engineTarget, "discovery lost peer", [about peer]⟩
  | malformed error =>
    ⟨.debug, engineTarget, "dropping malformed message", [("error", .plain error.message)]⟩
  | badRoutingId length =>
    ⟨.debug, engineTarget, "dropping message with bad routing id", [("len", .number length)]⟩
  | greetedAgain peer =>
    ⟨.info, engineTarget, "peer said HELLO again, replacing", [about peer]⟩
  | unready peer command =>
    ⟨.debug, engineTarget, "ignoring message from unready peer",
      [about peer, ("command", .quoted command.name)]⟩
  | lostMessages peer => ⟨.warn, engineTarget, "lost messages from peer, removing", [about peer]⟩
  | expired peer name =>
    ⟨.info, engineTarget, "peer expired", [about peer, ("name", .quoted name)]⟩
  | evasive peer name =>
    ⟨.debug, engineTarget, "peer evasive", [about peer, ("name", .plain name)]⟩
  | purging peer endpoint =>
    ⟨.info, engineTarget, "purging peer at reused endpoint",
      [about peer, ("endpoint", .quoted endpoint)]⟩
  | cannotConnect peer endpoint error =>
    ⟨.warn, engineTarget, "cannot connect to peer",
      [about peer, ("endpoint", .quoted endpoint), ("error", .plain error.message)]⟩
  | cannotGreet peer endpoint error =>
    ⟨.warn, engineTarget, "cannot greet peer",
      [about peer, ("endpoint", .quoted endpoint), ("error", .plain error.message)]⟩
  | entered peer name endpoint =>
    ⟨.info, engineTarget, "peer entered",
      [about peer, ("name", .plain name), ("endpoint", .plain endpoint)]⟩
  | joinedGroup peer name group =>
    ⟨.info, engineTarget, "peer joined group",
      [about peer, ("name", .plain name), ("group", .quoted group)]⟩
  | leftGroup peer name group =>
    ⟨.info, engineTarget, "peer left group",
      [about peer, ("name", .plain name), ("group", .quoted group)]⟩
  | statusMismatch peer name command expected found =>
    ⟨.warn, engineTarget, "protocol violation",
      [about peer, ("name", .quoted name),
        ("error", .plain (command.name ++ " carried status " ++ toString found.toNat ++
          ", expected " ++ toString expected.toNat))]⟩
  | exited peer name => ⟨.info, engineTarget, "peer exited", [about peer, ("name", .plain name)]⟩
  | beaconing port =>
    ⟨.info, discoveryTarget, "beaconing started", [("port", .number port.toNat)]⟩
  | nodeStarted node name endpoint =>
    ⟨.info, nodeTarget, "node started",
      [("id", .plain node.text), ("name", .plain name), ("endpoint", .plain endpoint)]⟩
  | nodeStopped node => ⟨.info, nodeTarget, "node stopped", [("id", .plain node.text)]⟩

end Note
end PeerMesh
