import PeerMesh.Node
import PeerMesh.Tcp.Exchange

/-! Nodes whose mailboxes are over TCP, and what reaches them from outside. -/

namespace PeerMesh
set_option autoImplicit false
open Tcp (Exchange Link Mailbox)

abbrev TcpNode := Node Exchange Mailbox

inductive Happening
  | message (delivery : Delivery)
  | datagram (source : Tcp.IPv4) (bytes : List UInt8)
  | link (box : Mailbox) (act : Link.Act)
  | sweep

namespace TcpNode

/-- The mailboxes that a node ever opened, oldest first. -/
def links (n : TcpNode) : List Link :=
  match n.actor? with
  | some a => a.station.carriage.links
  | none => []

def editExchange (n : TcpNode) (f : Exchange → Exchange) : TcpNode :=
  n.editActor fun a => { a with station := { a.station with carriage := f a.station.carriage } }

def editLink (n : TcpNode) (box : Mailbox) (f : Link → Link) : TcpNode :=
  n.editExchange (·.edit box f)

/-- The mailboxes that the peers of a node hold. -/
def held (n : TcpNode) : List Mailbox :=
  match n.actor? with
  | some a => a.station.engine.roster.entries.filterMap fun entry => entry.2.mailbox
  | none => []

/-- Lets go of the mailboxes that no peer holds any more. -/
def release (n : TcpNode) : TcpNode := n.editExchange (·.keep n.held)

/-- Lets a task take one thing from a source. When it asks for a mailbox whose queue no machine can
hold, it breaks down then and there, before its last note, that no mailbox was opened. -/
def pollTask (now : Nat) (a : Actor Exchange Mailbox) (source : Actor.Source) :
    Actor Exchange Mailbox :=
  let next := a.poll .ascending now source
  if next.station.carriage.broken && !a.station.carriage.broken then
    { a with station := { next.station with journal := next.station.journal.pop } }.fail
  else next

def poll (now : Nat) (n : TcpNode) (source : Actor.Source) : TcpNode :=
  release (n.editActor (pollTask now · source))

def takeRequests (now : Nat) (n : TcpNode) : TcpNode :=
  match n.actor? with
  | some a => a.requests.foldl (fun n _ => poll now n .requests) n
  | none => n

def hear (n : TcpNode) (source : Tcp.IPv4) (bytes : List UInt8) : TcpNode :=
  match Beacon.sighting? n.id source bytes with
  | some sighting => n.editActor (·.sight sighting)
  | none => n

/-- Queues what happens and lets the task take it. -/
def absorb (now : Nat) (n : TcpNode) : Happening → TcpNode
  | .message delivery => poll now (n.editActor (·.deliver delivery)) .inbox
  | .datagram source bytes => poll now (hear n source bytes) .discovery
  | .link box act => editLink n box (·.act act)
  | .sweep => poll now n .clock

/-- Lets the task of a node end, and lets go of all mailboxes. -/
def halt (now : Nat) (n : TcpNode) : TcpNode := release ((takeRequests now n).stop .ascending now)

end TcpNode
end PeerMesh
