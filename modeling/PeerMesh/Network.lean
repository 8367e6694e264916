import PeerMesh.Carriage
import PeerMesh.Sorted.Set

/-! A network inside one process: endpoints are plain strings, and every bound endpoint has a
queue that all mailboxes to it share. -/

namespace PeerMesh
set_option autoImplicit false

/-- A message waiting at an inbox, with the routing id of the mailbox it came through. -/
structure Delivery where
  routingId : List UInt8
  content : Content
  deriving DecidableEq

/-- The inboxes of a network, oldest message first, and what restricts them. -/
structure Network where
  inboxes : SortedMap String (List Delivery)
  /-- How many messages may wait at an endpoint; any number where nothing is set. -/
  capacities : SortedMap String Nat
  /-- Endpoints that take no new connections. -/
  refused : SortedSet String

namespace Network

def empty : Network := ⟨.empty, .empty, .empty⟩

instance : Inhabited Network := ⟨empty⟩

/-- Creates an inbox; one that is there already stays as it is. -/
def bind (net : Network) (endpoint : String) : Network :=
  if net.inboxes.contains endpoint then net
  else { net with inboxes := net.inboxes.insert endpoint [] }

/-- Removes an inbox with the messages waiting in it, and its capacity. -/
def unbind (net : Network) (endpoint : String) : Network :=
  { net with
    inboxes := net.inboxes.erase endpoint
    capacities := net.capacities.erase endpoint }

def setCapacity (net : Network) (endpoint : String) (capacity : Nat) : Network :=
  { net with capacities := net.capacities.insert endpoint capacity }

def refuse (net : Network) (endpoint : String) : Network :=
  { net with refused := net.refused.insert endpoint }

def waiting (net : Network) (endpoint : String) : List Delivery :=
  (net.inboxes.get? endpoint).getD []

def pending (net : Network) (endpoint : String) : Nat := (net.waiting endpoint).length

def receive (net : Network) (endpoint : String) : Option Delivery × Network :=
  match net.waiting endpoint with
  | [] => (none, net)
  | d :: rest => (some d, { net with inboxes := net.inboxes.insert endpoint rest })

/-- A mailbox is its endpoint and the routing id of its owner; it outlives the inbox. -/
structure Mailbox where
  endpoint : String
  routingId : List UInt8
  deriving DecidableEq

def connect (net : Network) (routingId : List UInt8) (endpoint : String) :
    Except ConnectError Mailbox :=
  if endpoint.isEmpty then .error (.invalidEndpoint endpoint)
  else if net.refused.contains endpoint || !net.inboxes.contains endpoint then
    .error (.unreachable endpoint)
  else .ok ⟨endpoint, routingId⟩

def isFull (net : Network) (endpoint : String) : Bool :=
  match net.capacities.get? endpoint with
  | some capacity => net.pending endpoint ≥ capacity
  | none => false

def send (net : Network) (box : Mailbox) (content : Content) : SendResult × Network :=
  match net.inboxes.get? box.endpoint with
  | none => (.error .disconnected, net)
  | some queue =>
    if net.isFull box.endpoint then (.error .wouldBlock, net)
    else
      (.ok (), { net with
        inboxes := net.inboxes.insert box.endpoint (queue ++ [⟨box.routingId, content⟩]) })

instance : Carriage Network Mailbox where
  connect net routingId endpoint := (net.connect routingId endpoint, net)
  send := send

end Network

/-- A carriage that also limits how many bytes the frames of one message may hold, by endpoint. -/
structure Metered (κ : Type) where
  inner : κ
  limits : SortedMap String Nat

namespace Metered

structure Mailbox (μ : Type) where
  endpoint : String
  inner : μ

def totalBytes (content : Content) : Nat := content.foldl (fun bytes frame => bytes + frame.size) 0

variable {κ μ : Type} [Carriage κ μ]

def connect (c : Metered κ) (routingId : List UInt8) (endpoint : String) :
    Except ConnectError (Mailbox μ) × Metered κ :=
  let (result, inner) := Carriage.connect c.inner routingId endpoint
  (result.map (⟨endpoint, ·⟩), { c with inner })

/-- Refuses a message above the limit before the mailbox behind sees it. -/
def send (c : Metered κ) (box : Mailbox μ) (content : Content) : SendResult × Metered κ :=
  let isOver := match c.limits.get? box.endpoint with
    | some limit => decide (totalBytes content > limit)
    | none => false
  if isOver then (.error .oversized, c)
  else
    let (result, inner) := Carriage.send c.inner box.inner content
    (result, { c with inner })

instance : Carriage (Metered κ) (Mailbox μ) where
  connect := connect
  send := send

end Metered
end PeerMesh
