import PeerMesh.Event
import PeerMesh.Group
import PeerMesh.Limits

/-! The state of a node's engine, and what can be asked of it. The engine owns every peer and every
group; it has no clock and no input of its own. -/

namespace PeerMesh
set_option autoImplicit false

/-- How long a peer may be silent, and how often silence is looked for, in milliseconds. -/
structure Timing where
  /-- Silence after which a peer is pinged. -/
  evasive : Nat
  /-- Silence after which a peer is gone. -/
  expired : Nat
  /-- Time between two sweeps over the peers. -/
  reap : Nat
  deriving DecidableEq

def Timing.usual : Timing := ⟨5000, 30000, 1000⟩

structure Engine (μ : Type) where
  id : PeerId
  name : String
  /-- Where the node's inbox listens; it goes out in every HELLO. -/
  endpoint : String
  timing : Timing
  headers : Headers
  /-- The node's own count of joins and leaves. -/
  status : UInt8
  /-- The groups the node is in. -/
  joined : SortedSet String
  roster : Roster μ
  /-- The groups that peers are in. -/
  peerGroups : SortedMap String Group
  /-- Events that the application has not taken yet, oldest first. -/
  events : List Event
  stopped : Bool

namespace Engine
variable {μ : Type}

def new (id : PeerId) (name endpoint : String) (timing : Timing) : Engine μ where
  id := id
  name := name
  endpoint := endpoint
  timing := timing
  headers := .empty
  status := 0
  joined := .empty
  roster := .empty
  peerGroups := .empty
  events := []
  stopped := false

/-- The greeting that the node sends first on every connection. -/
def hello (e : Engine μ) : Hello where
  endpoint := e.endpoint
  groups := e.joined.toList
  status := e.status
  name := e.name
  headers := e.headers

/-- A peer that has greeted on its present connection. -/
def readyPeer? (e : Engine μ) (id : PeerId) : Option (Peer μ) :=
  (e.roster.get? id).filter (·.ready)

def peers (e : Engine μ) : List PeerId := (e.roster.filter fun _ p => p.ready).keys

def peersInGroup (e : Engine μ) (group : String) : List PeerId :=
  match e.peerGroups.get? group with
  | some g => g.members.toList
  | none => []

def ownGroups (e : Engine μ) : List String := e.joined.toList

def peerGroupNames (e : Engine μ) : List String := e.peerGroups.keys

def peerEndpoint? (e : Engine μ) (id : PeerId) : Option String := (e.readyPeer? id).map (·.endpoint)

def peerName? (e : Engine μ) (id : PeerId) : Option String := (e.readyPeer? id).map (·.name)

def peerHeader? (e : Engine μ) (id : PeerId) (key : String) : Option String :=
  (e.readyPeer? id).bind (·.header key)

/-- The name of a known peer; empty for others. -/
def nameOf (e : Engine μ) (id : PeerId) : String :=
  match e.roster.get? id with
  | some p => p.name
  | none => ""

def groupsOf (e : Engine μ) (id : PeerId) : List String :=
  (e.peerGroups.filter fun _ g => g.contains id).keys

def putPeer (e : Engine μ) (p : Peer μ) : Engine μ := { e with roster := e.roster.insert p.id p }

def editPeer (e : Engine μ) (id : PeerId) (f : Peer μ → Peer μ) : Engine μ :=
  match e.roster.get? id with
  | some p => { e with roster := e.roster.insert id (f p) }
  | none => e

/-- Puts a peer into a group, which comes into being with its first member. -/
def enrol (e : Engine μ) (id : PeerId) (group : String) : Engine μ :=
  let g := (e.peerGroups.get? group).getD (.new group)
  { e with peerGroups := e.peerGroups.insert group (g.join id) }

/-- A group without a peer; a group without members is no more. -/
def withoutMember (id : PeerId) (g : Group) : Option Group :=
  if (g.leave id).isEmpty then none else some (g.leave id)

def withdraw (e : Engine μ) (id : PeerId) (group : String) : Engine μ :=
  { e with
    peerGroups := e.peerGroups.filterMap fun name g =>
      if name = group then withoutMember id g else some g }

def forget (e : Engine μ) (id : PeerId) : Engine μ :=
  { e with
    roster := e.roster.erase id
    peerGroups := e.peerGroups.filterMap fun _ g =>
      if g.contains id then withoutMember id g else some g }

def refresh (e : Engine μ) (id : PeerId) (now : Nat) : Engine μ :=
  e.editPeer id (·.refresh now e.timing.evasive e.timing.expired)

end Engine
end PeerMesh
