import PeerMesh.Peer
import PeerMesh.Sorted.Set

/-! Groups of peers, and sending one message to many peers. A group names its members; the peers
themselves stand in a roster, in which a member may be missing. -/

namespace PeerMesh
set_option autoImplicit false

abbrev Roster (μ : Type) := SortedMap PeerId (Peer μ)

namespace Roster
variable {κ μ : Type}

/-- What sending to many peers left behind. -/
structure Fanout (κ μ : Type) where
  roster : Roster μ
  carriage : κ
  /-- The peers that were lost, in the order of sending. -/
  failed : List PeerId
  notes : List Note

/-- Sends a message to each peer of a list that the roster holds, whatever becomes of the others.
`onError` says what is noted about a peer that did not take it. -/
def sendEach [Carriage κ μ] (onError : PeerId → SendError → List Note) (body : Body) :
    List PeerId → Roster μ → κ → Fanout κ μ
  | [], roster, carriage => { roster, carriage, failed := [], notes := [] }
  | id :: ids, roster, carriage =>
    match roster.get? id with
    | none => sendEach onError body ids roster carriage
    | some peer =>
      let step := peer.send carriage body
      let rest := sendEach onError body ids (roster.insert id step.peer) step.carriage
      match step.result with
      | .ok () => { rest with notes := step.notes ++ rest.notes }
      | .error e =>
        { rest with
          failed := if e.isFatal then id :: rest.failed else rest.failed
          notes := step.notes ++ onError id e ++ rest.notes }

end Roster

structure Group where
  name : String
  members : SortedSet PeerId
  deriving DecidableEq

namespace Group
variable {κ μ : Type}

def new (name : String) : Group := ⟨name, .empty⟩

def contains (g : Group) (peer : PeerId) : Bool := g.members.contains peer

def isEmpty (g : Group) : Bool := g.members.isEmpty

def size (g : Group) : Nat := g.members.size

def join (g : Group) (peer : PeerId) : Group := { g with members := g.members.insert peer }

def leave (g : Group) (peer : PeerId) : Group := { g with members := g.members.erase peer }

/-- Sends a message to every member that the roster holds, in ascending order of identity. -/
def send [Carriage κ μ] (g : Group) (roster : Roster μ) (carriage : κ) (body : Body) :
    Roster.Fanout κ μ :=
  Roster.sendEach (fun id e => [.memberUnreached g.name id e]) body g.members.toList roster carriage

end Group
end PeerMesh
