import PeerMesh.Tcp.Link

/-! The mailboxes that one node has opened over TCP. A mailbox is named by its number in the order
of opening, so each name is used once. Queues may be set up to be longer than any machine can hold;
then the attempt to open a mailbox is the last thing that is done with them. -/

namespace PeerMesh.Tcp
set_option autoImplicit false

structure Mailbox where
  number : Nat
  deriving DecidableEq

/-- All mailboxes, oldest first, and how many messages may wait in each. -/
structure Exchange where
  capacity : Nat
  links : List Link
  /-- Whether a mailbox was asked for whose queue no machine can hold. -/
  broken : Bool

namespace Exchange

/-- The length of the longest queue that a machine can hold. -/
def greatestCapacity : Nat := Nat.pow 2 61 - 1

def new (capacity : Nat) : Exchange := ⟨capacity, [], false⟩

/-- Opens a mailbox, or breaks if its queue would be too long. -/
def connect (x : Exchange) (routingId : List UInt8) (endpoint : String) :
    Except ConnectError Mailbox × Exchange :=
  match Link.open? routingId endpoint x.capacity with
  | .ok link =>
    if x.capacity > greatestCapacity then (.error (.unreachable endpoint), { x with broken := true })
    else (.ok ⟨x.links.length⟩, { x with links := x.links ++ [link] })
  | .error e => (.error e, x)

def edit (x : Exchange) (box : Mailbox) (f : Link → Link) : Exchange :=
  { x with links := x.links.modify box.number f }

def send (x : Exchange) (box : Mailbox) (content : Content) : SendResult × Exchange :=
  match x.links[box.number]? with
  | none => (.error .disconnected, x)
  | some link =>
    let (result, link) := link.send content
    (result, x.edit box fun _ => link)

instance : Carriage Exchange Mailbox := ⟨connect, send⟩

/-- Lets go of every mailbox that is not among those still held. -/
def keep (x : Exchange) (held : List Mailbox) : Exchange :=
  { x with
    links := x.links.mapIdx fun i link =>
      if ⟨i⟩ ∈ held then link else link.act .drop }

end Exchange
end PeerMesh.Tcp
