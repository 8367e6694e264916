import PeerMesh.Carriage
import PeerMesh.Tcp.Address
import PeerMesh.Tcp.Framing

/-! A mailbox over TCP. The mailbox is a bounded queue; a writer of its own connects, takes one
message after the other from the queue and puts it onto the stream. Queueing never waits for the
writer, so a peer that cannot be reached shows up as a failure of a later message. -/

namespace PeerMesh.Tcp
set_option autoImplicit false

inductive Writer
  | connecting
  /-- Connected, with nothing taken from the queue. -/
  | idle
  /-- Connected, with a message taken but not written yet. -/
  | writing (content : Content)
  /-- The connection is gone, or was never made. -/
  | ended
  deriving DecidableEq

structure Link where
  routingId : List UInt8
  address : SocketAddress
  /-- How many messages may wait for the writer. -/
  capacity : Nat
  /-- Messages accepted and not yet taken by the writer, oldest first. -/
  queue : List Content
  writer : Writer
  /-- Whether the owner of the mailbox let it go. -/
  dropped : Bool
  /-- The messages that are on the stream, oldest first. -/
  written : List Content

namespace Link

/-- A new mailbox. There is room for one message at least. -/
def new (routingId : List UInt8) (address : SocketAddress) (capacity : Nat) : Link where
  routingId := routingId
  address := address
  capacity := max 1 capacity
  queue := []
  writer := .connecting
  dropped := false
  written := []

/-- Opens a mailbox to an endpoint. Whether anyone listens there is not known yet. -/
def open? (routingId : List UInt8) (endpoint : String) (capacity : Nat) : Except ConnectError Link :=
  match SocketAddress.ofEndpoint? endpoint with
  | some address => .ok (new routingId address capacity)
  | none => .error (.invalidEndpoint endpoint)

/-- Queues a message, unless the writer could not write it, or has ended, or is too slow. -/
def send (l : Link) (content : Content) : SendResult × Link :=
  if (sizeError? content).isSome then (.error .oversized, l)
  else if l.writer = .ended then (.error .disconnected, l)
  else if l.queue.length ≥ l.capacity then (.error .wouldBlock, l)
  else (.ok (), { l with queue := l.queue ++ [content] })

inductive Act
  | connect (made : Bool)
  | take
  /-- The message taken is written, unless it cannot be framed or the connection breaks. -/
  | write (done : Bool)
  | drop
  deriving DecidableEq

def finish (l : Link) : Link := { l with writer := .ended, queue := [] }

/-- Lets one thing happen. A writer whose mailbox was let go takes no further message, and an act
that the writer is not at does nothing. -/
def act (l : Link) : Act → Link
  | .connect made =>
    match l.writer with
    | .connecting => if made then { l with writer := .idle } else l.finish
    | _ => l
  | .take =>
    match l.writer with
    | .idle =>
      if l.dropped then l.finish
      else
        match l.queue with
        | [] => l
        | m :: rest => { l with writer := .writing m, queue := rest }
    | _ => l
  | .write done =>
    match l.writer with
    | .writing m =>
      match writeMessage m, done with
      | .ok _, true => { l with writer := .idle, written := l.written ++ [m] }
      | _, _ => l.finish
    | _ => l
  | .drop => { l with dropped := true }

def flush (l : Link) : Link :=
  l.queue.foldl (fun l _ => (l.act .take).act (.write true)) l

def stream (l : Link) : ByteArray := writeConnection l.routingId l.written

end Link
end PeerMesh.Tcp
