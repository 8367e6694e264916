import PeerMesh.Tcp.Framing

/-! A connection that is read piece by piece, as its bytes come in. However the stream is cut, the
pieces give the messages of the whole. -/

namespace PeerMesh.Tcp
set_option autoImplicit false

structure Feed where
  /-- The routing id, once all of it came in. -/
  routingId : Option (List UInt8)
  /-- The bytes that came in and are not used yet. -/
  pending : ByteArray
  /-- Whether the stream went wrong; nothing is read from then on. -/
  broken : Bool

namespace Feed

def new : Feed := ⟨none, .empty, false⟩

/-- Reads the messages from a place in the bytes on, and keeps what is left. -/
def drain (f : Feed) (bytes : ByteArray) (place : Nat) : List Content × Feed :=
  let batch := readMessages bytes place
  (batch.messages, { f with
    pending := bytes.extract batch.next bytes.size
    broken := match batch.stop with
      | some (.size _) => true
      | _ => false })

/-- Takes the next piece, and gives the messages that it completes. -/
def push (f : Feed) (piece : ByteArray) : List Content × Feed :=
  if f.broken then ([], f)
  else
    let bytes := f.pending ++ piece
    match f.routingId with
    | some _ => f.drain bytes 0
    | none =>
      if bytes.size < routingIdLength then ([], { f with pending := bytes })
      else
        { f with routingId := some (bytes.extract 0 routingIdLength).data.toList }.drain bytes
          routingIdLength

/-- Takes piece after piece, and gives each message with the routing id of its sender. -/
def pushAll (f : Feed) : List ByteArray → List (List UInt8 × Content) × Feed
  | [] => ([], f)
  | piece :: pieces =>
    let (messages, f) := f.push piece
    let (more, last) := f.pushAll pieces
    (messages.map (f.routingId.getD [], ·) ++ more, last)

end Feed
end PeerMesh.Tcp
