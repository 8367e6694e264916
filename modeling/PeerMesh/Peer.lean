import PeerMesh.Note

/-! One remote node, as a node knows it: the mailbox that leads to it, what it declared about
itself, the sequence numbers of both directions and the deadlines of its silence. -/

namespace PeerMesh
set_option autoImplicit false

/-- A remote node. Times are milliseconds on the clock of the caller. -/
structure Peer (μ : Type) where
  id : PeerId
  /-- The open mailbox, if any. -/
  mailbox : Option μ
  /-- Where the newest mailbox led; it stays known after the mailbox is closed. -/
  lastEndpoint : String
  /-- The public name, known since the peer's HELLO. -/
  declaredName : Option String
  headers : Headers
  /-- The peer's own count of joins and leaves, as far as it told. -/
  status : UInt8
  /-- The sequence number of the newest message sent. -/
  sent : UInt16
  /-- The sequence number of the newest message expected. -/
  want : UInt16
  /-- Whether the peer greeted on the present mailbox. -/
  ready : Bool
  /-- When silence makes the peer evasive. -/
  evasiveAt : Nat
  /-- When silence makes the peer expire. -/
  expiredAt : Nat
  /-- Whether the peer was pinged in this stretch of silence. -/
  evasive : Bool

namespace Peer
variable {κ μ : Type}

def new (id : PeerId) (now : Nat) : Peer μ where
  id := id
  mailbox := none
  lastEndpoint := ""
  declaredName := none
  headers := .empty
  status := 0
  sent := 0
  want := 0
  ready := false
  evasiveAt := now
  expiredAt := now
  evasive := false

def isConnected (p : Peer μ) : Bool := p.mailbox.isSome

/-- Where the open mailbox leads; empty if none is open. -/
def endpoint (p : Peer μ) : String := if p.isConnected then p.lastEndpoint else ""

/-- The public name; empty before the peer's HELLO. -/
def name (p : Peer μ) : String := p.declaredName.getD ""

/-- Whether the application was told that the peer entered. -/
def hasEntered (p : Peer μ) : Bool := p.declaredName.isSome

def header (p : Peer μ) (key : String) : Option String := p.headers.get? key

/-- Registers a sign of life: both deadlines move on, and the peer is not evasive. -/
def refresh (p : Peer μ) (now evasiveTimeout expiredTimeout : Nat) : Peer μ :=
  { p with
    evasiveAt := now + evasiveTimeout
    expiredAt := now + expiredTimeout
    evasive := false }

/-- Closes the mailbox with whatever still waits in it. -/
def disconnect (p : Peer μ) : Peer μ := { p with mailbox := none, ready := false }

/-- What closing the mailbox notes: nothing if none is open. -/
def disconnectNotes (p : Peer μ) : List Note :=
  if p.isConnected then [.mailboxClosed p.id p.lastEndpoint] else []

/-- What an operation that used the carriage left behind. -/
structure Step (ε κ μ : Type) where
  result : Except ε Unit
  peer : Peer μ
  carriage : κ
  notes : List Note

/-- Opens a mailbox to `endpoint` in the name of `self`. If that fails the peer stays as it was. -/
def connect [Carriage κ μ] (p : Peer μ) (carriage : κ) (self : PeerId) (endpoint : String) :
    Step ConnectError κ μ :=
  match Carriage.connect carriage self.routingId endpoint with
  | (.ok box, carriage) =>
    { result := .ok ()
      peer := { p with mailbox := some box, lastEndpoint := endpoint, ready := false }
      carriage
      notes := [.mailboxOpened p.id endpoint] }
  | (.error e, carriage) => { result := .error e, peer := p, carriage, notes := [] }

/-- Numbers a message and puts it into the mailbox; without a mailbox it is dropped. A message
that has no wire form or is too much for the carriage is rejected by itself and uses up no number.
Any other failure closes the mailbox. -/
def send [Carriage κ μ] (p : Peer μ) (carriage : κ) (body : Body) : Step SendError κ μ :=
  match p.mailbox with
  | none => { result := .ok (), peer := p, carriage, notes := [] }
  | some box =>
    let number := p.sent + 1
    let command := body.command
    match Wire.encode ⟨number, body⟩ with
    | .error e =>
      { result := .error (.encode e), peer := p, carriage, notes := [.cannotEncode p.id command e] }
    | .ok frames =>
      let opening := Note.sending p.id p.name command number
      match Carriage.send carriage box frames with
      | (.ok (), carriage) =>
        { result := .ok (), peer := { p with sent := number }, carriage, notes := [opening] }
      | (.error e, carriage) =>
        if e.isFatal then
          { result := .error e
            peer := p.disconnect
            carriage
            notes := opening :: .sendFailed p.id p.name e :: p.disconnectNotes }
        else
          { result := .error e, peer := p, carriage, notes := [opening, .rejected p.id command e] }

/-- The number that the next message must carry: 1 on a HELLO, else one more than the last. -/
def nextWant (p : Peer μ) (m : Message) : UInt16 := if m.isHello then 1 else p.want + 1

def advance (p : Peer μ) (m : Message) : Peer μ := { p with want := p.nextWant m }

def showsLoss (p : Peer μ) (m : Message) : Bool := m.sequence ≠ p.nextWant m

def receiveNotes (p : Peer μ) (m : Message) : List Note :=
  .received p.id p.name m.body.command m.sequence ::
    if p.showsLoss m then [.sequenceError p.id p.name (p.nextWant m) m.sequence] else []

def debugText (p : Peer μ) : String :=
  let name := match p.declaredName with
    | some name => "Some(" ++ Text.quoted name ++ ")"
    | none => "None"
  "Peer \x7b id: PeerId(" ++ p.id.text ++ "), endpoint: " ++ Text.quoted p.lastEndpoint ++
    ", name: " ++ name ++ ", connected: " ++ toString p.isConnected ++ ", ready: " ++
    toString p.ready ++ ", status: " ++ toString p.status.toNat ++ " \x7d"

end Peer
end PeerMesh
