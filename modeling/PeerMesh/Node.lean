import PeerMesh.Actor
import PeerMesh.Beacon
import PeerMesh.Settings
import PeerMesh.Tcp.Host

/-! A node as its application holds it. Before the start it only records what it is told; while it
runs it passes everything on to the task that owns its engine; after the stop only the events that
are left can be read. -/

namespace PeerMesh
set_option autoImplicit false

inductive NodeError
  | notStarted
  | alreadyStarted
  | stopped
  | advertiseHost (host : String)
  | command (error : CommandError)
  | io (error : Tcp.BindError)
  deriving DecidableEq

namespace NodeError

def message : NodeError → String
  | notStarted => "node is not started"
  | alreadyStarted => "node is already started"
  | stopped => "node has stopped"
  | advertiseHost host => "advertise host " ++ Text.quoted host ++ " is not an IP address"
  | command error => error.message
  | io error => "io: " ++ error.message

/-- The error, and what caused it if that is an error of its own. -/
def causes : NodeError → List String
  | io error => [(io error).message, error.message]
  | e => [e.message]

end NodeError

structure Running (κ μ : Type) where
  endpoint : String
  /-- Where its inbox listens. -/
  listener : Tcp.SocketAddress
  /-- What it announces, if it does. -/
  beacon : Option Beacon
  actor : Actor κ μ

inductive Phase (κ μ : Type)
  | idle
  | running (r : Running κ μ)
  /-- The task has ended; its events may still wait. -/
  | stopped (actor : Actor κ μ)

def Phase.beacon? {κ μ : Type} : Phase κ μ → Option Beacon
  | running r => r.beacon
  | _ => none

/-- A node and the record of what it was told. -/
structure Node (κ μ : Type) where
  settings : Settings
  id : PeerId
  name : String
  headers : Headers
  /-- The groups to be in, perhaps with repetitions. -/
  groups : List String
  /-- Whether the node still has the end at which events come in. Its task is given it. -/
  outlet : Bool
  phase : Phase κ μ

namespace Node
variable {κ μ : Type}

def new (settings : Settings) (id : PeerId) : Node κ μ where
  settings := settings
  id := id
  name := settings.name.getD id.shortName
  headers := settings.headers
  groups := settings.groups
  outlet := true
  phase := .idle

def endpoint? (n : Node κ μ) : Option String :=
  match n.phase with
  | .running r => some r.endpoint
  | _ => none

def actor? (n : Node κ μ) : Option (Actor κ μ) :=
  match n.phase with
  | .idle => none
  | .running r => some r.actor
  | .stopped actor => some actor

def editActor (n : Node κ μ) (f : Actor κ μ → Actor κ μ) : Node κ μ :=
  { n with
    phase := match n.phase with
      | .idle => .idle
      | .running r => .running { r with actor := f r.actor }
      | .stopped actor => .stopped (f actor) }

/-! ### What is looked at -/

/-- A node is set up only once and before it runs. -/
def checkIdle (n : Node κ μ) : Except NodeError Unit :=
  match n.phase with
  | .idle => .ok ()
  | .running _ => .error .alreadyStarted
  | .stopped _ => .error .stopped

/-- A stopped node is in no group any more. -/
def checkNotStopped (n : Node κ μ) : Except NodeError Unit :=
  match n.phase with
  | .stopped _ => .error .stopped
  | _ => .ok ()

def checkHeaders : List (String × String) → Headers → Except CommandError Unit
  | [], _ => .ok ()
  | (key, value) :: rest, checked => do
    checkHeader checked key value
    checkHeaders rest (checked.insert key value)

/-- Whether groups may be joined one after the other; repetitions count. -/
def checkGroups : List String → Nat → Except CommandError Unit
  | [], _ => .ok ()
  | group :: rest, joined => do
    checkGroup joined group
    checkGroups rest (joined + 1)

def validate (n : Node κ μ) : Except CommandError Unit := do
  checkName n.name
  checkHeaders n.headers.entries .empty
  checkGroups n.groups 0

/-- The address in the endpoint: as it is set, else as the inbox is bound, else the one that leads
outward. -/
def advertised (n : Node κ μ) (bound : Tcp.IpAddress) (outward : Option Tcp.IpAddress) :
    Except NodeError Tcp.IpAddress :=
  match n.settings.advertiseHost with
  | some host =>
    match Tcp.IpAddress.parse? host with
    | some ip => .ok ip
    | none => .error (.advertiseHost host)
  | none => .ok (if bound.isUnspecified then outward.getD Tcp.localhost else bound)

def furnish [Carriage κ μ] (walk : Walk) (n : Node κ μ) (s : Station κ μ) :
    Except CommandError (Station κ μ) := do
  let s ← n.headers.entries.foldlM (fun s (key, value) =>
    let (result, s) := s.setHeader key value
    result.map fun () => s) s
  n.groups.foldlM (fun s group =>
    let (result, s) := s.join walk group
    result.map fun () => s) s

/-- What a node announces, if it is to announce itself and the socket for that was opened. -/
def publish (n : Node κ μ) (port : UInt16) (published : Except Tcp.BindError Unit) :
    Except NodeError (Option Beacon) :=
  if n.settings.beaconEnabled then published.mapError .io |>.map fun () => some ⟨n.id, port⟩
  else .ok none

/-! ### What is done -/

/-- What a call does to a node. Where it fails, what it has changed before stays changed. -/
abbrev Act (κ μ α : Type) := ExceptT NodeError (StateM (Node κ μ)) α

namespace Act
open MonadExcept (ofExcept)

def outcome {α : Type} (act : Act κ μ α) (n : Node κ μ) : Except NodeError α × Node κ μ :=
  act.run.run n

def setName (name : String) : Act κ μ Unit := do
  ofExcept (← get).checkIdle
  ofExcept ((checkName name).mapError .command)
  modify ({ · with name })

def takeOutlet : Act κ μ Unit := do
  if (← get).outlet then modify ({ · with outlet := false }) else throw .stopped

/-- Starts a node whose inbox was bound, or was not, on a machine with an address that leads
outward, or without, that opened a socket for beacons, or did not. -/
def start [Carriage κ μ] (walk : Walk) (bound : Except Tcp.BindError Tcp.SocketAddress)
    (outward : Option Tcp.IpAddress) (published : Except Tcp.BindError Unit) (carriage : κ) :
    Act κ μ Unit := do
  let n ← get
  ofExcept n.checkIdle
  ofExcept (n.validate.mapError .command)
  let listener ← ofExcept (bound.mapError .io)
  let ip ← ofExcept (n.advertised listener.ip outward)
  let endpoint := Tcp.SocketAddress.endpoint ⟨ip, 0, listener.port⟩
  let engine := Engine.new n.id n.name endpoint n.settings.timing
  let station ← ofExcept ((n.furnish walk (.new engine carriage)).mapError .command)
  let beacon ← ofExcept (n.publish listener.port published)
  takeOutlet
  let opening := if beacon.isSome then [Note.beaconing n.settings.discoveryPort] else []
  let station := station.note (opening ++ [.nodeStarted n.id n.name endpoint])
  modify ({ · with phase := .running { endpoint, listener, beacon, actor := .new station } })

/-- Passes a request on to the task of a running node, unless the task broke down. -/
def request (r : Request) : Act κ μ Unit := do
  match (← get).phase with
  | .idle => throw .notStarted
  | .running s =>
    if s.actor.ended then throw .stopped
    else modify ({ · with phase := .running { s with actor := s.actor.post r } })
  | .stopped _ => throw .stopped

def requestIfRunning (r : Request) : Act κ μ Unit := do
  match (← get).phase with
  | .running _ => request r
  | _ => return

/-- Sets a header. Peers met from then on see it. A task that broke down does not need to know. -/
def setHeader (key value : String) : Act κ μ Unit := do
  ofExcept ((checkHeader (← get).headers key value).mapError .command)
  modify fun n => { n with headers := n.headers.insert key value }
  tryCatch (requestIfRunning (.setHeader key value)) fun _ => return

def join (group : String) : Act κ μ Unit := do
  let n ← get
  ofExcept n.checkNotStopped
  if n.groups.contains group then return
  else
    ofExcept ((checkGroup n.groups.length group).mapError .command)
    requestIfRunning (.join group)
    modify fun n => { n with groups := n.groups ++ [group] }

def leave (group : String) : Act κ μ Unit := do
  ofExcept (← get).checkNotStopped
  requestIfRunning (.leave group)
  modify fun n => { n with groups := n.groups.filter (· ≠ group) }

/-- The node after a call that is granted. A call that fails changes nothing, so it leaves nothing
but its error. -/
def granted (act : Act κ μ Unit) (n : Node κ μ) : Except NodeError (Node κ μ) :=
  match act.outcome n with
  | (.ok (), n) => .ok n
  | (.error e, _) => .error e

end Act

/-! ### The calls -/

def setName (n : Node κ μ) (name : String) : Except NodeError (Node κ μ) :=
  (Act.setName name).granted n

def start [Carriage κ μ] (walk : Walk) (n : Node κ μ)
    (bound : Except Tcp.BindError Tcp.SocketAddress) (outward : Option Tcp.IpAddress)
    (published : Except Tcp.BindError Unit) (carriage : κ) : Except NodeError (Node κ μ) :=
  (Act.start walk bound outward published carriage).granted n

def request (n : Node κ μ) (r : Request) : Except NodeError (Node κ μ) := (Act.request r).granted n

def setHeader (n : Node κ μ) (key value : String) : Except NodeError (Node κ μ) :=
  (Act.setHeader key value).granted n

def join (n : Node κ μ) (group : String) : Except NodeError (Node κ μ) := (Act.join group).granted n

def leave (n : Node κ μ) (group : String) : Except NodeError (Node κ μ) :=
  (Act.leave group).granted n

/-- Lets the task of a running node end. A node that does not run stays as it is. -/
def stop [Carriage κ μ] (walk : Walk) (now : Nat) (n : Node κ μ) : Node κ μ :=
  match n.phase with
  | .running r =>
    let actor := r.actor.finish walk now
    { n with phase := .stopped { actor with station := actor.station.note [.nodeStopped n.id] } }
  | _ => n

end Node
end PeerMesh
