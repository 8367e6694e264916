import PeerMesh.Program

/-! Nodes on one machine that talk to each other over its sockets. Everything that happens by
itself happens here in a fixed order: tasks take what waits for them, then connections are made and
messages carried, until nothing moves; only then does time pass, up to the next moment at which
some node looks for silence or announces itself. -/

namespace PeerMesh
set_option autoImplicit false
open Tcp (Exchange Host Link)

structure Tenant where
  node : TcpNode
  /-- Which tenant reads what a mailbox writes. -/
  readers : List (Tcp.Mailbox × Nat)
  nextReap : Nat
  nextBeacon : Nat
  /-- Whether the node belongs to the program, which logs all it does. -/
  isProgram : Bool
  log : List Log.Record

namespace Tenant

def new (node : TcpNode) (isProgram : Bool) : Tenant := ⟨node, [], 0, 0, isProgram, []⟩

def running? (t : Tenant) : Option (Running Exchange Tcp.Mailbox) :=
  match t.node.phase with
  | .running r => some r
  | _ => none

def edit (t : Tenant) (f : TcpNode → TcpNode) : Tenant := { t with node := f t.node }

/-- Moves what the node noted and reported into the log of the program. -/
def record (t : Tenant) : Tenant :=
  if t.isProgram then
    let (records, node) := Program.takeRecords t.node
    { t with node, log := t.log ++ records }
  else t

def poll (now : Nat) (t : Tenant) (source : Actor.Source) : Tenant :=
  (t.edit (TcpNode.poll now · source)).record

def work (now : Nat) (t : Tenant) : Tenant :=
  match t.running? with
  | none => t
  | some r =>
    let sources := r.actor.requests.map (fun _ => Actor.Source.requests) ++
      r.actor.sightings.map (fun _ => .discovery) ++ r.actor.inbox.map fun _ => .inbox
    sources.foldl (poll now) t

def isBusy (t : Tenant) : Bool :=
  match t.running? with
  | some r => !r.actor.requests.isEmpty || !r.actor.sightings.isEmpty || !r.actor.inbox.isEmpty
  | none => false

def isActive (l : Link) : Bool :=
  match l.writer with
  | .connecting => true
  | .idle => l.dropped || !l.queue.isEmpty
  | .writing _ => true
  | .ended => false

end Tenant

/-- A machine with the nodes on it. Time is in milliseconds. -/
structure Site where
  host : Host
  now : Nat
  tenants : List Tenant

namespace Site

def new (host : Host) (tenants : List Tenant) : Site := ⟨host, 0, tenants⟩

def edit (s : Site) (i : Nat) (f : Tenant → Tenant) : Site :=
  { s with tenants := s.tenants.modify i f }

def listeners (s : Site) : List Tcp.SocketAddress :=
  s.tenants.filterMap fun t => t.running?.map (·.listener)

/-- Who listens at an address, if it can be reached. -/
def listenerAt (s : Site) (address : Tcp.SocketAddress) : Option Nat :=
  s.tenants.findIdx? fun t => t.running?.any fun r => s.host.connects address r.listener

def isReading (s : Site) (i : Nat) : Bool :=
  s.tenants[i]?.any fun t => t.running?.any (!·.actor.ended)

/-! ### Carrying messages -/

def connect (s : Site) (i : Nat) (box : Tcp.Mailbox) (l : Link) : Site :=
  match s.listenerAt l.address with
  | some j => s.edit i fun t =>
    { t with node := t.node.editLink box (·.act (.connect true)), readers := (box, j) :: t.readers }
  | none => s.edit i (·.edit (·.editLink box (·.act (.connect false))))

/-- Carries the oldest message of a mailbox to its reader, or ends a mailbox without a reader. -/
def carry (s : Site) (i : Nat) (box : Tcp.Mailbox) (l : Link) : Site :=
  let reader := ((s.tenants[i]?.bind fun t => t.readers.lookup box)).filter s.isReading
  let taken := l.act .take
  let s := s.edit i (·.edit (·.editLink box (·.act .take)))
  match taken.writer, reader with
  | .writing content, some j =>
    (s.edit i (·.edit (·.editLink box (·.act (.write true))))).edit j
      (·.edit (·.editActor (·.deliver ⟨l.routingId, content⟩)))
  | .writing _, none => s.edit i (·.edit (·.editLink box (·.act (.write false))))
  | _, _ => s

def serve (s : Site) (i : Nat) (box : Tcp.Mailbox) : Site :=
  match s.tenants[i]?.bind fun t => t.node.links[box.number]? with
  | none => s
  | some l =>
    if l.writer = .connecting then s.connect i box l
    else if Tenant.isActive l then s.carry i box l
    else s

def serveAll (s : Site) (i : Nat) : Site :=
  let count := (s.tenants[i]?.map (·.node.links.length)).getD 0
  (List.range count).foldl (fun s k => s.serve i ⟨k⟩) s

def round (s : Site) : Site :=
  let s := { s with tenants := s.tenants.map (·.work s.now) }
  (List.range s.tenants.length).foldl serveAll s

def isQuiet (s : Site) : Bool :=
  s.tenants.all fun t => !t.isBusy && t.node.links.all fun l => !Tenant.isActive l

/-- Goes round until nothing moves, or so many times. -/
def settle : Nat → Site → Site
  | 0, s => s
  | rounds + 1, s => if s.isQuiet then s else settle rounds s.round

/-- More rounds than nodes need to tell each other everything. -/
def manyRounds : Nat := 100000

/-! ### Beacons -/

/-- Everyone who listens for beacons at a port, but for one tenant, hears a datagram. The machine
has to have an address that leads outward, and port 0 cannot be sent to. -/
def broadcast (s : Site) (port : UInt16) (except : Option Nat) (datagram : List UInt8) : Site :=
  match s.host.outward with
  | some (.v4 source) =>
    if port = 0 then s
    else
      { s with
        tenants := s.tenants.mapIdx fun i t =>
          let hears := t.running?.any fun r =>
            r.beacon.isSome && t.node.settings.discoveryPort = port && except ≠ some i
          if hears then t.edit (·.hear source datagram) else t }
  | _ => s

def announce (s : Site) (i : Nat) (leaving : Bool) : Site :=
  match s.tenants[i]? with
  | none => s
  | some t =>
    match t.running?.bind (·.beacon) with
    | none => s
    | some b =>
      let b := if leaving then { b with port := 0 } else b
      s.broadcast t.node.settings.discoveryPort (some i) b.encode

/-! ### Time -/

def tick (s : Site) (i : Nat) : Site :=
  match s.tenants[i]? with
  | none => s
  | some t =>
    if t.running?.isNone then s
    else
      let s := if t.nextBeacon ≤ s.now then
          (s.announce i false).edit i fun t =>
            { t with nextBeacon := s.now + t.node.settings.beaconPeriod }
        else s
      if t.nextReap ≤ s.now then
        s.edit i fun t =>
          { t.poll s.now .clock with nextReap := s.now + t.node.settings.timing.reap }
      else s

def catchUp (s : Site) : Site :=
  settle manyRounds ((List.range s.tenants.length).foldl tick (settle manyRounds s))

def nextMoment? (s : Site) : Option Nat :=
  (s.tenants.filterMap fun t =>
    t.running?.map fun r => if r.beacon.isSome then min t.nextReap t.nextBeacon else t.nextReap).min?

/-- Lets time pass until a look at the site finds something, at most until `deadline` and for at
most so many moments. -/
def await {α : Type} (look : Site → Option α) (deadline : Nat) : Nat → Site → Option α × Site
  | 0, s => (none, s)
  | moments + 1, s =>
    let s := s.catchUp
    match look s with
    | some a => (some a, s)
    | none =>
      match s.nextMoment? with
      | none => (none, s)
      | some next =>
        if next > deadline then (none, s)
        else await look deadline moments { s with now := max (s.now + 1) next }

/-- How long one waits for something that should come, in milliseconds. -/
def patience : Nat := 10000

def waitFor {α : Type} (s : Site) (look : Site → Option α) : Option α × Site :=
  s.await look (s.now + patience) (patience + 2)

/-! ### What is done to the nodes -/

/-- Does something to a node; one that refuses stays as it is. -/
def act (s : Site) (i : Nat) (f : TcpNode → Except NodeError TcpNode) :
    Except NodeError Unit × Site :=
  match s.tenants[i]? with
  | none => (.error .notStarted, s)
  | some t =>
    match f t.node with
    | .ok node => (.ok (), s.edit i ({ · with node }))
    | .error e => (.error e, s)

def start (s : Site) (i : Nat) : Except NodeError Unit × Site :=
  let (result, s) := s.act i fun node =>
    let settings := node.settings
    node.start .ascending (s.host.bind s.listeners settings.bindHost settings.inboxPort)
      s.host.outward (.ok ()) (Exchange.new settings.mailboxCapacity)
  match result with
  | .error e => (.error e, s)
  | .ok () =>
    (.ok (), s.edit i fun t =>
      { t with nextReap := s.now + t.node.settings.timing.reap, nextBeacon := s.now }.record)

/-- Lets the task of a node end without telling anyone. -/
def halt (s : Site) (i : Nat) : Site :=
  s.edit i fun t => (t.edit (·.halt s.now)).record

def stop (s : Site) (i : Nat) : Site := (s.announce i true).halt i

/-- Asks a node something. If its task breaks down before it answers, there is no answer. -/
def ask (s : Site) (i : Nat) (q : Query) : Except NodeError Answer × Site :=
  let (result, s) := s.act i (·.request (.query q))
  match result with
  | .error e => (.error e, s)
  | .ok () =>
    let s := s.catchUp
    let answer := do (← (← s.tenants[i]?).node.actor?).answers.getLast?
    (answer.elim (.error .stopped) .ok, s.edit i (·.edit (·.editActor (·.takeAnswers.2))))

/-- What reading events of a node finds: the next one, or `none` after the last. -/
def nextEvent? (i : Nat) (s : Site) : Option (Option Event) :=
  match s.tenants[i]?.bind (·.node.actor?) with
  | none => none
  | some a =>
    match a.events with
    | e :: _ => some (some e)
    | [] => if a.ended then some none else none

def receive (s : Site) (i : Nat) : Option (Option Event) × Site :=
  let (event, s) := s.waitFor (nextEvent? i)
  (event, s.edit i (·.edit (·.editActor (·.next.2))))

/-! ### The program -/

/-- Starts the program of a tenant: its node, and the record that it runs. -/
def launch (s : Site) (i : Nat) : Except NodeError Unit × Site :=
  let (result, s) := s.start i
  (result, match result with
    | .error _ => s
    | .ok () => s.edit i fun t =>
      { t with
        log := t.log ++ (t.running?.map fun r =>
          Program.runningRecord t.node.id t.node.name r.endpoint).toList })

def lines (filter : Log.Filter) (i : Nat) (s : Site) : List String :=
  match s.tenants[i]? with
  | none => []
  | some t => (t.log.filter filter.passes).map Log.Record.line

end Site
end PeerMesh
