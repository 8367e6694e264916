import PeerMesh.Engine.State

/-! An engine at work. A station is an engine together with the carriage it sends through and the
notes it has taken; everything that an engine does is a step from one station to the next. -/

namespace PeerMesh
set_option autoImplicit false

/-- The order in which the peers of a roster are gone through. It is left open: any rearrangement
of their identities will do. -/
structure Walk where
  order : List PeerId → List PeerId
  perm_order : ∀ ids, (order ids).Perm ids

def Walk.ascending : Walk := ⟨fun ids => ids, fun _ => .refl _⟩

inductive Sighting
  | found (peer : PeerId) (endpoint : String)
  | lost (peer : PeerId)
  deriving DecidableEq

/-- An engine, its carriage, and its notes in the order in which they were taken. -/
structure Station (κ μ : Type) where
  engine : Engine μ
  carriage : κ
  journal : Array Note

namespace Station
variable {κ μ : Type}

def new (engine : Engine μ) (carriage : κ) : Station κ μ := ⟨engine, carriage, #[]⟩

def edit (s : Station κ μ) (f : Engine μ → Engine μ) : Station κ μ := { s with engine := f s.engine }

def note (s : Station κ μ) (notes : List Note) : Station κ μ :=
  { s with journal := s.journal ++ notes }

def emit (s : Station κ μ) (events : List Event) : Station κ μ :=
  s.edit fun e => { e with events := e.events ++ events }

def drain (s : Station κ μ) : List Event × Station κ μ :=
  (s.engine.events, s.edit fun e => { e with events := [] })

/-- Disconnects and forgets a peer. If the application knew it, it is told that the peer is gone
and then, group by group, which groups it has left by that. -/
def remove (s : Station κ μ) (id : PeerId) : Station κ μ :=
  match s.engine.roster.get? id with
  | none => s
  | some p =>
    let groups := s.engine.groupsOf id
    let s := (s.edit (·.forget id)).note p.disconnectNotes
    match p.declaredName with
    | none => s
    | some name =>
      (s.note [.exited id name]).emit (.exit id name :: groups.map fun group => .leave id name group)

def removeIfLost (s : Station κ μ) (id : PeerId) (result : SendResult) : Station κ μ :=
  if result.isFatal then s.remove id else s

/-! ### Sending -/

section
variable [Carriage κ μ]

def tell (s : Station κ μ) (p : Peer μ) (body : Body) : SendResult × Station κ μ :=
  let step := p.send s.carriage body
  (step.result,
    ({ s with carriage := step.carriage }.edit fun e =>
      { e with roster := e.roster.insert p.id step.peer }).note step.notes)

/-- Sends a message to all known peers and removes those that were lost in the attempt. -/
def broadcast (walk : Walk) (s : Station κ μ) (body : Body) : Station κ μ :=
  let sent := Roster.sendEach (fun _ _ => []) body (walk.order s.engine.roster.keys)
    s.engine.roster s.carriage
  sent.failed.foldl remove
    ({ s with carriage := sent.carriage }.edit (fun e => { e with roster := sent.roster })
      |>.note sent.notes)

end

/-! ### Commands of the application -/

def setHeader (s : Station κ μ) (key value : String) : Except CommandError Unit × Station κ μ :=
  match checkHeader s.engine.headers key value with
  | .error e => (.error e, s)
  | .ok () => (.ok (), s.edit fun e => { e with headers := e.headers.insert key value })

section
variable [Carriage κ μ]

/-- Joins a group and tells every known peer. Joining a joined group does nothing. -/
def join (walk : Walk) (s : Station κ μ) (group : String) : Except CommandError Unit × Station κ μ :=
  if s.engine.joined.contains group then (.ok (), s)
  else
    match checkGroup s.engine.joined.size group with
    | .error e => (.error e, s)
    | .ok () =>
      let status := s.engine.status + 1
      let s := s.edit fun e => { e with joined := e.joined.insert group, status }
      (.ok (), (s.note [.joining s.engine.name group status]).broadcast walk (.join group status))

/-- Leaves a group and tells every known peer. Leaving a group not joined does nothing. -/
def leave (walk : Walk) (s : Station κ μ) (group : String) : Station κ μ :=
  if s.engine.joined.contains group then
    let status := s.engine.status + 1
    let s := s.edit fun e => { e with joined := e.joined.erase group, status }
    (s.note [.leaving s.engine.name group status]).broadcast walk (.leave group status)
  else s

/-- Sends content to one peer. A peer that is not known is ignored. -/
def whisper (s : Station κ μ) (id : PeerId) (content : Content) : Station κ μ :=
  match s.engine.roster.get? id with
  | none => s.note [.whisperDropped id]
  | some p =>
    let (result, s) := s.tell p (.whisper content)
    s.removeIfLost id result

/-- Sends content to every peer in a group. A group that no peer is in is ignored. -/
def shout (s : Station κ μ) (group : String) (content : Content) : Station κ μ :=
  match s.engine.peerGroups.get? group with
  | none => s.note [.shoutDropped group]
  | some g =>
    let sent := g.send s.engine.roster s.carriage (.shout group content)
    sent.failed.foldl remove
      ({ s with carriage := sent.carriage }.edit (fun e => { e with roster := sent.roster })
        |>.note sent.notes)

end

/-- Disconnects every peer and reports the end. A second shutdown does nothing. -/
def shutdown (walk : Walk) (s : Station κ μ) : Station κ μ :=
  if s.engine.stopped then s
  else
    let closing := (walk.order s.engine.roster.keys).flatMap fun id =>
      match s.engine.roster.get? id with
      | some p => p.disconnectNotes
      | none => []
    let s := s.note (.shuttingDown s.engine.name s.engine.roster.size :: closing)
    (s.edit fun e => { e with roster := .empty, peerGroups := .empty, stopped := true }).emit [.stop]

/-! ### Meeting peers -/

/-- Removes the peers whose mailbox leads to an endpoint that now belongs to another node. -/
def purge (walk : Walk) (s : Station κ μ) (endpoint : String) : Station κ μ :=
  let stale := (walk.order s.engine.roster.keys).filter fun id =>
    match s.engine.roster.get? id with
    | some p => p.endpoint = endpoint
    | none => false
  stale.foldl (fun s id => (s.note [.purging id endpoint]).remove id) s

section
variable [Carriage κ μ]

/-- Connects to a new peer and greets it. Only a peer that took the greeting gets an entry. -/
def meet (s : Station κ μ) (id : PeerId) (endpoint : String) (now : Nat) : Bool × Station κ μ :=
  let opened := (Peer.new id now).connect s.carriage s.engine.id endpoint
  let s := { s with carriage := opened.carriage }.note opened.notes
  match opened.result with
  | .error e => (false, s.note [.cannotConnect id endpoint e])
  | .ok () =>
    let greeted := opened.peer.send s.carriage (.hello s.engine.hello)
    let s := { s with carriage := greeted.carriage }.note greeted.notes
    match greeted.result with
    | .error e => (false, s.note [.cannotGreet id endpoint e])
    | .ok () =>
      (true, s.edit fun e =>
        e.putPeer (greeted.peer.refresh now e.timing.evasive e.timing.expired))

/-- Makes sure that a peer has an entry, and says whether it has. The node itself gets none, by
identity or by endpoint. A new peer takes the place of whoever was at its endpoint. -/
def require (walk : Walk) (s : Station κ μ) (id : PeerId) (endpoint : String) (now : Nat) :
    Bool × Station κ μ :=
  if id = s.engine.id || endpoint = s.engine.endpoint then (false, s)
  else if s.engine.roster.contains id then (true, s)
  else (s.purge walk endpoint).meet id endpoint now

/-- A node was seen at an endpoint: a new peer is admitted, a known one has shown life. -/
def found (walk : Walk) (s : Station κ μ) (id : PeerId) (endpoint : String) (now : Nat) :
    Station κ μ :=
  if s.engine.stopped then s
  else
    match s.require walk id endpoint now with
    | (true, s) => s.edit (·.refresh id now)
    | (false, s) => s

end

def lost (s : Station κ μ) (id : PeerId) : Station κ μ :=
  if s.engine.stopped || !s.engine.roster.contains id then s
  else (s.note [.discoveryLost id]).remove id

def discover [Carriage κ μ] (walk : Walk) (s : Station κ μ) (sighting : Sighting) (now : Nat) :
    Station κ μ :=
  match sighting with
  | .found id endpoint => s.found walk id endpoint now
  | .lost id => s.lost id

/-! ### Messages from peers -/

/-- A peer is in a group, by its greeting or by a JOIN. Each time is reported. -/
def peerJoined (s : Station κ μ) (id : PeerId) (group : String) : Station κ μ :=
  let name := s.engine.nameOf id
  ((s.edit (·.enrol id group)).note [.joinedGroup id name group]).emit [.join id name group]

/-- A peer left a group. It is reported even if the peer was not in it. -/
def peerLeft (s : Station κ μ) (id : PeerId) (group : String) : Station κ μ :=
  let name := s.engine.nameOf id
  ((s.edit (·.withdraw id group)).note [.leftGroup id name group]).emit [.leave id name group]

/-- Follows a peer's count of joins and leaves. A count other than the next one is noted and then
believed. -/
def followStatus (s : Station κ μ) (id : PeerId) (command : Command) (status : UInt8) :
    Station κ μ :=
  match s.engine.roster.get? id with
  | none => s
  | some p =>
    let expected := p.status + 1
    let s := if status = expected then s
      else s.note [.statusMismatch id p.name command expected status]
    s.edit (·.editPeer id ({ · with status }))

/-- A peer introduced itself: it enters with its name and headers and is in its groups. The count
that it gave already reflects those groups. -/
def introduced (s : Station κ μ) (id : PeerId) (h : Hello) : Station κ μ :=
  match s.engine.roster.get? id with
  | none => s
  | some p =>
    let s := (s.edit (·.editPeer id ({ · with declaredName := some h.name, headers := h.headers })))
      |>.note [.entered id h.name p.endpoint]
    let s := s.emit [.enter id h.name h.headers p.endpoint]
    let s := h.groups.foldl (fun s group => s.peerJoined id group) s
    s.edit (·.editPeer id ({ · with status := h.status }))

section
variable [Carriage κ μ]

def act (s : Station κ μ) (id : PeerId) : Body → Station κ μ
  | .hello h => s.introduced id h
  | .whisper content => s.emit [.whisper id (s.engine.nameOf id) content]
  | .shout group content => s.emit [.shout id (s.engine.nameOf id) group content]
  | .join group status => (s.peerJoined id group).followStatus id .join status
  | .leave group status => (s.peerLeft id group).followStatus id .leave status
  | .ping =>
    match s.engine.roster.get? id with
    | none => s
    | some p =>
      let (result, s) := s.tell p .pingOk
      s.removeIfLost id result
  | .pingOk => s

/-- Takes a message from a peer. Only peers that have greeted are listened to, and one that lost
messages on the way is removed. -/
def accept (s : Station κ μ) (id : PeerId) (m : Message) (now : Nat) : Station κ μ :=
  match s.engine.readyPeer? id with
  | none => s.note [.unready id m.body.command]
  | some p =>
    let s := (s.edit (·.editPeer id (·.advance m))).note (p.receiveNotes m)
    if p.showsLoss m then (s.note [.lostMessages id]).remove id
    else (s.act id m.body).edit (·.refresh id now)

/-- Answers a greeting: a peer that greets again has started over, and a peer not known yet is
greeted in turn. Says whether the peer now counts as having greeted. -/
def welcome (walk : Walk) (s : Station κ μ) (id : PeerId) (endpoint : String) (now : Nat) :
    Bool × Station κ μ :=
  let s := if (s.engine.readyPeer? id).isSome then (s.note [.greetedAgain id]).remove id else s
  match s.require walk id endpoint now with
  | (true, s) => (true, s.edit (·.editPeer id ({ · with ready := true })))
  | (false, s) => (false, s)

def receive (walk : Walk) (s : Station κ μ) (routingId : List UInt8) (frames : Content) (now : Nat) :
    Station κ μ :=
  if s.engine.stopped then s
  else
    match Wire.decode frames with
    | .error e => s.note [.malformed e]
    | .ok m =>
      match PeerId.ofRoutingId? routingId with
      | none => s.note [.badRoutingId routingId.length]
      | some id =>
        match m.body with
        | .hello h =>
          match s.welcome walk id h.endpoint now with
          | (true, s) => s.accept id m now
          | (false, s) => s
        | _ => s.accept id m now

/-! ### Silence -/

/-- Looks at one peer: one that was silent for too long is removed, one that was silent for long
is pinged and reported, once in each stretch of silence. -/
def reapPeer (now : Nat) (s : Station κ μ) (id : PeerId) : Station κ μ :=
  match s.engine.roster.get? id with
  | none => s
  | some p =>
    if p.expiredAt ≤ now then (s.note [.expired id p.name]).remove id
    else if p.evasiveAt ≤ now && !p.evasive then
      let (result, s) := s.tell { p with evasive := true } .ping
      let s := match p.declaredName with
        | some name => (s.note [.evasive id name]).emit [.evasive id name]
        | none => s
      s.removeIfLost id result
    else s

def reap (walk : Walk) (s : Station κ μ) (now : Nat) : Station κ μ :=
  if s.engine.stopped then s
  else (walk.order s.engine.roster.keys).foldl (reapPeer now) s

end

end Station
end PeerMesh
