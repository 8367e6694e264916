import PeerMesh.Engine.Op
import PeerMesh.Network

/-! The task that owns an engine. Requests of the application, messages from the inbox, reports of
discovery and the clock each wait in a queue of their own; the task takes one thing at a time, from
any queue that has something. When the application sends no more requests and all of them are done,
the task shuts its engine down and ends. -/

namespace PeerMesh
set_option autoImplicit false

inductive Query
  | peers
  | peersInGroup (group : String)
  | ownGroups
  | peerGroups
  | peerEndpoint (peer : PeerId)
  | peerName (peer : PeerId)
  | peerHeader (peer : PeerId) (key : String)
  deriving DecidableEq

inductive Answer
  | peers (ids : List PeerId)
  | groups (names : List String)
  | text (value : Option String)
  deriving DecidableEq

def Engine.answer {μ : Type} (e : Engine μ) : Query → Answer
  | .peers => .peers e.peers
  | .peersInGroup group => .peers (e.peersInGroup group)
  | .ownGroups => .groups e.ownGroups
  | .peerGroups => .groups e.peerGroupNames
  | .peerEndpoint peer => .text (e.peerEndpoint? peer)
  | .peerName peer => .text (e.peerName? peer)
  | .peerHeader peer key => .text (e.peerHeader? peer key)

inductive Request
  | setHeader (key value : String)
  | join (group : String)
  | leave (group : String)
  | whisper (peer : PeerId) (content : Content)
  | shout (group : String) (content : Content)
  /-- Connect to a node without waiting for a sign of it. -/
  | requirePeer (peer : PeerId) (endpoint : String)
  | query (query : Query)
  deriving DecidableEq

/-- What a request does to the engine; a query does nothing. -/
def Request.op? (now : Nat) : Request → Option Op
  | setHeader key value => some (.setHeader key value)
  | join group => some (.join group)
  | leave group => some (.leave group)
  | whisper peer content => some (.whisper peer content)
  | shout group content => some (.shout group content)
  | requirePeer peer endpoint => some (.discover (.found peer endpoint) now)
  | query _ => none

/-- An engine with the queues in front of it and what it has handed on. -/
structure Actor (κ μ : Type) where
  station : Station κ μ
  /-- Requests not taken yet, oldest first. -/
  requests : List Request
  /-- Whether no more requests will come. -/
  closed : Bool
  inbox : List Delivery
  sightings : List Sighting
  /-- The answers to the queries taken so far, in the order of the queries. -/
  answers : List Answer
  /-- The events handed on, oldest first. -/
  events : List Event
  ended : Bool

namespace Actor
variable {κ μ : Type}

def new (station : Station κ μ) : Actor κ μ where
  station := station
  requests := []
  closed := false
  inbox := []
  sightings := []
  answers := []
  events := []
  ended := false

/-! ### The other ends of the queues -/

def post (a : Actor κ μ) (r : Request) : Actor κ μ :=
  if a.closed then a else { a with requests := a.requests ++ [r] }

def close (a : Actor κ μ) : Actor κ μ := { a with closed := true }

def deliver (a : Actor κ μ) (d : Delivery) : Actor κ μ :=
  if a.ended then a else { a with inbox := a.inbox ++ [d] }

def sight (a : Actor κ μ) (s : Sighting) : Actor κ μ :=
  if a.ended then a else { a with sightings := a.sightings ++ [s] }

/-! ### The task -/

def forward (a : Actor κ μ) : Actor κ μ :=
  let (events, station) := a.station.drain
  { a with station, events := a.events ++ events }

section
variable [Carriage κ μ]

def perform (walk : Walk) (a : Actor κ μ) (op : Op) : Actor κ μ :=
  { a with station := a.station.step walk op }.forward

def handle (walk : Walk) (now : Nat) (a : Actor κ μ) (r : Request) : Actor κ μ :=
  let a := match r with
    | .query q => { a with answers := a.answers ++ [a.station.engine.answer q] }
    | _ => a
  match r.op? now with
  | some op => a.perform walk op
  | none => a.forward

inductive Source
  | requests
  | inbox
  | discovery
  | clock
  deriving DecidableEq

/-- Takes one thing from a source, or does nothing if there is nothing. Only when the requests are
at their end and all taken does the task end. -/
def poll (walk : Walk) (now : Nat) (a : Actor κ μ) (source : Source) : Actor κ μ :=
  if a.ended then a
  else
    match source with
    | .requests =>
      match a.requests with
      | r :: rest => { a with requests := rest }.handle walk now r
      | [] => if a.closed then { a.perform walk .shutdown with ended := true } else a
    | .inbox =>
      match a.inbox with
      | d :: rest => { a with inbox := rest }.perform walk (.receive d.routingId d.content now)
      | [] => a
    | .discovery =>
      match a.sightings with
      | s :: rest => { a with sightings := rest }.perform walk (.discover s now)
      | [] => a
    | .clock => a.perform walk (.reap now)

inductive Move
  | post (request : Request)
  | close
  | deliver (delivery : Delivery)
  | sight (sighting : Sighting)
  | poll (source : Source) (now : Nat)
  deriving DecidableEq

def move (walk : Walk) (a : Actor κ μ) : Move → Actor κ μ
  | .post r => a.post r
  | .close => a.close
  | .deliver d => a.deliver d
  | .sight s => a.sight s
  | .poll source now => a.poll walk now source

/-- The task after it broke down in the middle of one thing: nothing that waits is ever taken, and
its peers are forgotten. What it had handed on before can still be read. -/
def fail (a : Actor κ μ) : Actor κ μ :=
  { a with
    station := a.station.edit fun e =>
      { e with roster := .empty, peerGroups := .empty, events := [] }
    requests := []
    inbox := []
    sightings := []
    ended := true }

def takeRequests (walk : Walk) (now : Nat) (a : Actor κ μ) : Actor κ μ :=
  a.requests.foldl (fun a _ => a.poll walk now .requests) a

/-- Takes all requests and then ends. -/
def finish (walk : Walk) (now : Nat) (a : Actor κ μ) : Actor κ μ :=
  (a.close.takeRequests walk now).poll walk now .requests

end

def next (a : Actor κ μ) : Option Event × Actor κ μ :=
  match a.events with
  | [] => (none, a)
  | e :: rest => (some e, { a with events := rest })

def takeAnswers (a : Actor κ μ) : List Answer × Actor κ μ := (a.answers, { a with answers := [] })

def takeNotes (a : Actor κ μ) : List Note × Actor κ μ :=
  (a.station.journal.toList, { a with station := { a.station with journal := #[] } })

end Actor
end PeerMesh
