import PeerMesh.Proofs.Station.Chore

/-!
# Carriages that look the same

If connecting and sending on one carriage look like connecting and sending on another, then so does
everything that an engine does. Carriages and mailboxes are mapped by functions of their own; of an
engine, the mailboxes of its peers are all that changes.
-/

namespace PeerMesh
set_option autoImplicit false

variable {κ κ' μ μ' : Type}

/-- Connecting and sending look the same through `f` and `g`. -/
structure Mirrors [Carriage κ μ] [Carriage κ' μ'] (f : κ → κ') (g : μ → μ') : Prop where
  connect : ∀ c routingId endpoint, Carriage.connect (f c) routingId endpoint =
    ((Carriage.connect c routingId endpoint).1.map g, f (Carriage.connect c routingId endpoint).2)
  send : ∀ c box content, Carriage.send (f c) (g box) content =
    ((Carriage.send c box content).1, f (Carriage.send c box content).2)

variable {f : κ → κ'} {g : μ → μ'}

/-! ### Peers -/

namespace Peer

/-- The peer as it looks through `g`. -/
def through (g : μ → μ') (p : Peer μ) : Peer μ' := { p with mailbox := p.mailbox.map g }

theorem isConnected_through (g : μ → μ') (p : Peer μ) :
    (p.through g).isConnected = p.isConnected :=
  Option.isSome_map

theorem endpoint_through (g : μ → μ') (p : Peer μ) : (p.through g).endpoint = p.endpoint := by
  rw [endpoint, isConnected_through]
  rfl

theorem disconnectNotes_through (g : μ → μ') (p : Peer μ) :
    (p.through g).disconnectNotes = p.disconnectNotes := by
  rw [disconnectNotes, isConnected_through]
  rfl

theorem through_self (p : Peer μ) : (p.through fun box => box) = p := by
  rw [through, Option.map_id']

def Step.through {ε : Type} (f : κ → κ') (g : μ → μ') (step : Step ε κ μ) : Step ε κ' μ' :=
  ⟨step.result, step.peer.through g, f step.carriage, step.notes⟩

variable [Carriage κ μ] [Carriage κ' μ']

theorem send_through (h : Mirrors f g) (p : Peer μ) (c : κ) (body : Body) :
    (p.through g).send (f c) body = (p.send c body).through f g := by
  have hsent : (p.through g).sent = p.sent := rfl
  rcases hp : p.mailbox with _ | box
  · have hp' : (p.through g).mailbox = none := congrArg (Option.map g) hp
    rw [send, send, hp, hp']
    rfl
  · have hp' : (p.through g).mailbox = some (g box) := congrArg (Option.map g) hp
    rw [send, send, hp, hp', hsent]
    dsimp only
    cases Wire.encode ⟨p.sent + 1, body⟩ with
    | error e => rfl
    | ok frames =>
      dsimp only
      rw [h.send]
      rcases Carriage.send c box frames with ⟨e | _, c'⟩
      · dsimp only
        rw [disconnectNotes_through]
        split <;> rfl
      · rfl

end Peer

/-! ### Rosters and engines -/

namespace Roster

def through (g : μ → μ') (roster : Roster μ) : Roster μ' := roster.mapValues (·.through g)

def Fanout.through (f : κ → κ') (g : μ → μ') (sent : Fanout κ μ) : Fanout κ' μ' :=
  ⟨sent.roster.through g, f sent.carriage, sent.failed, sent.notes⟩

theorem get?_through (g : μ → μ') (roster : Roster μ) (id : PeerId) :
    (roster.through g).get? id = (roster.get? id).map (·.through g) :=
  roster.get?_mapValues _ id

theorem insert_through (g : μ → μ') (roster : Roster μ) (id : PeerId) (p : Peer μ) :
    (roster.through g).insert id (p.through g) = Roster.through g (roster.insert id p) :=
  roster.insert_mapValues _ id p

theorem sendEach_through [Carriage κ μ] [Carriage κ' μ'] (h : Mirrors f g)
    (onError : PeerId → SendError → List Note) (body : Body) (ids : List PeerId) (roster : Roster μ)
    (c : κ) : sendEach onError body ids (roster.through g) (f c) =
      (sendEach onError body ids roster c).through f g := by
  induction ids generalizing roster c with
  | nil => rfl
  | cons id ids ih =>
    rw [sendEach, sendEach, get?_through]
    cases roster.get? id with
    | none => exact ih roster c
    | some p =>
      dsimp only [Option.map_some]
      rw [Peer.send_through h, Peer.Step.through]
      dsimp only
      rw [insert_through, ih]
      cases (p.send c body).result <;> rfl

end Roster

namespace Engine

/-- The engine as it looks through `g`. -/
def through (g : μ → μ') (e : Engine μ) : Engine μ' := { e with roster := e.roster.through g }

theorem get?_through (g : μ → μ') (e : Engine μ) (id : PeerId) :
    (e.through g).roster.get? id = (e.roster.get? id).map (·.through g) :=
  e.roster.get?_through g id

theorem keys_through (g : μ → μ') (e : Engine μ) :
    (e.through g).roster.keys = e.roster.keys :=
  e.roster.keys_mapValues _

theorem readyPeer?_through (g : μ → μ') (e : Engine μ) (id : PeerId) :
    (e.through g).readyPeer? id = (e.readyPeer? id).map (·.through g) := by
  rw [readyPeer?, get?_through, readyPeer?, Option.filter_map]
  rfl

theorem nameOf_through (g : μ → μ') (e : Engine μ) (id : PeerId) :
    (e.through g).nameOf id = e.nameOf id := by
  rw [nameOf, nameOf, get?_through]
  cases e.roster.get? id <;> rfl

theorem editPeer_through {a : Peer μ → Peer μ} {a' : Peer μ' → Peer μ'}
    (h : ∀ p, a' (p.through g) = (a p).through g) (e : Engine μ) (id : PeerId) :
    (e.through g).editPeer id a' = (e.editPeer id a).through g := by
  rw [editPeer, editPeer, get?_through]
  cases e.roster.get? id with
  | none => rfl
  | some p =>
    have hinsert := e.roster.insert_through g id (a p)
    dsimp only [Option.map_some]
    rw [h, through, through, ← hinsert]

theorem putPeer_through (g : μ → μ') (e : Engine μ) (p : Peer μ) :
    (e.through g).putPeer (p.through g) = (e.putPeer p).through g := by
  have hinsert := e.roster.insert_through g p.id p
  rw [putPeer, putPeer, through, through, ← hinsert]
  rfl

theorem insert_through (g : μ → μ') (e : Engine μ) (id : PeerId) (p : Peer μ) :
    { e.through g with roster := (e.through g).roster.insert id (p.through g) } =
      ({ e with roster := e.roster.insert id p } : Engine μ).through g := by
  have hinsert := e.roster.insert_through g id p
  rw [through, through, ← hinsert]

theorem forget_through (g : μ → μ') (e : Engine μ) (id : PeerId) :
    (e.through g).forget id = (e.forget id).through g := by
  have herase : (e.roster.through g).erase id = Roster.through g (e.roster.erase id) :=
    e.roster.erase_mapValues _ id
  rw [forget, forget, through, through, ← herase]

theorem refresh_through (g : μ → μ') (e : Engine μ) (id : PeerId) (now : Nat) :
    (e.through g).refresh id now = (e.refresh id now).through g :=
  editPeer_through (a := (·.refresh now e.timing.evasive e.timing.expired)) (fun _ => rfl) e id

theorem through_self (e : Engine μ) : (e.through fun box => box) = e := by
  have hsame : (fun p : Peer μ => p.through fun box => box) = fun p => p := funext Peer.through_self
  rw [through, Roster.through, hsame, SortedMap.mapValues_self]

end Engine

/-! ### Stations -/

namespace Station

/-- The station as it looks through `f` and `g`. -/
def through (f : κ → κ') (g : μ → μ') (s : Station κ μ) : Station κ' μ' :=
  ⟨s.engine.through g, f s.carriage, s.journal⟩

theorem engine_through (f : κ → κ') (g : μ → μ') (s : Station κ μ) :
    (s.through f g).engine = s.engine.through g := rfl

theorem edit_through {s : Station κ μ} (f : κ → κ') (a : Engine μ → Engine μ)
    (a' : Engine μ' → Engine μ') (h : a' (s.engine.through g) = (a s.engine).through g) :
    (s.through f g).edit a' = (s.edit a).through f g := by
  rw [edit, engine_through, h]
  rfl

theorem note_through (f : κ → κ') (g : μ → μ') (s : Station κ μ) (notes : List Note) :
    (s.through f g).note notes = (s.note notes).through f g := rfl

theorem emit_through (f : κ → κ') (g : μ → μ') (s : Station κ μ) (events : List Event) :
    (s.through f g).emit events = (s.emit events).through f g := rfl

theorem remove_through (f : κ → κ') (g : μ → μ') (s : Station κ μ) (id : PeerId) :
    (s.through f g).remove id = (s.remove id).through f g := by
  rw [remove, remove, engine_through, Engine.get?_through]
  cases s.engine.roster.get? id with
  | none => rfl
  | some p =>
    have hforget := edit_through f (·.forget id) (·.forget id) (s.engine.forget_through g id)
    have hname : (p.through g).declaredName = p.declaredName := rfl
    dsimp only [Option.map_some]
    rw [hforget, Peer.disconnectNotes_through, hname]
    cases p.declaredName <;> rfl

theorem foldl_through {α : Type} {a : Station κ μ → α → Station κ μ}
    {a' : Station κ' μ' → α → Station κ' μ'}
    (h : ∀ s x, a' (s.through f g) x = (a s x).through f g) (s : Station κ μ) (l : List α) :
    l.foldl a' (s.through f g) = (l.foldl a s).through f g := by
  induction l generalizing s with
  | nil => rfl
  | cons x l ih => rw [List.foldl_cons, List.foldl_cons, h, ih]

theorem removeIfLost_through (f : κ → κ') (g : μ → μ') (s : Station κ μ) (id : PeerId)
    (result : SendResult) :
    (s.through f g).removeIfLost id result = (s.removeIfLost id result).through f g := by
  unfold removeIfLost
  split
  · exact remove_through f g s id
  · rfl

theorem setHeader_through (f : κ → κ') (g : μ → μ') (s : Station κ μ) (key value : String) :
    ((s.through f g).setHeader key value).2 = (s.setHeader key value).2.through f g := by
  have hheaders : (s.through f g).engine.headers = s.engine.headers := rfl
  rw [setHeader, setHeader, hheaders]
  cases checkHeader s.engine.headers key value <;> rfl

theorem purge_through (f : κ → κ') (g : μ → μ') (walk : Walk) (s : Station κ μ)
    (endpoint : String) : (s.through f g).purge walk endpoint = (s.purge walk endpoint).through f g := by
  rw [purge, purge, engine_through, Engine.keys_through]
  refine .trans (congrArg (List.foldl _ _) (List.filter_congr fun id _ => ?_))
    (foldl_through (fun s id => remove_through f g (s.note [.purging id endpoint]) id) s _)
  rw [Engine.get?_through]
  cases s.engine.roster.get? id with
  | none => rfl
  | some p =>
    dsimp only [Option.map_some]
    rw [Peer.endpoint_through]

theorem shutdown_through (f : κ → κ') (g : μ → μ') (walk : Walk) (s : Station κ μ) :
    (s.through f g).shutdown walk = (s.shutdown walk).through f g := by
  have hstopped : (s.through f g).engine.stopped = s.engine.stopped := rfl
  have hsize : (s.through f g).engine.roster.size = s.engine.roster.size :=
    s.engine.roster.size_mapValues _
  rw [shutdown, shutdown, hstopped, hsize, engine_through, Engine.keys_through]
  split
  · rfl
  · refine congrArg (fun closing => (((s.through f g).note
      (.shuttingDown s.engine.name s.engine.roster.size ::
        (walk.order s.engine.roster.keys).flatMap closing)).edit
      fun e => { e with roster := .empty, peerGroups := .empty, stopped := true }).emit [.stop])
      (funext fun id => ?_)
    rw [Engine.get?_through]
    cases s.engine.roster.get? id with
    | none => rfl
    | some p => exact p.disconnectNotes_through g

theorem peerJoined_through (f : κ → κ') (g : μ → μ') (s : Station κ μ) (id : PeerId)
    (group : String) : (s.through f g).peerJoined id group = (s.peerJoined id group).through f g := by
  rw [peerJoined, peerJoined, engine_through, Engine.nameOf_through]
  rfl

theorem peerLeft_through (f : κ → κ') (g : μ → μ') (s : Station κ μ) (id : PeerId)
    (group : String) : (s.through f g).peerLeft id group = (s.peerLeft id group).through f g := by
  rw [peerLeft, peerLeft, engine_through, Engine.nameOf_through]
  rfl

theorem editPeer_through (f : κ → κ') (s : Station κ μ) (id : PeerId) {a : Peer μ → Peer μ}
    {a' : Peer μ' → Peer μ'} (h : ∀ p, a' (p.through g) = (a p).through g) :
    (s.through f g).edit (·.editPeer id a') = (s.edit (·.editPeer id a)).through f g :=
  edit_through f _ _ (Engine.editPeer_through h s.engine id)

theorem followStatus_through (f : κ → κ') (g : μ → μ') (s : Station κ μ) (id : PeerId)
    (command : Command) (status : UInt8) :
    (s.through f g).followStatus id command status =
      (s.followStatus id command status).through f g := by
  rw [followStatus, followStatus, engine_through, Engine.get?_through]
  cases s.engine.roster.get? id with
  | none => rfl
  | some p =>
    have hedit : ∀ u : Station κ μ, (u.through f g).edit (·.editPeer id ({ · with status })) =
        (u.edit (·.editPeer id ({ · with status }))).through f g :=
      fun u => editPeer_through f u id fun _ => rfl
    have hstatus : (p.through g).status = p.status := rfl
    have hname : (p.through g).name = p.name := rfl
    dsimp only [Option.map_some]
    rw [hstatus, hname]
    split
    · exact hedit s
    · exact hedit (s.note _)

theorem introduced_through (f : κ → κ') (g : μ → μ') (s : Station κ μ) (id : PeerId) (h : Hello) :
    (s.through f g).introduced id h = (s.introduced id h).through f g := by
  rw [introduced, introduced, engine_through, Engine.get?_through]
  cases s.engine.roster.get? id with
  | none => rfl
  | some p =>
    have hentered : (s.through f g).edit
        (·.editPeer id ({ · with declaredName := some h.name, headers := h.headers })) =
        (s.edit (·.editPeer id
          ({ · with declaredName := some h.name, headers := h.headers }))).through f g :=
      editPeer_through f s id fun _ => rfl
    dsimp only [Option.map_some]
    rw [hentered, Peer.endpoint_through, note_through, emit_through,
      foldl_through fun s group => peerJoined_through f g s id group]
    exact editPeer_through f _ id fun _ => rfl

section
variable [Carriage κ μ] [Carriage κ' μ']

theorem tell_through (h : Mirrors f g) (s : Station κ μ) (p : Peer μ) (body : Body) :
    (s.through f g).tell (p.through g) body =
      ((s.tell p body).1, (s.tell p body).2.through f g) := by
  have hcarriage : (s.through f g).carriage = f s.carriage := rfl
  have hinsert := s.engine.insert_through g p.id (p.send s.carriage body).peer
  rw [tell, tell, hcarriage, Peer.send_through h]
  exact congrArg (fun e => ((p.send s.carriage body).result,
    (⟨e, f (p.send s.carriage body).carriage, s.journal⟩ : Station κ' μ').note
      (p.send s.carriage body).notes)) hinsert

theorem broadcast_through (h : Mirrors f g) (walk : Walk) (s : Station κ μ) (body : Body) :
    (s.through f g).broadcast walk body = (s.broadcast walk body).through f g := by
  let sent := Roster.sendEach (fun _ _ => []) body (walk.order s.engine.roster.keys)
    s.engine.roster s.carriage
  let u := ({ s with carriage := sent.carriage }.edit
    (fun e => { e with roster := sent.roster })).note sent.notes
  have hfold := foldl_through (remove_through f g) u sent.failed
  have hsent : Roster.sendEach (fun _ _ => []) body (walk.order s.engine.roster.keys)
      (s.engine.roster.through g) (f s.carriage) = sent.through f g :=
    Roster.sendEach_through h _ body _ _ _
  rw [broadcast, engine_through, Engine.keys_through]
  dsimp only [through, Engine.through]
  rw [hsent]
  exact hfold

theorem join_through (h : Mirrors f g) (walk : Walk) (s : Station κ μ) (group : String) :
    ((s.through f g).join walk group).2 = (s.join walk group).2.through f g := by
  have hjoined : (s.through f g).engine.joined = s.engine.joined := rfl
  rw [join, join, hjoined]
  split
  · rfl
  · cases checkGroup s.engine.joined.size group with
    | error e => rfl
    | ok =>
      let u := (s.edit fun e => { e with
        joined := e.joined.insert group, status := s.engine.status + 1 }).note
          [.joining s.engine.name group (s.engine.status + 1)]
      exact broadcast_through h walk u _

theorem leave_through (h : Mirrors f g) (walk : Walk) (s : Station κ μ) (group : String) :
    (s.through f g).leave walk group = (s.leave walk group).through f g := by
  have hjoined : (s.through f g).engine.joined = s.engine.joined := rfl
  rw [leave, leave, hjoined]
  split
  · let u := (s.edit fun e => { e with
      joined := e.joined.erase group, status := s.engine.status + 1 }).note
        [.leaving s.engine.name group (s.engine.status + 1)]
    exact broadcast_through h walk u _
  · rfl

theorem whisper_through (h : Mirrors f g) (s : Station κ μ) (id : PeerId) (content : Content) :
    (s.through f g).whisper id content = (s.whisper id content).through f g := by
  rw [whisper, whisper, engine_through, Engine.get?_through]
  cases s.engine.roster.get? id with
  | none => rfl
  | some p =>
    dsimp only [Option.map_some]
    rw [tell_through h]
    exact removeIfLost_through f g _ id _

theorem shout_through (h : Mirrors f g) (s : Station κ μ) (group : String) (content : Content) :
    (s.through f g).shout group content = (s.shout group content).through f g := by
  have hgroups : (s.through f g).engine.peerGroups = s.engine.peerGroups := rfl
  rw [shout, shout, hgroups]
  cases s.engine.peerGroups.get? group with
  | none => rfl
  | some members =>
    let sent := members.send s.engine.roster s.carriage (.shout group content)
    let u := ({ s with carriage := sent.carriage }.edit
      (fun e => { e with roster := sent.roster })).note sent.notes
    have hfold := foldl_through (remove_through f g) u sent.failed
    have hsent : members.send (s.engine.roster.through g) (f s.carriage) (.shout group content) =
        sent.through f g := Roster.sendEach_through h _ _ _ _ _
    dsimp only [through, Engine.through]
    rw [hsent]
    exact hfold

/-! ### Meeting peers -/

theorem greet_through (h : Mirrors f g) (s : Station κ μ) (p : Peer μ) (endpoint : String)
    (now : Nat) : (s.through f g).greet (p.through g) endpoint now =
      ((s.greet p endpoint now).1, (s.greet p endpoint now).2.through f g) := by
  have hhello : (s.through f g).engine.hello = s.engine.hello := rfl
  have hcarriage : (s.through f g).carriage = f s.carriage := rfl
  rw [greet, greet, hhello, hcarriage, Peer.send_through h]
  dsimp only [Peer.Step.through]
  cases (p.send s.carriage (.hello s.engine.hello)).result with
  | error e => rfl
  | ok =>
    have hput := s.engine.putPeer_through g ((p.send s.carriage (.hello s.engine.hello)).peer.refresh
      now s.engine.timing.evasive s.engine.timing.expired)
    exact congrArg (fun e => (true,
      (⟨e, f (p.send s.carriage (.hello s.engine.hello)).carriage, s.journal⟩ : Station κ' μ').note
        (p.send s.carriage (.hello s.engine.hello)).notes)) hput

theorem meet_through (h : Mirrors f g) (s : Station κ μ) (id : PeerId) (endpoint : String)
    (now : Nat) : (s.through f g).meet id endpoint now =
      ((s.meet id endpoint now).1, (s.meet id endpoint now).2.through f g) := by
  have hview := h.connect s.carriage s.engine.id.routingId endpoint
  rcases hc : Carriage.connect s.carriage s.engine.id.routingId endpoint with ⟨e | box, c⟩
  · rw [hc] at hview
    rw [meet_of_error hc, meet_of_error (s := s.through f g) hview]
    rfl
  · rw [hc] at hview
    rw [meet_of_ok hc, meet_of_ok (s := s.through f g) hview]
    let u := ({ s with carriage := c } : Station κ μ).note [.mailboxOpened id endpoint]
    exact greet_through h u (.reached id box endpoint now) endpoint now

theorem require_through (h : Mirrors f g) (walk : Walk) (s : Station κ μ) (id : PeerId)
    (endpoint : String) (now : Nat) : (s.through f g).require walk id endpoint now =
      ((s.require walk id endpoint now).1, (s.require walk id endpoint now).2.through f g) := by
  have hself : (s.through f g).engine.id = s.engine.id := rfl
  have hplace : (s.through f g).engine.endpoint = s.engine.endpoint := rfl
  have hknown : (s.through f g).engine.roster.contains id = s.engine.roster.contains id :=
    s.engine.roster.contains_mapValues _ id
  rw [require, require, hself, hplace, hknown]
  split
  · rfl
  · split
    · rfl
    · rw [purge_through, meet_through h]

theorem found_through (h : Mirrors f g) (walk : Walk) (s : Station κ μ) (id : PeerId)
    (endpoint : String) (now : Nat) :
    (s.through f g).found walk id endpoint now = (s.found walk id endpoint now).through f g := by
  have hstopped : (s.through f g).engine.stopped = s.engine.stopped := rfl
  rw [found, found, hstopped, require_through h]
  split
  · rfl
  · rcases s.require walk id endpoint now with ⟨_ | _, u⟩
    · rfl
    · exact edit_through f _ _ (u.engine.refresh_through g id now)

theorem discover_through (h : Mirrors f g) (walk : Walk) (s : Station κ μ) (sighting : Sighting)
    (now : Nat) :
    (s.through f g).discover walk sighting now = (s.discover walk sighting now).through f g := by
  cases sighting with
  | found id endpoint => exact found_through h walk s id endpoint now
  | lost id =>
    have hstopped : (s.through f g).engine.stopped = s.engine.stopped := rfl
    have hknown : (s.through f g).engine.roster.contains id = s.engine.roster.contains id :=
      s.engine.roster.contains_mapValues _ id
    rw [discover, discover, lost, lost, hstopped, hknown]
    split
    · rfl
    · exact remove_through f g (s.note [.discoveryLost id]) id

/-! ### Messages from peers -/

theorem act_through (h : Mirrors f g) (s : Station κ μ) (id : PeerId) (body : Body) :
    (s.through f g).act id body = (s.act id body).through f g := by
  cases body with
  | hello hello => exact introduced_through f g s id hello
  | join group status =>
    rw [act, act, peerJoined_through]
    exact followStatus_through f g (s.peerJoined id group) id .join status
  | leave group status =>
    rw [act, act, peerLeft_through]
    exact followStatus_through f g (s.peerLeft id group) id .leave status
  | ping =>
    rw [act, act, engine_through, Engine.get?_through]
    cases s.engine.roster.get? id with
    | none => rfl
    | some p =>
      dsimp only [Option.map_some]
      rw [tell_through h]
      exact removeIfLost_through f g _ id _
  | whisper | shout =>
    rw [act, act, engine_through, Engine.nameOf_through]
    rfl
  | pingOk => rfl

theorem accept_through (h : Mirrors f g) (s : Station κ μ) (id : PeerId) (m : Message) (now : Nat) :
    (s.through f g).accept id m now = (s.accept id m now).through f g := by
  rw [accept, accept, engine_through, Engine.readyPeer?_through]
  cases s.engine.readyPeer? id with
  | none => rfl
  | some p =>
    let u := (s.edit (·.editPeer id (·.advance m))).note (p.receiveNotes m)
    have hadvance : (s.through f g).edit (·.editPeer id (·.advance m)) =
        (s.edit (·.editPeer id (·.advance m))).through f g := editPeer_through f s id fun _ => rfl
    have hnotes : (p.through g).receiveNotes m = p.receiveNotes m := rfl
    have hloss : (p.through g).showsLoss m = p.showsLoss m := rfl
    dsimp only [Option.map_some]
    rw [hadvance, hnotes, note_through, hloss]
    split
    · exact remove_through f g (u.note [.lostMessages id]) id
    · rw [act_through h]
      exact edit_through f _ _ (Engine.refresh_through g _ id now)

theorem welcome_through (h : Mirrors f g) (walk : Walk) (s : Station κ μ) (id : PeerId)
    (endpoint : String) (now : Nat) : (s.through f g).welcome walk id endpoint now =
      ((s.welcome walk id endpoint now).1, (s.welcome walk id endpoint now).2.through f g) := by
  have hready : ((s.through f g).engine.readyPeer? id).isSome =
      (s.engine.readyPeer? id).isSome := by
    rw [engine_through, Engine.readyPeer?_through, Option.isSome_map]
  have hfirst : (if (s.engine.readyPeer? id).isSome then
      ((s.through f g).note [.greetedAgain id]).remove id else s.through f g) =
      (if (s.engine.readyPeer? id).isSome then (s.note [.greetedAgain id]).remove id
        else s).through f g := by
    split
    · exact remove_through f g (s.note [.greetedAgain id]) id
    · rfl
  rw [welcome, welcome, hready, hfirst, require_through h]
  generalize (if (s.engine.readyPeer? id).isSome then
    (s.note [.greetedAgain id]).remove id else s) = t
  rcases t.require walk id endpoint now with ⟨_ | _, u⟩
  · rfl
  · exact congrArg (Prod.mk true) (editPeer_through f u id fun _ => rfl)

theorem receive_through (h : Mirrors f g) (walk : Walk) (s : Station κ μ) (routingId : List UInt8)
    (frames : Content) (now : Nat) : (s.through f g).receive walk routingId frames now =
      (s.receive walk routingId frames now).through f g := by
  have hstopped : (s.through f g).engine.stopped = s.engine.stopped := rfl
  rw [receive, receive, hstopped]
  split
  · rfl
  · cases Wire.decode frames with
    | error e => rfl
    | ok m =>
      cases PeerId.ofRoutingId? routingId with
      | none => rfl
      | some id =>
        dsimp only
        split
        · rename_i hello _
          rw [welcome_through h]
          rcases s.welcome walk id hello.endpoint now with ⟨_ | _, u⟩
          · rfl
          · exact accept_through h u id m now
        · exact accept_through h s id m now

/-! ### Silence -/

theorem reapPeer_through (h : Mirrors f g) (now : Nat) (s : Station κ μ) (id : PeerId) :
    (s.through f g).reapPeer now id = (s.reapPeer now id).through f g := by
  rw [reapPeer, reapPeer, engine_through, Engine.get?_through]
  cases s.engine.roster.get? id with
  | none => rfl
  | some p =>
    have htell := tell_through h s { p with evasive := true } .ping
    dsimp only [Peer.through] at htell
    dsimp only [Option.map_some, Peer.through]
    rw [htell]
    split
    · exact remove_through f g (s.note [.expired id p.name]) id
    · split
      · generalize s.tell { p with evasive := true } .ping = told
        obtain ⟨result, u⟩ := told
        cases p.declaredName with
        | none => exact removeIfLost_through f g u id result
        | some name =>
          exact removeIfLost_through f g ((u.note [.evasive id name]).emit [.evasive id name]) id
            result
      · rfl

theorem perform_through (h : Mirrors f g) (walk : Walk) (s : Station κ μ) (op : Op) :
    ((s.through f g).perform walk op).2 = (s.perform walk op).2.through f g := by
  cases op with
  | setHeader key value => exact setHeader_through f g s key value
  | join group => exact join_through h walk s group
  | leave group => exact leave_through h walk s group
  | whisper id content => exact whisper_through h s id content
  | shout group content => exact shout_through h s group content
  | shutdown => exact shutdown_through f g walk s
  | discover sighting now => exact discover_through h walk s sighting now
  | receive routingId frames now => exact receive_through h walk s routingId frames now
  | reap now =>
    have hstopped : (s.through f g).engine.stopped = s.engine.stopped := rfl
    rw [perform, perform, reap, reap, hstopped, engine_through, Engine.keys_through]
    dsimp only
    split
    · rfl
    · exact foldl_through (reapPeer_through h now) s _
  | drain => rfl

end

end Station
end PeerMesh
