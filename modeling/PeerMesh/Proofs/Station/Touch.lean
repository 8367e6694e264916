import PeerMesh.Proofs.Station.Reaping
import PeerMesh.Proofs.Station.Walks
import PeerMesh.Proofs.World.Answering
import PeerMesh.Proofs.World.Bond

/-!
# Keeping in touch

A station is in touch with another node if it has an entry for it, and if the inboxes between the
two hold nothing but what they say to each other. Whatever is done about third nodes is done at
other inboxes and leaves the bond as it is. What is done about the other node is a step of the bond.
-/

namespace PeerMesh
set_option autoImplicit false

/-! ### Departures -/

namespace Event

def isExit : Event → Bool
  | .exit .. => true
  | _ => false

/-- How often events report that a peer is gone. -/
def exits (id : PeerId) (events : List Event) : Nat := (concerning id events).countP isExit

theorem exits_append (id : PeerId) (events new : List Event) :
    exits id (events ++ new) = exits id events + exits id new := by
  rw [exits, concerning_append, List.countP_append]
  rfl

theorem exits_append_of_staying (id : PeerId) (events : List Event) {new : List Event}
    (h : ∀ ev ∈ new, ev.isExit = false) : exits id (events ++ new) = exits id events := by
  have hnone : exits id new = 0 := List.countP_eq_zero.mpr fun ev hev =>
    Bool.eq_false_iff.mp (h ev (List.mem_of_mem_filter hev))
  rw [exits_append, hnone, Nat.add_zero]

end Event

theorem Body.isExit_reports (body : Body) (id : PeerId) (name : String) :
    ∀ ev ∈ body.reports id name, ev.isExit = false := by
  intro ev hev
  cases body with
  | hello | ping | pingOk => cases hev
  | whisper | shout | join | leave =>
    rw [List.mem_singleton.mp hev]
    rfl

/-! ### The inbox between two nodes -/

namespace Network
variable {net net' : Network} {id : PeerId} {endpoint place : String} {said rest : List Message}
  {m : Message}

/-- An inbox without a limit, in which only messages of one node wait. -/
structure Brings (net : Network) (id : PeerId) (endpoint : String) (said : List Message) :
    Prop where
  unlimited : net.capacities.get? endpoint = none
  inbox : ∃ queue, net.inboxes.get? endpoint = some queue ∧
    List.Forall₂ (fun d m => d.routingId = id.routingId ∧ Wire.decode d.content = .ok m) queue said

namespace Brings

theorem alike (h : net.Brings id endpoint said) {owner : String → PeerId} {a : PeerId}
    (halike : net.Alike owner a net') (ha : owner endpoint = a) : net'.Brings id endpoint said where
  unlimited := halike.capacities ▸ h.unlimited
  inbox := halike.inbox ha ▸ h.inbox

theorem fill (h : net.Brings id endpoint said) (hne : endpoint ≠ place) (queue : List Delivery) :
    Brings { net with inboxes := net.inboxes.insert place queue } id endpoint said where
  unlimited := h.unlimited
  inbox := by
    rw [SortedMap.get?_insert, if_neg hne]
    exact h.inbox

theorem send_other (h : net.Brings id endpoint said) {box : Mailbox} (hne : endpoint ≠ box.endpoint)
    (frames : Content) : (net.send box frames).2.Brings id endpoint said := by
  unfold Network.send
  split
  · exact h
  · split
    · exact h
    · exact h.fill hne _

theorem send (h : net.Brings id endpoint said) {frames : Content}
    (hf : Wire.encode m = .ok frames) :
    (net.send ⟨endpoint, id.routingId⟩ frames).1 = .ok () ∧
      (net.send ⟨endpoint, id.routingId⟩ frames).2.Brings id endpoint (said ++ [m]) := by
  obtain ⟨queue, hqueue, hsaid⟩ := h.inbox
  have hroom : net.isFull endpoint = false := by rw [isFull, h.unlimited]
  rw [Network.send, hqueue]
  dsimp only
  rw [hroom, if_neg Bool.false_ne_true]
  refine ⟨rfl, h.unlimited, queue ++ [⟨id.routingId, frames⟩], ?_, ?_⟩
  · rw [SortedMap.get?_insert, if_pos rfl]
  · exact List.rel_append hsaid (.cons ⟨rfl, Wire.decode_of_encode hf⟩ .nil)

theorem receive_other (h : net.Brings id endpoint said) (hne : endpoint ≠ place) :
    (net.receive place).2.Brings id endpoint said := by
  unfold Network.receive
  split
  · exact h
  · exact h.fill hne _

theorem receive (h : net.Brings id endpoint (m :: rest)) : ∃ d, (net.receive endpoint).1 = some d ∧
    d.routingId = id.routingId ∧ Wire.decode d.content = .ok m ∧
      (net.receive endpoint).2.Brings id endpoint rest := by
  obtain ⟨queue, hqueue, hsaid⟩ := h.inbox
  cases hsaid with
  | @cons d _ queue _ hd hrest =>
    have hwaiting : net.waiting endpoint = d :: queue := by
      rw [waiting, hqueue]
      rfl
    rw [Network.receive, hwaiting]
    refine ⟨d, rfl, hd.1, hd.2, h.unlimited, queue, ?_, hrest⟩
    rw [SortedMap.get?_insert, if_pos rfl]

theorem receive_nil (h : net.Brings id endpoint []) : net.receive endpoint = (none, net) := by
  obtain ⟨queue, hqueue, hsaid⟩ := h.inbox
  cases hsaid
  rw [Network.receive, waiting, hqueue]
  rfl

theorem eq_nil (h : net.Brings id endpoint said) (hwaiting : net.waiting endpoint = []) :
    said = [] := by
  obtain ⟨queue, hqueue, hsaid⟩ := h.inbox
  rw [waiting, hqueue] at hwaiting
  obtain rfl : queue = [] := hwaiting
  cases hsaid
  rfl

end Brings
end Network

/-! ### One engine -/

/-- The entry of a peer says what there is to say about the contact with it. -/
structure Peer.Reflects (p : Peer Network.Mailbox) (me whom : Party) (x : Contact) : Prop where
  mailbox : p.mailbox = some ⟨whom.endpoint, me.id.routingId⟩
  lastEndpoint : p.lastEndpoint = whom.endpoint
  ready : p.ready = true
  sent : p.sent = x.sent
  want : p.want = x.want
  pulse : p.pulse = x.pulse

namespace Engine
variable {e e' : Engine Network.Mailbox} {me whom : Party} {x x' : Contact}
  {p p' : Peer Network.Mailbox}

/-- The engine of `me` has contact `x` with `whom`; it may know other nodes too. -/
structure Holds (e : Engine Network.Mailbox) (me whom : Party) (x : Contact) : Prop where
  sound : e.Sound
  homed : ∀ {id p}, e.roster.get? id = some p →
    ∃ box, p.mailbox = some box ∧ box.endpoint = p.lastEndpoint
  id : e.id = me.id
  endpoint : e.endpoint = me.endpoint
  timing : e.timing = me.timing
  entry : ∃ p, e.roster.get? whom.id = some p ∧ p.Reflects me whom x
  exits : Event.exits whom.id e.events = x.exits

namespace Holds

theorem running (h : e.Holds me whom x) : e.stopped = false := by
  obtain ⟨p, hp, -⟩ := h.entry
  exact h.sound.running hp

theorem id_ne (h : e.Holds me whom x) : whom.id ≠ me.id := by
  obtain ⟨p, hp, -⟩ := h.entry
  exact h.id ▸ h.sound.foreign_id hp

theorem endpoint_ne (h : e.Holds me whom x) : whom.endpoint ≠ me.endpoint := by
  obtain ⟨p, hp, hx⟩ := h.entry
  have hforeign := h.sound.foreign_endpoint hp
  rwa [Peer.endpoint, h.sound.connected hp, if_pos rfl, hx.lastEndpoint, h.endpoint] at hforeign

/-- What is still to be read is no concern of the engine. -/
theorem unread (h : e.Holds me whom x) (inbox : List Message) :
    e.Holds me whom { x with inbox } where
  sound := h.sound
  homed := h.homed
  id := h.id
  endpoint := h.endpoint
  timing := h.timing
  entry := by
    obtain ⟨p, hp, hx⟩ := h.entry
    exact ⟨p, hp, hx.mailbox, hx.lastEndpoint, hx.ready, hx.sent, hx.want, hx.pulse⟩
  exits := h.exits

theorem alike (h : e.Holds me whom x) (ha : e.Alike whom.id e') (hs : e'.Sound)
    (hh : ∀ {id p}, e'.roster.get? id = some p →
      ∃ box, p.mailbox = some box ∧ box.endpoint = p.lastEndpoint) : e'.Holds me whom x where
  sound := hs
  homed := hh
  id := ha.self.id.trans h.id
  endpoint := ha.self.endpoint.trans h.endpoint
  timing := ha.self.timing.trans h.timing
  entry := ha.entry ▸ h.entry
  exits := by
    rw [Event.exits, ha.told]
    exact h.exits

/-- The engine changes what it says of itself. -/
theorem own (h : e.Holds me whom x) (hs : e'.Sound) (hid : e'.id = e.id)
    (hendpoint : e'.endpoint = e.endpoint) (htiming : e'.timing = e.timing)
    (hr : e'.roster = e.roster) (hexits : Event.exits whom.id e'.events = x'.exits)
    (hx : x' = { x with exits := x'.exits }) : e'.Holds me whom x' where
  sound := hs
  homed hp := h.homed (hr ▸ hp)
  id := hid.trans h.id
  endpoint := hendpoint.trans h.endpoint
  timing := htiming.trans h.timing
  entry := by
    obtain ⟨p, hp, hreflects⟩ := h.entry
    rw [hx]
    exact ⟨p, hr ▸ hp, hreflects.mailbox, hreflects.lastEndpoint, hreflects.ready, hreflects.sent,
      hreflects.want, hreflects.pulse⟩
  exits := hexits

/-- The entry of the other node is replaced. -/
theorem renew (h : e.Holds me whom x) (hs : e'.Sound) (hself : e.SameSelf e')
    (hr : e'.roster = e.roster.insert whom.id p') (hx : p'.Reflects me whom x')
    (hexits : Event.exits whom.id e'.events = x'.exits) : e'.Holds me whom x' where
  sound := hs
  homed {id q} hq := by
    rw [hr, SortedMap.get?_insert] at hq
    split at hq
    · obtain rfl := Option.some.inj hq
      exact ⟨_, hx.mailbox, hx.lastEndpoint.symm⟩
    · exact h.homed hq
  id := hself.id.trans h.id
  endpoint := hself.endpoint.trans h.endpoint
  timing := hself.timing.trans h.timing
  entry := ⟨p', by rw [hr, SortedMap.get?_insert, if_pos rfl], hx⟩
  exits := hexits

theorem refresh (h : e.Holds me whom x) (now : Nat) :
    (e.refresh whom.id now).Holds me whom { x with pulse := me.timing.pulse now } := by
  obtain ⟨p, hp, hx⟩ := h.entry
  have hedit := editPeer_of_some hp (·.refresh now e.timing.evasive e.timing.expired)
  have hpulse : (p.refresh now e.timing.evasive e.timing.expired).pulse = me.timing.pulse now := by
    rw [← h.timing]
    rfl
  refine h.renew ((e.shifts_refresh whom.id now).sound h.sound) (e.shifts_refresh whom.id now).self
    (congrArg Engine.roster hedit)
    ⟨hx.mailbox, hx.lastEndpoint, hx.ready, hx.sent, hx.want, hpulse⟩ ?_
  exact (congrArg (Event.exits whom.id ·.events) hedit).trans h.exits

theorem heeded (h : e.Holds me whom x) (hp : e.roster.get? whom.id = some p)
    (body : Body) :
    (e.heeded whom.id p body).Holds me whom { x with want := x.want + 1 } := by
  obtain ⟨p₀, hp₀, hx⟩ := h.entry
  obtain rfl := Option.some.inj (hp.symm.trans hp₀)
  refine h.renew (h.sound.heeded hp hx.ready body) (e.sameSelf_heeded whom.id p body)
    (e.roster_heeded whom.id p body)
    ⟨hx.mailbox, hx.lastEndpoint, hx.ready, hx.sent, congrArg (· + 1) hx.want, hx.pulse⟩ ?_
  exact (Event.exits_append_of_staying whom.id e.events (body.isExit_reports whom.id p.name)).trans
    h.exits

end Holds
end Engine

/-! ### Operations -/

/-- Whether an operation may part with a peer that is well. -/
def Op.severs : Op → Bool
  | .shutdown | .discover (.lost _) _ => true
  | _ => false

/-- When an operation looks for silent peers, if it does. -/
def Op.sweep? : Op → Option Nat
  | .reap now => some now
  | _ => none

theorem Op.eq_reap {op : Op} {now : Nat} (h : op.sweep? = some now) : op = .reap now := by
  cases op with
  | reap => exact congrArg Op.reap (Option.some.inj h)
  | _ => cases h

namespace Station
variable {s t : Station Network Network.Mailbox} {me whom : Party} {b : Bond} {id : PeerId}
  {body : Body} {ids : List PeerId}

/-- The station of `me` is in touch with `whom`. -/
structure InTouch (s : Station Network Network.Mailbox) (me whom : Party) (b : Bond) : Prop where
  holds : s.engine.Holds me whom b.near
  inbox : s.carriage.Brings whom.id me.endpoint b.near.inbox
  outbox : s.carriage.Brings me.id whom.endpoint b.far.inbox

namespace InTouch

theorem congr (h : s.InTouch me whom b) (he : t.engine = s.engine) (hc : t.carriage = s.carriage) :
    t.InTouch me whom b :=
  ⟨he ▸ h.holds, hc ▸ h.inbox, hc ▸ h.outbox⟩

/-- The endpoints of the peers have owners. The endpoint of the node itself belongs to none of them,
so that it can be counted with those of the node that it is in touch with. -/
theorem exists_owner (h : s.InTouch me whom b) : ∃ owner : String → PeerId, s.Placed owner ∧
    owner me.endpoint = whom.id ∧ owner whom.endpoint = whom.id := by
  obtain ⟨owner, hplaced⟩ := exists_placed h.holds.sound ⟨h.holds.homed⟩
  refine ⟨fun place => if place = me.endpoint then whom.id else owner place, fun {id p} hp => ?_,
    if_pos rfl, ?_⟩
  · have hplace := hplaced hp
    have hforeign := h.holds.sound.foreign_endpoint hp
    rw [hplace.endpoint, h.holds.endpoint] at hforeign
    exact ⟨hplace.filed, (if_neg hforeign).trans hplace.owned, hplace.mailbox⟩
  · obtain ⟨p, hp, hx⟩ := h.holds.entry
    exact (if_neg h.holds.endpoint_ne).trans (hx.lastEndpoint ▸ (hplaced hp).owned)

/-- Something is done about a third node. -/
theorem aside (h : s.InTouch me whom b)
    {f : Station Network Network.Mailbox → Station Network Network.Mailbox} (hid : whom.id ≠ id)
    (hf : ∀ owner, About owner id f) (hs : (f s).engine.Sound) :
    (f s).InTouch me whom b := by
  obtain ⟨owner, hplaced, hme, hwhom⟩ := h.exists_owner
  have halike := (hf owner).others hplaced hid
  refine ⟨h.holds.alike halike.engine hs fun hp => ?_, h.inbox.alike halike.carriage hme,
    h.outbox.alike halike.carriage hwhom⟩
  exact ((hf owner).placed hplaced hp).mailbox

/-! #### Sending -/

theorem posted (h : s.InTouch me whom b) (hposted : s.Posted whom.id body t) {frames : Content}
    (hf : Wire.encode ⟨b.near.sent + 1, body⟩ = .ok frames) : t.InTouch me whom (b.say body) := by
  obtain ⟨p, hp, hx⟩ := h.holds.entry
  have hshifts := hposted.shifts
  rw [← hx.sent] at hf
  obtain ⟨result, hsend, htaken, -⟩ := hposted.sends hp hx.mailbox hf
  obtain ⟨hok, hbrings⟩ := h.outbox.send hf
  have hnet : (s.carriage.send ⟨whom.endpoint, me.id.routingId⟩ frames).2 = t.carriage :=
    congrArg Prod.snd hsend
  have he := htaken ((congrArg Prod.fst hsend).symm.trans hok)
  rw [hx.sent] at hbrings
  refine ⟨?_, hnet ▸ h.inbox.send_other h.holds.endpoint_ne.symm frames, hnet ▸ hbrings⟩
  refine h.holds.renew (hshifts.sound h.holds.sound) hshifts.self (congrArg Engine.roster he)
    ⟨hx.mailbox, hx.lastEndpoint, hx.ready, congrArg (· + 1) hx.sent, hx.want, hx.pulse⟩ ?_
  exact (congrArg (Event.exits whom.id ·.events) he).trans h.holds.exits

theorem post (h : s.InTouch me whom b) {frames : Content}
    (hf : Wire.encode ⟨b.near.sent + 1, body⟩ = .ok frames) :
    (s.post whom.id body).InTouch me whom (b.say body) :=
  h.posted (s.posted_post whom.id body fun _ => h.holds.sound.filed) hf

/-- To the other node there is one message more to read, or it had no form. -/
theorem posts (h : s.InTouch me whom b) (body : Body) (hb : body.command ≠ .hello)
    (ids : List PeerId) :
    ∃ bodies : List Body, (∀ body ∈ bodies, body.command ≠ .hello) ∧
      (s.posts body ids).InTouch me whom (bodies.foldl Bond.say b) := by
  induction ids generalizing s b with
  | nil => exact ⟨[], by simp, h⟩
  | cons id ids ih =>
    by_cases hid : whom.id = id
    · subst hid
      cases hf : Wire.encode ⟨b.near.sent + 1, body⟩ with
      | ok frames =>
        obtain ⟨bodies, hbodies, htouch⟩ := ih (h.post hf)
        exact ⟨body :: bodies, List.forall_mem_cons.mpr ⟨hb, hbodies⟩, htouch⟩
      | error e =>
        obtain ⟨p, hp, hx⟩ := h.holds.entry
        rw [← hx.sent] at hf
        have hposted := s.posted_post whom.id body fun _ => h.holds.sound.filed
        obtain ⟨he, hc⟩ := hposted.same_of_formless hp hf
        exact ih (h.congr he hc)
    · have hsound := (s.posted_post id body fun _ => h.holds.sound.filed).shifts.sound h.holds.sound
      exact ih (h.aside hid (fun owner => about_post owner id body) hsound)

theorem broadcast (h : s.InTouch me whom b) (walk : Walk) (body : Body)
    (hb : body.command ≠ .hello) :
    ∃ bodies : List Body, (∀ body ∈ bodies, body.command ≠ .hello) ∧
      (s.broadcast walk body).InTouch me whom (bodies.foldl Bond.say b) := by
  have hannounced := announced_broadcast h.holds.sound walk body
  obtain ⟨bodies, hbodies, htouch⟩ := h.posts body hb (walk.order s.engine.roster.keys)
  exact ⟨bodies, hbodies, htouch.congr hannounced.engine hannounced.carriage⟩

/-! #### Commands -/

theorem own (h : s.InTouch me whom b) {e : Engine Network.Mailbox} (hs : e.Sound)
    (hid : e.id = s.engine.id) (hendpoint : e.endpoint = s.engine.endpoint)
    (htiming : e.timing = s.engine.timing) (hr : e.roster = s.engine.roster)
    (hev : e.events = s.engine.events) : InTouch ⟨e, s.carriage, s.journal⟩ me whom b where
  holds := h.holds.own hs hid hendpoint htiming hr (hev ▸ h.holds.exits) rfl
  inbox := h.inbox
  outbox := h.outbox

theorem drain (h : s.InTouch me whom b) : s.drain.2.InTouch me whom b.take where
  holds := h.holds.own (h.holds.sound.withEvents []) rfl rfl rfl rfl rfl rfl
  inbox := h.inbox
  outbox := h.outbox

theorem command (h : s.InTouch me whom b) (walk : Walk) {op : Op} (hlocal : op.isLocal = true)
    (hstays : op.severs = false) (hdrain : op ≠ .drain) (hsweep : op.sweep? = none) :
    ∃ bodies : List Body, (∀ body ∈ bodies, body.command ≠ .hello) ∧
      (s.step walk op).InTouch me whom (bodies.foldl Bond.say b) := by
  have hnone : ∀ body ∈ ([] : List Body), body.command ≠ .hello := by simp
  rw [step]
  cases op with
  | setHeader key value =>
    rw [perform, setHeader]
    split
    · exact ⟨[], hnone, h⟩
    · rename_i hok
      have hsound := h.holds.sound.withOwn (h.holds.sound.presentable.dress hok) rfl rfl rfl rfl rfl
      exact ⟨[], hnone, h.own hsound rfl rfl rfl rfl rfl⟩
  | join group =>
    rw [perform, join]
    split
    · exact ⟨[], hnone, h⟩
    · split
      · exact ⟨[], hnone, h⟩
      · rename_i hok
        let u := (s.edit (·.enlist group)).note [.joining s.engine.name group (s.engine.status + 1)]
        have hu : u.InTouch me whom b :=
          (h.own (h.holds.sound.enlist hok) rfl rfl rfl rfl rfl).congr rfl rfl
        exact hu.broadcast walk (.join group (s.engine.status + 1)) (fun hb => by cases hb)
  | leave group =>
    rw [perform, leave]
    split
    · let u := (s.edit (·.delist group)).note [.leaving s.engine.name group (s.engine.status + 1)]
      have hu : u.InTouch me whom b :=
        (h.own (h.holds.sound.delist group) rfl rfl rfl rfl rfl).congr rfl rfl
      exact hu.broadcast walk (.leave group (s.engine.status + 1)) (fun hb => by cases hb)
    · exact ⟨[], hnone, h⟩
  | whisper id content =>
    rw [perform]
    cases hp : s.engine.roster.get? id with
    | none =>
      rw [whisper, hp]
      exact ⟨[], hnone, h.congr rfl rfl⟩
    | some p =>
      rw [whisper_eq_post hp]
      exact h.posts (.whisper content) (fun hb => by cases hb) [id]
  | shout group content =>
    rw [perform]
    cases hg : s.engine.peerGroups.get? group with
    | none =>
      rw [shout, hg]
      exact ⟨[], hnone, h.congr rfl rfl⟩
    | some g =>
      obtain ⟨he, hc⟩ := shout_eq_posts h.holds.sound hg content
      obtain ⟨bodies, hbodies, htouch⟩ :=
        h.posts (.shout group content) (fun hb => by cases hb) g.members.toList
      exact ⟨bodies, hbodies, htouch.congr he hc⟩
  | shutdown => cases hstays
  | discover sighting now =>
    cases sighting with
    | found => cases hlocal
    | lost => cases hstays
  | receive => cases hlocal
  | reap => cases hsweep
  | drain => exact absurd rfl hdrain

/-! #### Signs of life -/

theorem refresh (h : s.InTouch me whom b) (now : Nat) :
    (s.edit (·.refresh whom.id now)).InTouch me whom (b.beat (me.timing.pulse now)) where
  holds := h.holds.refresh now
  inbox := h.inbox
  outbox := h.outbox

theorem found (h : s.InTouch me whom b) (walk : Walk) (now : Nat) :
    (s.found walk whom.id whom.endpoint now).InTouch me whom (b.beat (me.timing.pulse now)) := by
  obtain ⟨p, hp, -⟩ := h.holds.entry
  have hknown := require_of_some (h.holds.id ▸ h.holds.id_ne)
    (h.holds.endpoint ▸ h.holds.endpoint_ne) hp walk now
  rw [Station.found, if_neg (Bool.eq_false_iff.mp h.holds.running), hknown]
  exact h.refresh now

/-- The oldest message of the other node, which was taken out of the inbox. -/
theorem receive {m : Message} {rest : List Message} (hm : b.near.inbox = m :: rest)
    (h : s.InTouch me whom ⟨{ b.near with inbox := rest }, b.far⟩) {routingId : List UInt8}
    {frames : Content} (hrouting : routingId = whom.id.routingId)
    (hdecode : Wire.decode frames = .ok m)
    (hnumber : m.sequence = b.near.want + 1) (hhello : m.isHello = false) (walk : Walk)
    {last now : Nat} (hnow : last ≤ now) : ∃ b', Bond.Step me.timing last b none b' ∧
      (s.receive walk routingId frames now).InTouch me whom b' := by
  obtain ⟨p, hp, hx⟩ := h.holds.entry
  have hready : s.engine.readyPeer? whom.id = some p := Engine.readyPeer?_eq_some.mpr ⟨hp, hx.ready⟩
  have hnext : p.showsLoss m = false :=
    (Peer.showsLoss_eq_false hhello).mpr (hx.want ▸ hnumber)
  have hsender : PeerId.ofRoutingId? routingId = some whom.id := by
    rw [hrouting, PeerId.ofRoutingId?_routingId]
  have hread : ∀ {t : Station Network Network.Mailbox},
      t.engine = s.engine.heeded whom.id p m.body → t.carriage = s.carriage →
      t.InTouch me whom (b.read rest) := fun he hc =>
    ⟨he ▸ h.holds.heeded hp m.body, hc ▸ h.inbox, hc ▸ h.outbox⟩
  rw [receive_of_not_hello h.holds.running hdecode hsender hhello, accept_of_ready hready hnext]
  by_cases hping : m.body = .ping
  · obtain ⟨frames', hf⟩ : ∃ frames, Wire.encode ⟨b.near.sent + 1, .pingOk⟩ = .ok frames := ⟨_, rfl⟩
    have hcounted := hread (engine_counted_ping hp hping) rfl
    rw [act_ping hp hping]
    exact ⟨_, .answered hm hnow, (hcounted.post hf).refresh now⟩
  · have hacted := hread (engine_act hp hhello hping) (carriage_act _ _ hping)
    exact ⟨_, .heard hm hping hnow, hacted.refresh now⟩

/-! #### Sweeps -/

theorem evade (h : s.InTouch me whom b) :
    (s.evade whom.id).InTouch me whom (b.beat { b.near.pulse with evasive := true }) := by
  obtain ⟨p, hp, hx⟩ := h.holds.entry
  have hshifts := s.shifts_evade whom.id
  have hengine := engine_evade hp
  refine ⟨?_, carriage_evade s whom.id ▸ h.inbox, carriage_evade s whom.id ▸ h.outbox⟩
  refine h.holds.renew (hshifts.sound h.holds.sound) hshifts.self (congrArg Engine.roster hengine)
    ⟨hx.mailbox, hx.lastEndpoint, hx.ready, hx.sent, hx.want, ?_⟩ ?_
  · exact congrArg (fun pulse : Pulse => { pulse with evasive := true }) hx.pulse
  · rw [hengine]
    refine (Event.exits_append_of_staying whom.id s.engine.events fun ev hev => ?_).trans
      h.holds.exits
    obtain ⟨name, -, rfl⟩ := Option.map_eq_some_iff.mp (Option.mem_toList.mp hev)
    rfl

theorem foldl_reapPeer_aside (h : s.InTouch me whom b) (hids : whom.id ∉ ids) (now : Nat) :
    (ids.foldl (reapPeer now) s).InTouch me whom b := by
  induction ids generalizing s with
  | nil => exact h
  | cons id ids ih =>
    obtain ⟨hid, hids⟩ := not_or.mp (mt List.mem_cons.mpr hids)
    have hreaped := reaped_reapPeer (s := s) (fun {_ _} => h.holds.sound.filed) now id
    exact ih (h.aside hid (fun owner => about_reapPeer owner id now)
      (hreaped.shifts.sound h.holds.sound)) hids

/-- A node that has not expired is left alone or pinged. -/
theorem reapPeer (h : s.InTouch me whom b) {now : Nat} (hnow : now < b.near.pulse.expiredAt)
    (last : Nat) : ∃ b', Bond.Step me.timing last b (some now) b' ∧
      (s.reapPeer now whom.id).InTouch me whom b' := by
  obtain ⟨p, hp, hx⟩ := h.holds.entry
  have hreaped := reaped_reapPeer (s := s) (fun {_ _} => h.holds.sound.filed) now whom.id
  generalize s.reapPeer now whom.id = t at hreaped
  cases hreaped with
  | absent hnone =>
    rw [hp] at hnone
    cases hnone
  | expired hp' hlate =>
    obtain rfl := Option.some.inj (hp.symm.trans hp')
    have hexpired : p.expiredAt = b.near.pulse.expiredAt := congrArg Pulse.expiredAt hx.pulse
    omega
  | pinged _ _ _ _ hposted =>
    obtain ⟨frames, hf⟩ : ∃ frames, Wire.encode ⟨b.near.sent + 1, .ping⟩ = .ok frames := ⟨_, rfl⟩
    exact ⟨b.ping, .pinged, h.evade.posted hposted hf⟩
  | left hp' _ hevasive ht =>
    obtain rfl := Option.some.inj (hp.symm.trans hp')
    refine ⟨b, .passed ?_, ht ▸ h⟩
    rw [← hx.pulse]
    exact hevasive

theorem reap (h : s.InTouch me whom b) (walk : Walk) {now : Nat}
    (hnow : now < b.near.pulse.expiredAt) (last : Nat) :
    ∃ b', Bond.Step me.timing last b (some now) b' ∧ (s.reap walk now).InTouch me whom b' := by
  obtain ⟨p, hp, -⟩ := h.holds.entry
  obtain ⟨before, after, hbefore, hafter, heq⟩ := exists_reap_eq hp h.holds.running walk now
  obtain ⟨b', hstep, htouch⟩ := (h.foldl_reapPeer_aside hbefore now).reapPeer hnow last
  exact ⟨b', hstep, heq ▸ htouch.foldl_reapPeer_aside hafter now⟩

/-- Whatever the application does, or the clock, is a step of the bond. -/
theorem act (h : s.InTouch me whom b) (walk : Walk) {op : Op} (hlocal : op.isLocal = true)
    (hstays : op.severs = false) (hdrain : op ≠ .drain)
    (hnow : ∀ now, op.sweep? = some now → now < b.near.pulse.expiredAt) (last : Nat) :
    ∃ b', Bond.Step me.timing last b op.sweep? b' ∧ (s.step walk op).InTouch me whom b' := by
  cases hsweep : op.sweep? with
  | none =>
    obtain ⟨bodies, hbodies, htouch⟩ := h.command walk hlocal hstays hdrain hsweep
    exact ⟨_, .said hbodies, htouch⟩
  | some now =>
    obtain rfl := Op.eq_reap hsweep
    exact h.reap walk (hnow now hsweep) last

end InTouch
end Station
end PeerMesh
