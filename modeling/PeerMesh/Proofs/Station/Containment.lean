import PeerMesh.Proofs.Station.Admission
import PeerMesh.Proofs.Station.Outbound
import PeerMesh.Proofs.Station.Reaping

/-!
# What a message leaves alone

A message that cannot be read, or that comes from nobody, changes nothing. Any other message
concerns its sender; to everybody else it does nothing, except that a greeting may make one other
peer give up its endpoint. Each edit was shown to leave the engine alike about other peers, so what
remains is to follow a message through its edits.
-/

namespace PeerMesh
set_option autoImplicit false

theorem PeerId.eq_of_ofRoutingId? {routingId : List UInt8} {id : PeerId}
    (h : PeerId.ofRoutingId? routingId = some id) : routingId = id.routingId := by
  cases routingId with
  | nil => cases h
  | cons marker bytes =>
    rw [ofRoutingId?] at h
    split at h
    · rename_i hmarker
      rw [PeerId.routingId, hmarker, PeerId.ofBytes?_eq_some.mp h]
    · cases h

namespace Engine
variable {μ : Type} {e e' : Engine μ} {id y : PeerId}

/-- What an engine says of a peer after it was removed, and after edits that are none of its
business. -/
structure Departs (e : Engine μ) (y : PeerId) (e' : Engine μ) : Prop where
  gone : e'.roster.get? y = none
  unpaired : ∀ group, e'.isMember y group = false
  told : Event.concerning y e'.events = Event.concerning y e.events ++ e.parting y

theorem departs_of_alike (hs : e.Sound) (h : (e.drop y).Alike y e') : e.Departs y e' := by
  have hgone : (e.drop y).roster.get? y = none := by
    rw [get?_drop, if_pos rfl]
  refine ⟨h.entry.trans hgone, fun group => ?_, ?_⟩
  · rw [h.member]
    exact (hs.drop y).not_member (readyPeer?_of_none hgone) group
  · rw [h.told, events_drop hs, Event.concerning_append,
      Event.concerning_self (e.peer?_parting y)]

end Engine

namespace Station

section
variable {κ μ : Type} {s t : Station κ μ} {id y : PeerId} {n : UInt16} {h : Hello} {m : Message}

/-! ### Who makes room -/

/-- A greeting of `id` starts its admission, at an endpoint where another peer has its mailbox. -/
structure Ousts (s : Station κ μ) (id : PeerId) (m : Message) (y : PeerId) : Prop where
  running : s.engine.stopped = false
  sender : id ≠ s.engine.id
  unknown : ∀ {p}, s.engine.roster.get? id = some p → p.ready = true
  other : y ≠ id
  there : ∃ h q, m.body = .hello h ∧ h.endpoint ≠ s.engine.endpoint ∧
    s.engine.roster.get? y = some q ∧ q.endpoint = h.endpoint

theorem Ousts.unique {z : PeerId} (ho : s.Ousts id m y) (ho' : s.Ousts id m z)
    (hs : s.engine.Sound) : y = z := by
  obtain ⟨h, q, hb, -, hq, hthere⟩ := ho.there
  obtain ⟨h', r, hb', -, hr, hthere'⟩ := ho'.there
  obtain rfl := Body.hello.inj (hb.symm.trans hb')
  exact hs.apart hq hr (hthere.trans hthere'.symm)

theorem alike_room_spared (hs : s.engine.Sound) (hy : y ≠ id) (walk : Walk) {endpoint : String}
    (hfar : ∀ {q}, s.engine.roster.get? y = some q → q.endpoint ≠ endpoint) :
    s.engine.Alike y ((s.reset id).purge walk endpoint).engine := by
  have hreset := s.alike_reset hy
  rcases engine_purge (sound_reset hs id) walk endpoint with ⟨he, -⟩ | ⟨z, q, hq, hthere, he⟩
  · rw [he]
    exact hreset
  · have hz : y ≠ z := by
      rintro rfl
      rw [hreset.entry] at hq
      exact hfar hq hthere
    rw [he]
    exact hreset.trans (Engine.alike_drop _ hz)

theorem alike_room_ousted (hs : s.engine.Sound) (hy : y ≠ id) (walk : Walk) {endpoint : String}
    {q : Peer μ} (hq : s.engine.roster.get? y = some q) (hthere : q.endpoint = endpoint) :
    (s.engine.drop y).Alike y ((s.reset id).purge walk endpoint).engine := by
  have hreset := s.alike_reset hy
  have hq' := hreset.entry.trans hq
  rcases engine_purge (sound_reset hs id) walk endpoint with ⟨-, hnone⟩ | ⟨z, r, hr, hthere', he⟩
  · exact absurd hthere (hnone hq')
  · obtain rfl := (sound_reset hs id).apart hq' hr (hthere.trans hthere'.symm)
    rw [he]
    exact hreset.drop

/-! ### What a greeting does to others -/

variable [Carriage κ μ] {walk : Walk} {now : Nat}

theorem Introduction.alike {t : Station κ μ} (hi : s.Introduction walk id n h now t)
    (hs : s.engine.Sound) (hrun : s.engine.stopped = false) (hy : y ≠ id)
    (hspared : ¬ s.Ousts id ⟨n, .hello h⟩ y) : s.engine.Alike y t.engine := by
  have hroom : (s.reset id).engine.roster.get? id = none → id ≠ s.engine.id →
      h.endpoint ≠ s.engine.endpoint →
      s.engine.Alike y ((s.reset id).purge walk h.endpoint).engine := by
    intro hnew hid hep
    refine alike_room_spared hs hy walk fun {q} hq hthere => hspared ?_
    exact ⟨hrun, hid, not_unready hnew, hy, h, q, rfl, hep, hq, hthere⟩
  cases hi with
  | shunned _ he =>
    rw [he]
    exact s.alike_reset hy
  | expected hid hep hp hr he =>
    rw [he]
    exact Engine.alike_settle _ hy _ n h now
  | unmet hid hep hnew hmeet =>
    rw [hmeet.of_vain.1]
    exact hroom hnew hid hep
  | met hid hep hnew hmeet hp hn he =>
    obtain ⟨-, q, hput, hqid, -⟩ := hmeet.of_met
    have hentry := Engine.alike_insert ((s.reset id).purge walk h.endpoint).engine (hqid ▸ hy) q
    rw [he, hput]
    exact ((hroom hnew hid hep).trans hentry).trans (Engine.alike_settle _ hy _ n h now)

theorem Introduction.departs {t : Station κ μ} (hi : s.Introduction walk id n h now t)
    (hs : s.engine.Sound) (ho : s.Ousts id ⟨n, .hello h⟩ y) : s.engine.Departs y t.engine := by
  obtain ⟨_, q, hb, hep, hq, hthere⟩ := ho.there
  obtain rfl := Body.hello.inj hb
  have hroom := alike_room_ousted hs ho.other walk hq hthere
  refine Engine.departs_of_alike hs ?_
  cases hi with
  | shunned hself => exact absurd hself (not_or.mpr ⟨ho.sender, hep⟩)
  | expected _ _ hp hr =>
    rw [ho.unknown hp] at hr
    cases hr
  | unmet _ _ _ hmeet =>
    rw [hmeet.of_vain.1]
    exact hroom
  | met _ _ _ hmeet _ _ he =>
    obtain ⟨-, r, hput, hrid, -⟩ := hmeet.of_met
    have hentry := Engine.alike_insert ((s.reset id).purge walk h.endpoint).engine
      (hrid ▸ ho.other) r
    rw [he, hput]
    exact (hroom.trans hentry).trans (Engine.alike_settle _ ho.other _ n h now)

/-! ### What another message does to others -/

theorem alike_accept (hs : s.engine.Sound) (hm : m.isHello = false) (hy : y ≠ id) (now : Nat) :
    s.engine.Alike y (s.accept id m now).engine := by
  cases hp : s.engine.readyPeer? id with
  | none =>
    rw [accept_unready hp]
    exact .refl y s.engine
  | some p =>
    have hentry := (Engine.readyPeer?_eq_some.mp hp).1
    have hheeded := s.engine.alike_heeded hy p m.body
    cases hl : p.showsLoss m with
    | true =>
      rw [engine_accept_lost hp hl]
      exact s.engine.alike_drop hy
    | false =>
      rw [accept_of_ready hp hl]
      refine Engine.Alike.trans ?_ (Engine.alike_editPeer _ hy _)
      by_cases hb : m.body = .ping
      · -- The answer to a PING may cost the sender its entry, but nobody else.
        have hcount := engine_counted_ping hentry hb
        have hposted := (s.counted id p m).posted_post id .pingOk fun q hq => by
          rw [get?_counted hentry hm] at hq
          obtain rfl := Option.some.inj hq
          exact (hs.filed hentry :)
        rw [act_ping hentry hb]
        exact (hcount ▸ hheeded).trans (hposted.alike hy)
      · rw [engine_act hentry hm hb]
        exact hheeded

end

/-! ### What is sent -/

section
variable {κ μ : Type} [Carriage κ μ] {s t : Station (Ledger κ) (Box μ)} {id y : PeerId} {n : UInt16}
  {h : Hello} {m : Message} {walk : Walk} {now : Nat}

/-- On the old lines a greeting writes nothing; a new peer is greeted on a new line. -/
theorem Introduction.lines {t : Station (Ledger κ) (Box μ)}
    (hi : s.Introduction walk id n h now t) : s.carriage.lines <+: t.carriage.lines := by
  have hroom : ((s.reset id).purge walk h.endpoint).carriage = s.carriage :=
    (carriage_purge _ walk h.endpoint).trans (s.carriage_reset id)
  have hmeet : ∀ {granted : Bool} {u : Station (Ledger κ) (Box μ)},
      ((s.reset id).purge walk h.endpoint).Meeting id h.endpoint now (granted, u) →
      s.carriage.lines <+: u.carriage.lines := by
    intro granted u hmeet
    rw [← hroom]
    cases hmeet with
    | unreached hc =>
      have hlines := Ledger.lines_of_unreached hc
      exact hlines ▸ List.prefix_rfl
    | formless hc =>
      rw [(Ledger.lines_of_opened hc).2]
      exact List.prefix_append ..
    | shut hc hs | met hc _ hs =>
      rw [(Ledger.lines_of_first hc hs).2]
      exact List.prefix_append ..
  cases hi with
  | shunned _ _ hc | expected _ _ _ _ _ hc => exact hc ▸ List.prefix_rfl
  | unmet _ _ _ hvain => exact hmeet hvain
  | met _ _ _ hmet _ _ _ hc =>
    rw [hc]
    exact hmeet hmet

theorem Posted.lines {body : Body} (hposted : s.Posted id body t) {i : Nat}
    (hi : ∀ {p box}, s.engine.roster.get? id = some p → p.mailbox = some box → i ≠ box.number) :
    t.carriage.lines[i]? = s.carriage.lines[i]? := by
  cases hposted with
  | unmoved _ _ hc => rw [hc]
  | taken hp hb _ hs | rejected hp hb hs | lost hp hb hs =>
    rw [Ledger.lines_of_send hs, List.getElem?_modify_ne _ _ (hi hp hb).symm]

/-- A message other than a greeting writes on the line of its sender at most. -/
theorem lines_accept (hs : s.engine.Sound) (hm : m.isHello = false) (now : Nat) {i : Nat}
    (hi : ∀ {p box}, s.engine.roster.get? id = some p → p.mailbox = some box → i ≠ box.number) :
    (s.accept id m now).carriage.lines[i]? = s.carriage.lines[i]? := by
  cases hp : s.engine.readyPeer? id with
  | none =>
    rw [accept_unready hp]
    rfl
  | some p =>
    have hentry := (Engine.readyPeer?_eq_some.mp hp).1
    cases hl : p.showsLoss m with
    | true => rw [carriage_accept_lost hp hl]
    | false =>
      rw [accept_of_ready hp hl]
      change ((s.counted id p m).act id m.body).carriage.lines[i]? = _
      by_cases hb : m.body = .ping
      · have hcount := get?_counted hentry hm
        have hposted := (s.counted id p m).posted_post id .pingOk fun q hq => by
          rw [hcount] at hq
          obtain rfl := Option.some.inj hq
          exact (hs.filed hentry :)
        rw [act_ping hentry hb]
        refine hposted.lines fun {q box} hq hbox => ?_
        rw [hcount] at hq
        obtain rfl := Option.some.inj hq
        exact hi hentry hbox
      · rw [carriage_act _ id hb]
        rfl

/-! ### Any message at all -/

/-- What a message of `id` does to the engine itself and to all other peers. -/
structure Contains (s : Station (Ledger κ) (Box μ)) (id : PeerId) (m : Message)
    (t : Station (Ledger κ) (Box μ)) : Prop where
  self : s.engine.SameSelf t.engine
  events : t.engine.events = s.engine.events ++ s.news t
  spared : ∀ {y}, y ≠ id → ¬ s.Ousts id m y → t.engine.roster.get? y = s.engine.roster.get? y ∧
    (∀ group, t.engine.isMember y group = s.engine.isMember y group) ∧
    Event.concerning y (s.news t) = []
  ousted : ∀ {y}, s.Ousts id m y → t.engine.roster.get? y = none ∧
    (∀ group, t.engine.isMember y group = false) ∧
    Event.concerning y (s.news t) = s.engine.parting y
  single : ∀ {y z}, s.Ousts id m y → s.Ousts id m z → y = z
  streams : ∀ {y q box}, y ≠ id → s.engine.roster.get? y = some q → q.mailbox = some box →
    ∃ l, s.carriage.lines[box.number]? = some l ∧ t.carriage.lines[box.number]? = some l

omit [Carriage κ μ] in
theorem news_of_alike {new : List Event} (ha : s.engine.Alike y t.engine)
    (hnew : t.engine.events = s.engine.events ++ new) : Event.concerning y new = [] := by
  have htold := ha.told
  rw [hnew, Event.concerning_append] at htold
  exact List.append_right_eq_self.mp htold

omit [Carriage κ μ] in
theorem news_of_departs {new : List Event} (hd : s.engine.Departs y t.engine)
    (hnew : t.engine.events = s.engine.events ++ new) :
    Event.concerning y new = s.engine.parting y := by
  have htold := hd.told
  rw [hnew, Event.concerning_append] at htold
  exact List.append_cancel_left htold

omit [Carriage κ μ] in
theorem Contains.of_alike (hs : s.engine.Sound) (hk : s.Kept) (hself : s.engine.SameSelf t.engine)
    {new : List Event} (hnew : t.engine.events = s.engine.events ++ new)
    (hspared : ∀ {y}, y ≠ id → ¬ s.Ousts id m y → s.engine.Alike y t.engine)
    (housted : ∀ {y}, s.Ousts id m y → s.engine.Departs y t.engine)
    (hlines : ∀ {y q} {box : Box μ}, y ≠ id → s.engine.roster.get? y = some q →
      q.mailbox = some box → box.number < s.carriage.lines.length →
      t.carriage.lines[box.number]? = s.carriage.lines[box.number]?) : s.Contains id m t := by
  rw [← news_of_append hnew] at hnew
  refine ⟨hself, hnew, fun hy hno => ?_, fun ho => ?_, fun ho ho' => ho.unique ho' hs,
    fun {y q box} hy hq hbox => ?_⟩
  · have ha := hspared hy hno
    exact ⟨ha.entry, ha.member, news_of_alike ha hnew⟩
  · have hd := housted ho
    exact ⟨hd.gone, hd.unpaired, news_of_departs hd hnew⟩
  · obtain ⟨box', l, hbox', hl, -⟩ := hk.entry hq
    obtain rfl := Option.some.inj (hbox.symm.trans hbox')
    have hold := (List.getElem?_eq_some_iff.mp hl).1
    exact ⟨l, hl, (hlines hy hq hbox hold).trans hl⟩

theorem contains_receive (hs : s.engine.Sound) (hk : s.Kept) (hrun : s.engine.stopped = false)
    {routingId : List UInt8} {frames : Content} (hm : Wire.decode frames = .ok m)
    (hd : PeerId.ofRoutingId? routingId = some id) (walk : Walk) (now : Nat) :
    s.Contains id m (s.receive walk routingId frames now) := by
  have hreceived : s.Received (fun _ _ => True) id m (s.receive walk routingId frames now) :=
    received_receive hs hrun walk hm hd (fun _ => trivial) now
  have hself := hreceived.self hs
  obtain ⟨new, hnew, -⟩ := hreceived.narrates hs
  cases hhello : m.isHello with
  | true =>
    obtain ⟨h, hb⟩ := Message.exists_of_isHello hhello
    rw [hb] at hm ⊢
    have hi := introduction_receive hrun hm hd walk now
    refine .of_alike hs hk hself hnew (fun hy hno => hi.alike hs hrun hy hno)
      (fun ho => hi.departs hs ho) fun {y q box} _ _ _ hold => ?_
    obtain ⟨rest, hrest⟩ := hi.lines
    rw [← hrest, List.getElem?_append_left hold]
  | false =>
    rw [receive_of_not_hello hrun hm hd hhello] at hself hnew ⊢
    refine .of_alike hs hk hself hnew (fun hy _ => alike_accept hs hhello hy now) (fun ho => ?_)
      fun {y q box} hy hq hbox _ => ?_
    · obtain ⟨h, q, hb, -⟩ := ho.there
      rw [Message.isHello, hb] at hhello
      cases hhello
    · refine lines_accept hs hhello now fun {p box'} hp hbox' hsame => hy ?_
      exact hk.apart hq hp hbox hbox' hsame

/-- A message that changes nothing at all: nobody listens, it cannot be read, it comes from nobody,
or its sender has not greeted. -/
def Disregards (s : Station (Ledger κ) (Box μ)) (routingId : List UInt8) (frames : Content) :
    Prop :=
  s.engine.stopped = true ∨ (∀ m, Wire.decode frames ≠ .ok m) ∨
    (∀ id : PeerId, routingId ≠ 1 :: id.bytes) ∨
    ∃ (id : PeerId) (m : Message), routingId = 1 :: id.bytes ∧ Wire.decode frames = .ok m ∧
      m.isHello = false ∧ s.engine.readyPeer? id = none

/-- All that can come of bytes that arrive under some routing id. -/
structure Contained (s : Station (Ledger κ) (Box μ)) (routingId : List UInt8) (frames : Content)
    (t : Station (Ledger κ) (Box μ)) : Prop where
  disregarded : s.Disregards routingId frames → t.engine = s.engine ∧ t.carriage = s.carriage
  heard : ¬ s.Disregards routingId frames → ∃ (id : PeerId) (m : Message),
    routingId = 1 :: id.bytes ∧ Wire.decode frames = .ok m ∧ s.Contains id m t

theorem receive_of_disregards {routingId : List UInt8} {frames : Content}
    (hi : s.Disregards routingId frames) (walk : Walk) (now : Nat) :
    (s.receive walk routingId frames now).engine = s.engine ∧
      (s.receive walk routingId frames now).carriage = s.carriage := by
  cases hrun : s.engine.stopped with
  | true =>
    rw [receive_of_stopped hrun]
    exact ⟨rfl, rfl⟩
  | false =>
    cases hm : Wire.decode frames with
    | error e =>
      rw [receive, if_neg (Bool.eq_false_iff.mp hrun), hm]
      exact ⟨rfl, rfl⟩
    | ok m =>
      cases hd : PeerId.ofRoutingId? routingId with
      | none =>
        rw [receive, if_neg (Bool.eq_false_iff.mp hrun), hm, hd]
        exact ⟨rfl, rfl⟩
      | some id =>
        have hfrom : routingId = 1 :: id.bytes := PeerId.eq_of_ofRoutingId? hd
        rcases hi with hstop | hbad | hnobody | ⟨j, m', hj, hm', hhello, hout⟩
        · rw [hrun] at hstop
          cases hstop
        · exact absurd hm (hbad m)
        · exact absurd hfrom (hnobody id)
        · obtain rfl := Except.ok.inj (hm.symm.trans hm')
          obtain rfl : id = j := PeerId.routingId_inj (hfrom.symm.trans hj)
          rw [receive_of_not_hello hrun hm hd hhello, accept_unready hout]
          exact ⟨rfl, rfl⟩

theorem contained_receive (hs : s.engine.Sound) (hk : s.Kept) (walk : Walk) (routingId : List UInt8)
    (frames : Content) (now : Nat) :
    s.Contained routingId frames (s.receive walk routingId frames now) := by
  refine ⟨fun hi => receive_of_disregards hi walk now, fun hno => ?_⟩
  obtain ⟨hrun, hno⟩ := not_or.mp hno
  obtain ⟨hread, hno⟩ := not_or.mp hno
  obtain ⟨hsender, -⟩ := not_or.mp hno
  obtain ⟨m, hm⟩ := not_forall_not.mp hread
  obtain ⟨id, hid⟩ := not_forall_not.mp hsender
  have hd : PeerId.ofRoutingId? routingId = some id := by
    rw [hid]
    exact PeerId.ofRoutingId?_routingId id
  exact ⟨id, m, hid, hm, contains_receive hs hk (Bool.eq_false_iff.mpr hrun) hm hd walk now⟩

/-- Whatever was done to an engine that was new, whatever the carriage answers then, and whatever
bytes arrive. -/
theorem contained_run_new (self : PeerId) (name endpoint : String) (timing : Timing) (first c : κ)
    (turns : List (Turn κ)) (walk : Walk) (routingId : List UInt8) (frames : Content) (now : Nat) :
    let kept := (new (Engine.new self name endpoint timing : Engine (Box μ)) ⟨first, []⟩).keep turns
    let s : Station (Ledger κ) (Box μ) := { kept with carriage := ⟨c, kept.carriage.lines⟩ }
    let t := s.receive walk routingId frames now
    s.Contained routingId frames t ∧
      kept.plain = (new (Engine.new self name endpoint timing) first).run turns ∧
      t.plain = s.plain.receive walk routingId frames now := by
  intro kept s t
  have hnew : (Engine.new self name endpoint timing : Engine (Box μ)).Sound :=
    Engine.sound_new self name endpoint timing
  have hs : s.engine.Sound := sound_keep hnew turns
  have hk : kept.Kept := kept_keep hnew (Books.new _ first rfl _) turns
  have hk' : s.Kept := Books.own hk rfl rfl rfl
  refine ⟨contained_receive hs hk' walk routingId frames now, ?_, ?_⟩
  · exact plain_keep _ turns
  · exact (receive_through Ledger.mirrors walk s routingId frames now).symm

end
end Station
end PeerMesh
