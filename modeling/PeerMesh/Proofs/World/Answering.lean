import PeerMesh.Proofs.World.Greetings

/-!
# What becomes of a message

On an open network it is told exactly what a node does about a message of another node. A greeting
that was waited for is used up; any other greeting is returned, and the node ends up waiting for
nothing in both cases. Of all other messages only a PING makes the node send something, and that is
no greeting.
-/

namespace PeerMesh
set_option autoImplicit false

namespace Station

section
variable {κ μ : Type} {s : Station κ μ} {id : PeerId} {p : Peer μ} {m : Message}

/-! ### Greetings -/

variable [Carriage κ μ]

/-- A peer that is declared ready and whose greeting is in sequence stays ready, and nothing is
sent. -/
theorem accept_greeting (hp : s.engine.roster.get? id = some p) (h : Hello) (now : Nat) :
    let t := (s.edit (·.editPeer id ({ · with ready := true }))).accept id ⟨1, .hello h⟩ now
    t.carriage = s.carriage ∧ t.engine.awaits id = 0 := by
  let v := s.edit (·.editPeer id ({ · with ready := true }))
  let q : Peer μ := { p with ready := true }
  have hq : v.engine.roster.get? id = some q := Engine.get?_editPeer hp _
  have hready : v.engine.readyPeer? id = some q := Engine.readyPeer?_eq_some.mpr ⟨hq, rfl⟩
  have hl : q.showsLoss ⟨1, .hello h⟩ = false := rfl
  have hin : (⟨1, .hello h⟩ : Message).body = .hello h := rfl
  have hentry : ((v.counted id q ⟨1, .hello h⟩).introduced id h).engine.roster.get? id =
      some (q.introduced h) := by
    rw [engine_introduced hq rfl hin, Engine.roster_greeted, SortedMap.get?_insert, if_pos rfl]
  change (v.accept id _ now).carriage = _ ∧ (v.accept id _ now).engine.awaits id = 0
  rw [accept_of_ready hready hl]
  refine ⟨carriage_introduced (v.counted id q ⟨1, .hello h⟩) id h, ?_⟩
  rw [engine_edit, Engine.awaits_refresh]
  exact Engine.awaits_of_ready hentry rfl

end

variable {g : Gathering} {who whom : Party} {s t : Station Recorded Network.Mailbox} {m : Message}
  {p : Peer Network.Mailbox} {routingId : List UInt8} {frames : Content}

/-- All that can come of a greeting. -/
inductive Answered (who whom : Party) (s t : Station Recorded Network.Mailbox) : Prop
  | used (hs : s.engine.awaits whom.id = 1) (ht : t.engine.awaits whom.id = 0)
    (hc : t.carriage = s.carriage)
  | returned {hello frames} (hs : s.engine.awaits whom.id = 0) (ht : t.engine.awaits whom.id = 0)
    (hf : Wire.encode ⟨1, .hello hello⟩ = .ok frames)
    (hc : s.carriage.Took ⟨whom.endpoint, who.id.routingId⟩ frames t.carriage)

/-- Nobody is known yet under the identity of who greeted. -/
theorem welcome_of_none (hs : s.engine.Settled g.near who) (hwho : who.Presentable)
    (hopen : s.carriage.IsOpen g) (hwhom : whom ∈ g.parties) (hne : whom.endpoint ≠ "")
    (hid : whom.id ≠ who.id) (hep : whom.endpoint ≠ who.endpoint)
    (hnone : s.engine.roster.get? whom.id = none) (walk : Walk) (now : Nat) :
    ∃ (u : Station Recorded Network.Mailbox) (p : Peer Network.Mailbox) (hello : Hello)
        (frames : Content), s.welcome walk whom.id whom.endpoint now =
        (true, u.edit (·.editPeer whom.id ({ · with ready := true }))) ∧
      u.engine.roster.get? whom.id = some p ∧ Wire.encode ⟨1, .hello hello⟩ = .ok frames ∧
      s.carriage.Took ⟨whom.endpoint, who.id.routingId⟩ frames u.carriage := by
  have hpurged : (s.purge walk whom.endpoint).engine.Settled g.near who :=
    ((chores_purge hs.sound walk whom.endpoint).speaks hs).settled
  have hcarriage := s.carriage_purge walk whom.endpoint
  have hout : (s.engine.readyPeer? whom.id).isSome = false := by
    rw [Engine.readyPeer?, hnone]
    rfl
  have hgreet := meet_of_isOpen hpurged hwho (hcarriage ▸ hopen) hwhom hne whom.id now
  rw [welcome, hout, if_neg Bool.false_ne_true,
    require_of_none (hs.id ▸ hid) (hs.endpoint ▸ hep) hnone]
  rcases hmeet : (s.purge walk whom.endpoint).meet whom.id whom.endpoint now with ⟨granted, u⟩
  rw [hmeet] at hgreet
  obtain ⟨rfl, ⟨frames, hf, htook⟩, p, hput, hpid, -⟩ := hgreet
  refine ⟨u, p, _, frames, rfl, ?_, hf, hcarriage ▸ htook⟩
  rw [hput, Engine.putPeer, hpid, SortedMap.get?_insert, if_pos rfl]

/-- A peer that has greeted before is removed first, and from then on it is a new one. -/
theorem welcome_of_ready (hp : s.engine.readyPeer? whom.id = some p) (walk : Walk)
    (endpoint : String) (now : Nat) :
    s.welcome walk whom.id endpoint now =
      ((s.note [.greetedAgain whom.id]).remove whom.id).welcome walk whom.id endpoint now := by
  have hgone : ((s.note [.greetedAgain whom.id]).remove whom.id).engine.readyPeer? whom.id = none := by
    rw [engine_remove, Engine.readyPeer?_drop, if_pos rfl]
  rw [welcome, welcome, hp, hgone, Option.isSome_some, Option.isSome_none, if_pos rfl,
    if_neg Bool.false_ne_true]

theorem answered_receive (hs : s.engine.Settled g.near who) (hrun : s.engine.stopped = false)
    (hwho : who.Presentable) (hopen : s.carriage.IsOpen g) (hwhom : whom ∈ g.parties)
    (hne : whom.endpoint ≠ "") (hid : whom.id ≠ who.id) (hep : whom.endpoint ≠ who.endpoint)
    (hd : routingId = whom.id.routingId) {h : Hello} (hm : Wire.decode frames = .ok ⟨1, .hello h⟩)
    (hplace : h.endpoint = whom.endpoint) (walk : Walk) (now : Nat) :
    Answered who whom s (s.receive walk routingId frames now) := by
  have hsender : PeerId.ofRoutingId? routingId = some whom.id := by
    rw [hd, PeerId.ofRoutingId?_routingId]
  rw [receive, if_neg (Bool.eq_false_iff.mp hrun), hm, hsender]
  dsimp only
  rw [hplace]
  cases hp : s.engine.roster.get? whom.id with
  | none =>
    obtain ⟨u, p, hello, frames', hwelcome, hentry, hf, htook⟩ :=
      welcome_of_none hs hwho hopen hwhom hne hid hep hp walk now
    obtain ⟨hsame, hnow⟩ := accept_greeting hentry h now
    rw [hwelcome]
    refine .returned (Engine.awaits_of_none hp) hnow hf ?_
    rw [hsame]
    exact htook
  | some p =>
    cases hr : p.ready with
    | false =>
      have hout : (s.engine.readyPeer? whom.id).isSome = false := by
        rw [Engine.readyPeer?, hp, Option.filter_some, hr]
        rfl
      obtain ⟨hsame, hnow⟩ := accept_greeting hp h now
      rw [welcome, hout, if_neg Bool.false_ne_true,
        require_of_some (hs.id ▸ hid) (hs.endpoint ▸ hep) hp]
      refine .used ?_ hnow hsame
      rw [Engine.awaits_of_some hp, hr]
      rfl
    | true =>
      let v := (s.note [.greetedAgain whom.id]).remove whom.id
      have hengine : v.engine = s.engine.drop whom.id := engine_remove _ _
      have hcarriage : v.carriage = s.carriage := carriage_remove _ _
      have hv : v.engine.Settled g.near who :=
        (Silent.of_drop hengine hcarriage).settled hs (hengine ▸ hs.sound.drop whom.id)
      have hgone : v.engine.roster.get? whom.id = none := by
        rw [hengine, Engine.get?_drop, if_pos rfl]
      obtain ⟨u, q, hello, frames', hwelcome, hentry, hf, htook⟩ :=
        welcome_of_none hv hwho (hcarriage ▸ hopen) hwhom hne hid hep hgone walk now
      obtain ⟨hsame, hnow⟩ := accept_greeting hentry h now
      rw [welcome_of_ready (Engine.readyPeer?_eq_some.mpr ⟨hp, hr⟩), hwelcome]
      refine .returned (Engine.awaits_of_ready hp hr) hnow hf ?_
      rw [hsame, ← hcarriage]
      exact htook

/-- All that can come of another message: nothing is sent, or a PING is answered. -/
structure Noticed (who whom : Party) (body : Body) (s t : Station Recorded Network.Mailbox) :
    Prop where
  awaits : t.engine.awaits whom.id = s.engine.awaits whom.id
  sent : t.carriage = s.carriage ∨ body = .ping ∧ ∃ n frames,
    Wire.encode ⟨n, .pingOk⟩ = .ok frames ∧
      s.carriage.Took ⟨whom.endpoint, who.id.routingId⟩ frames t.carriage

theorem noticed_ping (hs : s.engine.Settled g.near who) (hwhom : whom ∈ g.parties)
    {p : Peer Network.Mailbox} (hp : s.engine.roster.get? whom.id = some p) (hr : p.ready = true) :
    Noticed who whom .ping s (s.post whom.id .pingOk) := by
  have hutter := uttered_post hs whom.id .pingOk
  have hready := Engine.awaits_of_ready hp hr
  constructor
  · have hle := hutter.awaits_le whom.id
    omega
  · cases hutter with
    | kept _ _ hc | lost _ hc => exact .inl hc
    | said hp' hf hc =>
      obtain rfl := Option.some.inj (hp.symm.trans hp')
      have hplace := (Gathering.near_iff hwhom (hs.placed hp).2).mp rfl
      rw [hplace] at hc
      exact .inr ⟨rfl, _, _, hf, hc⟩

theorem settled_counted (hs : s.engine.Settled g.near who)
    (hp : s.engine.roster.get? whom.id = some p) (hm : m.isHello = false) :
    (s.counted whom.id p m).engine.Settled g.near who := by
  have hcount := engine_counted_of_not_hello hp hm
  have hself : s.engine.SameSelf (s.counted whom.id p m).engine :=
    hcount ▸ ⟨rfl, rfl, rfl, rfl, rfl, rfl, rfl, rfl⟩
  have hentry : p.Continues { p with want := p.want + 1 } :=
    ⟨rfl, (hs.sound.connected hp :), rfl, (hs.sound.entered hp :), fun h => h⟩
  exact (Silent.of_insert (t := s.counted whom.id p m) hp hself (congrArg Engine.roster hcount) rfl
    rfl rfl rfl).settled hs (hcount ▸ hs.sound.insert hp hentry)

theorem noticed_receive (hs : s.engine.Settled g.near who) (hrun : s.engine.stopped = false)
    (hwhom : whom ∈ g.parties) (hd : routingId = whom.id.routingId)
    (hm : Wire.decode frames = .ok m) (hhello : m.isHello = false) (walk : Walk) (now : Nat) :
    Noticed who whom m.body s (s.receive walk routingId frames now) := by
  have hsender : PeerId.ofRoutingId? routingId = some whom.id := by
    rw [hd, PeerId.ofRoutingId?_routingId]
  rw [receive_of_not_hello hrun hm hsender hhello]
  cases hp : s.engine.readyPeer? whom.id with
  | none =>
    rw [accept_unready hp]
    exact ⟨rfl, .inl rfl⟩
  | some p =>
    obtain ⟨hentry, hr⟩ := Engine.readyPeer?_eq_some.mp hp
    have hready := Engine.awaits_of_ready hentry hr
    cases hl : p.showsLoss m with
    | true =>
      refine ⟨?_, .inl (carriage_accept_lost hp hl now)⟩
      have hgone := s.engine.awaits_drop_le whom.id whom.id
      rw [engine_accept_lost hp hl]
      omega
    | false =>
      rw [accept_of_ready hp hl]
      by_cases hping : m.body = .ping
      · have hcount := get?_counted hentry hhello
        obtain ⟨hawaits, hsent⟩ :=
          noticed_ping (settled_counted hs hentry hhello) hwhom hcount hr
        rw [act_ping hentry hping]
        refine ⟨?_, hsent.imp_right fun hsent => ⟨hping, hsent.2⟩⟩
        rw [engine_edit, Engine.awaits_refresh, hawaits, hready]
        exact Engine.awaits_of_ready hcount hr
      · -- Apart from a greeting and a PING, no message makes a node send something or wait.
        refine ⟨?_, .inl (carriage_act (s.counted whom.id p m) whom.id hping)⟩
        rw [engine_edit, Engine.awaits_refresh, engine_act hentry hhello hping, hready]
        exact Engine.awaits_of_ready (s.engine.get?_heeded whom.id p m.body) hr

end Station
end PeerMesh
