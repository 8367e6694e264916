import PeerMesh.Proofs.Station.Mailing
import PeerMesh.Proofs.World.Channel

/-!
# What the others notice

Of all that a node does the others notice only what it sends them. `Speaks` says that every talk
from the node takes steps of `Talk.Step`, and that the channels of other nodes are left alone. It is
shown for every chore and then for every operation.
-/

namespace PeerMesh
set_option autoImplicit false

/-- Whoever is near has the identity of a node exactly if it has its endpoint. -/
def Party.Apart (near : PeerId → String → Prop) (whom : Party) : Prop :=
  ∀ {id endpoint}, near id endpoint → (id = whom.id ↔ endpoint = whom.endpoint)

namespace Engine

/-- What an engine says of itself to a peer. -/
def voice {μ : Type} (e : Engine μ) (id : PeerId) : Voice :=
  ⟨e.joined, e.status, (e.roster.get? id).map (·.sent)⟩

/-- The engine is that of a node of a gathering, and its mailboxes lead to where its peers are. -/
structure Settled (near : PeerId → String → Prop) (who : Party) (e : Engine Network.Mailbox) :
    Prop where
  id : e.id = who.id
  name : e.name = who.name
  endpoint : e.endpoint = who.endpoint
  sound : e.Sound
  placed : ∀ {id p}, e.roster.get? id = some p →
    p.mailbox = some ⟨p.lastEndpoint, who.id.routingId⟩ ∧ near id p.lastEndpoint

namespace Settled
variable {near : PeerId → String → Prop} {who : Party} {e e' : Engine Network.Mailbox}

theorem lastEndpoint_ne (h : e.Settled near who) {id : PeerId} {p : Peer Network.Mailbox}
    (hp : e.roster.get? id = some p) : p.lastEndpoint ≠ who.endpoint := by
  have hforeign := h.sound.foreign_endpoint hp
  rwa [Peer.endpoint, h.sound.connected hp, if_pos rfl, h.endpoint] at hforeign

end Settled
end Engine

namespace Station
variable {near : PeerId → String → Prop} {who whom : Party}
  {s t u : Station Recorded Network.Mailbox}

def talk (s : Station Recorded Network.Mailbox) (who whom : Party) (heard : Option Heard)
    (told : List Event) : Talk :=
  s.carriage.talk who whom (s.engine.voice whom.id) heard told

/-- What the others notice between `s` and `t`. -/
structure Speaks (near : PeerId → String → Prop) (who : Party)
    (s t : Station Recorded Network.Mailbox) : Prop where
  settled : t.engine.Settled near who
  spreads : s.carriage.Spreads who t.carriage
  steps : ∀ {whom : Party}, whom.Apart near → ∀ heard told,
    (s.talk who whom heard told).Steps who (t.talk who whom heard told)

theorem Speaks.refl (hs : s.engine.Settled near who) : s.Speaks near who s :=
  ⟨hs, .refl who s.carriage, fun _ _ _ => .refl⟩

theorem Speaks.trans (h : s.Speaks near who t) (h' : t.Speaks near who u) : s.Speaks near who u where
  settled := h'.settled
  spreads := h.spreads.trans h'.spreads
  steps hwhom heard told := (h.steps hwhom heard told).trans (h'.steps hwhom heard told)

/-! ### Saying nothing -/

namespace Silent

theorem settled (h : s.Silent t) (hs : s.engine.Settled near who) (ht : t.engine.Sound) :
    t.engine.Settled near who := by
  refine ⟨h.id.trans hs.id, h.name.trans hs.name, h.endpoint.trans hs.endpoint, ht,
    fun {id p'} hp => ?_⟩
  obtain ⟨p, hp, -, hbox, hlast⟩ := h.entry hp
  obtain ⟨hplace, hnear⟩ := hs.placed hp
  rw [hbox, hlast]
  exact ⟨hplace, hnear⟩

theorem speaks (h : s.Silent t) (hs : s.engine.Settled near who) (ht : t.engine.Sound) :
    s.Speaks near who t := by
  refine ⟨h.settled hs ht, ?_, fun {whom} _ heard told => ?_⟩
  · rw [h.carriage]
    exact .refl who _
  · rw [talk, talk, h.carriage, Engine.voice, Engine.voice, h.joined, h.status]
    cases hq : t.engine.roster.get? whom.id with
    | none => exact .single .close
    | some p' =>
      obtain ⟨p, hp, hsent, -, -⟩ := h.entry hq
      rw [hp, Option.map_some, Option.map_some, hsent]
      exact .refl

end Silent

/-! ### Posting -/

/-- What comes of posting through a network: nothing, or the peer is lost, or it gets the message. -/
inductive Uttered (who : Party) (s : Station Recorded Network.Mailbox) (id : PeerId) (body : Body)
    (t : Station Recorded Network.Mailbox) : Prop
  | kept (h : ∀ p, s.engine.roster.get? id = some p →
      ∃ e, Wire.encode ⟨p.sent + 1, body⟩ = .error e)
    (he : t.engine = s.engine) (hc : t.carriage = s.carriage)
  | lost (he : t.engine = s.engine.drop id) (hc : t.carriage = s.carriage)
  | said {p frames} (hp : s.engine.roster.get? id = some p)
    (hf : Wire.encode ⟨p.sent + 1, body⟩ = .ok frames)
    (hc : s.carriage.Took ⟨p.lastEndpoint, who.id.routingId⟩ frames t.carriage)
    (he : t.engine =
      { s.engine with roster := s.engine.roster.insert id { p with sent := p.sent + 1 } })

theorem uttered_post (hs : s.engine.Settled near who) (id : PeerId) (body : Body) :
    Uttered who s id body (s.post id body) := by
  have hposted := s.posted_post id body fun _ => hs.sound.filed
  cases hposted with
  | unmoved h he hc =>
    refine .kept (fun p hp => ?_) he hc
    rcases h p hp with hnone | hformless
    · rw [(hs.placed hp).1] at hnone
      cases hnone
    · exact hformless
  | taken hp hb hf hsend he =>
    obtain rfl := Option.some.inj (hb.symm.trans (hs.placed hp).1)
    exact .said hp hf (Recorded.took_of_send hsend) he
  | rejected hp hb hsend hn =>
    rw [(Recorded.eq_of_send hsend).2] at hn
    cases hn
  | lost hp hb hsend hn he => exact .lost he (Recorded.eq_of_send hsend).1

namespace Uttered
variable {id : PeerId} {body : Body}

theorem settled (h : Uttered who s id body t) (hs : s.engine.Settled near who)
    (ht : t.engine.Sound) : t.engine.Settled near who := by
  cases h with
  | kept _ he hc => exact (Silent.of_same he hc).settled hs ht
  | lost he hc => exact (Silent.of_drop he hc).settled hs ht
  | said hp _ _ he =>
    refine ⟨he ▸ hs.id, he ▸ hs.name, he ▸ hs.endpoint, ht, fun {j q} hq => ?_⟩
    rw [he, SortedMap.get?_insert] at hq
    split at hq
    · rename_i hj
      obtain rfl := Option.some.inj hq
      obtain ⟨hbox, hnear⟩ := hs.placed hp
      rw [hj]
      exact ⟨hbox, hnear⟩
    · exact hs.placed hq

theorem spreads (h : Uttered who s id body t) (hs : s.engine.Settled near who)
    (hb : body.command ≠ .hello) : s.carriage.Spreads who t.carriage := by
  cases h with
  | kept _ _ hc | lost _ hc =>
    rw [hc]
    exact .refl who _
  | said hp hf hc =>
    refine .of_took hc (hs.lastEndpoint_ne hp) ⟨_, hf, fun hello hbody => ?_⟩
    dsimp only at hbody
    rw [hbody] at hb
    exact absurd rfl hb

theorem get?_other (h : Uttered who s id body t) {j : PeerId} (hj : j ≠ id) :
    t.engine.roster.get? j = s.engine.roster.get? j := by
  cases h with
  | kept _ he => rw [he]
  | lost he => rw [he, Engine.get?_drop, if_neg hj]
  | said _ _ _ he => rw [he, SortedMap.get?_insert, if_neg hj]

theorem talk_other (h : Uttered who s id body t) (hs : s.engine.Settled near who)
    (hwhom : whom.Apart near) (hid : whom.id ≠ id) (heard : Option Heard) (told : List Event) :
    t.talk who whom heard told = s.talk who whom heard told := by
  have hentry := h.get?_other hid
  rw [talk, talk, Engine.voice, Engine.voice, hentry]
  cases h with
  | kept _ he hc => rw [he, hc]
  | lost he hc =>
    rw [he, hc]
    simp only [Engine.drop_rest]
  | said hp _ hc he =>
    have hplace : whom.endpoint ≠ _ := fun heq => hid ((hwhom (hs.placed hp).2).mpr heq.symm).symm
    rw [he, Recorded.talk, Recorded.talk, hc.waitingFrom_other hplace, hc.takenFrom_other hplace]

/-- The peer itself gets the message next, unless the message has no wire form or the peer is
lost. -/
theorem talk_self (h : Uttered who s whom.id body t) (hs : s.engine.Settled near who)
    (hwhom : whom.Apart near) {p : Peer Network.Mailbox}
    (hp : s.engine.roster.get? whom.id = some p) (heard : Option Heard) (told : List Event) :
    (t.talk who whom heard told = s.talk who whom heard told ∧
        ∃ e, Wire.encode ⟨p.sent + 1, body⟩ = .error e) ∨
      t.talk who whom heard told = { s.talk who whom heard told with
        voice := { (s.talk who whom heard told).voice with sent := none } } ∨
      t.talk who whom heard told = (s.talk who whom heard told).push
        { (s.talk who whom heard told).voice with sent := some (p.sent + 1) }
        ⟨p.sent + 1, body⟩ := by
  cases h with
  | kept hformless he hc =>
    left
    rw [talk, talk, he, hc]
    exact ⟨rfl, hformless p hp⟩
  | lost he hc =>
    right
    left
    rw [talk, talk, he, hc, Engine.voice, Engine.get?_drop, if_pos rfl]
    simp only [Engine.drop_rest]
    rfl
  | said hp' hf hc he =>
    right
    right
    obtain rfl := Option.some.inj (hp.symm.trans hp')
    rw [(hwhom (hs.placed hp).2).mp rfl] at hc
    rw [talk, talk, he, Recorded.talk, hc.waitingFrom_self hf, hc.takenFrom_self hf, Engine.voice,
      SortedMap.get?_insert, if_pos rfl]
    rfl

end Uttered

theorem speaks_post (hs : s.engine.Settled near who) (id : PeerId) {body : Body}
    (hb : body.isNeutral = true) (ht : (s.post id body).engine.Sound) :
    s.Speaks near who (s.post id body) := by
  have hutter := uttered_post hs id body
  have hhello : body.command ≠ .hello := by
    cases body with
    | hello | join | leave => cases hb
    | whisper | shout | ping | pingOk => exact fun h => by cases h
  refine ⟨hutter.settled hs ht, hutter.spreads hs hhello, fun {whom} hwhom heard told => ?_⟩
  by_cases hid : id = whom.id
  · subst hid
    cases hp : s.engine.roster.get? whom.id with
    | none =>
      rw [post_of_none hp]
      exact .refl
    | some p =>
      rcases hutter.talk_self hs hwhom hp heard told with ⟨htalk, -⟩ | htalk | htalk
      · rw [htalk]
        exact .refl
      · rw [htalk]
        exact .single .close
      · rw [htalk]
        refine .single (.say (l := s.talk who whom heard told) ?_ hb)
        change (s.engine.roster.get? whom.id).map (·.sent) = some p.sent
        rw [hp]
        rfl
  · rw [hutter.talk_other hs hwhom (Ne.symm hid)]
    exact .refl

/-! ### Meeting -/

/-- A new peer has an entry once it took the HELLO. -/
theorem speaks_met (hs : s.engine.Settled near who) {id : PeerId} {endpoint : String} {now : Nat}
    {frames : Content} (hep : endpoint ≠ s.engine.endpoint) (hnear : near id endpoint)
    (hf : Wire.encode ⟨1, .hello s.engine.hello⟩ = .ok frames)
    (hc : s.carriage.Took ⟨endpoint, who.id.routingId⟩ frames t.carriage)
    (he : t.engine = s.engine.putPeer
      (.met id ⟨endpoint, who.id.routingId⟩ endpoint now s.engine.timing))
    (ht : t.engine.Sound) : s.Speaks near who t := by
  have hput : t.engine.roster = s.engine.roster.insert id
      (.met id ⟨endpoint, who.id.routingId⟩ endpoint now s.engine.timing) := by
    rw [he]
    rfl
  refine ⟨⟨he ▸ hs.id, he ▸ hs.name, he ▸ hs.endpoint, ht, fun {j q} hq => ?_⟩, ?_,
    fun {whom} hwhom heard told => ?_⟩
  · rw [hput, SortedMap.get?_insert] at hq
    split at hq
    · rename_i hj
      obtain rfl := Option.some.inj hq
      rw [hj]
      exact ⟨rfl, hnear⟩
    · exact hs.placed hq
  · refine .of_took hc (hs.endpoint ▸ hep) ⟨_, hf, fun hello hbody => ?_⟩
    cases hbody
    exact ⟨hs.name, hs.endpoint⟩
  · by_cases hid : id = whom.id
    · have hplace := (hwhom hnear).mp hid
      rw [hplace] at hc
      have hgreet : t.talk who whom heard told = (s.talk who whom heard told).push
          { s.engine.voice whom.id with sent := some 1 } ⟨1, .hello ⟨who.endpoint,
            s.engine.joined.toList, s.engine.status, who.name, s.engine.headers⟩⟩ := by
        rw [talk, talk, Recorded.talk, hc.waitingFrom_self hf, hc.takenFrom_self hf, Engine.voice,
          hput, SortedMap.get?_insert, if_pos hid.symm, he, Engine.hello, hs.endpoint, hs.name]
        rfl
      rw [hgreet]
      exact .single (.greet s.engine.headers)
    · have hplace : whom.endpoint ≠ endpoint := fun heq => hid ((hwhom hnear).mpr heq.symm)
      have hsame : t.talk who whom heard told = s.talk who whom heard told := by
        rw [talk, talk, Recorded.talk, Recorded.talk, hc.waitingFrom_other hplace,
          hc.takenFrom_other hplace, Engine.voice, hput, SortedMap.get?_insert,
          if_neg (fun heq => hid heq.symm), he, Engine.voice]
        rfl
      rw [hsame]
      exact .refl

theorem speaks_meet (hs : s.engine.Settled near who) {id : PeerId} {endpoint : String} (now : Nat)
    (hep : endpoint ≠ s.engine.endpoint) (hnear : near id endpoint)
    (ht : (s.meet id endpoint now).2.engine.Sound) : s.Speaks near who (s.meet id endpoint now).2 := by
  have hmeet := s.meeting_meet id endpoint now
  generalize s.meet id endpoint now = r at hmeet ht ⊢
  cases hmeet with
  | unreached hc he => exact (Silent.of_same he (Recorded.eq_of_connect hc).1).speaks hs ht
  | formless hc _ he => exact (Silent.of_same he (Recorded.eq_of_connect hc).1).speaks hs ht
  | shut hc hsend he =>
    have hsame := (Recorded.eq_of_send hsend).1.trans (Recorded.eq_of_connect hc).1
    exact (Silent.of_same he hsame).speaks hs ht
  | met hc hf hsend he =>
    obtain ⟨rfl, hbox⟩ := Recorded.eq_of_connect hc
    obtain rfl := hbox rfl
    rw [hs.id] at hsend he
    exact speaks_met hs hep hnear hf (Recorded.took_of_send hsend) he ht

/-! ### Chores -/

theorem Chore.speaks (h : s.Chore near t) (hs : s.engine.Settled near who) :
    s.Speaks near who t := by
  have ht : t.engine.Sound := (h.shifts hs.sound).sound hs.sound
  cases h with
  | jot he hc => exact (Silent.of_same he hc).speaks hs ht
  | post id body hb => exact speaks_post hs id hb ht
  | evade id => exact (s.silent_evade id).speaks hs ht
  | remove id => exact (s.silent_remove id).speaks hs ht
  | meet now _ _ hep _ _ hnear => exact speaks_meet hs now hep hnear ht
  | refresh id now => exact (s.silent_refresh id now).speaks hs ht

theorem Chores.speaks (h : s.Chores near t) (hs : s.engine.Settled near who) :
    s.Speaks near who t := by
  induction h with
  | refl => exact .refl hs
  | tail _ h ih => exact ih.trans (h.speaks ih.settled)

end Station
end PeerMesh
