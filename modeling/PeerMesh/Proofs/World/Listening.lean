import PeerMesh.Proofs.Station.Picture
import PeerMesh.Proofs.World.Announcing

/-!
# What a node makes of another

`heard` is what an engine knows of a peer that has greeted. On its own account an engine only
forgets, and only has something to report of peers that it knows (`Murmurs`). What a message changes
is described by `Taken`.
-/

namespace PeerMesh
set_option autoImplicit false

variable {μ : Type}

namespace Event

theorem isQuiet_concerning {id : PeerId} {events : List Event}
    (h : ∀ ev ∈ events, ev.isQuiet = true) : ∀ ev ∈ concerning id events, ev.isQuiet = true := by
  intro ev hev
  exact h ev (List.mem_of_mem_filter hev)

end Event

namespace Engine
variable {e e' e'' : Engine μ}

/-- What an engine knows of a peer that has greeted. -/
def heard (e : Engine μ) (id : PeerId) : Option Heard :=
  (e.readyPeer? id).map fun p => ⟨p.want, p.status, p.name, e.isMember id⟩

theorem heard_of_none {id : PeerId} (h : e.readyPeer? id = none) : e.heard id = none := by
  rw [heard, h]
  rfl

theorem heard_of_ready {id : PeerId} {p : Peer μ} (h : e.readyPeer? id = some p) :
    e.heard id = some ⟨p.want, p.status, p.name, e.isMember id⟩ := by
  rw [heard, h]
  rfl

theorem heard_congr {id : PeerId} (hp : e'.readyPeer? id = e.readyPeer? id)
    (hg : ∀ group, e'.isMember id group = e.isMember id group) : e'.heard id = e.heard id := by
  have hmember : e'.isMember id = e.isMember id := funext hg
  rw [heard, heard, hp, hmember]

/-- What an engine reports of a peer on its own account, and what it may forget by that. -/
def Murmurs (e e' : Engine μ) (id : PeerId) : Prop :=
  ∃ new, e'.events = e.events ++ new ∧ Murmur (e.heard id) (Event.concerning id new) ∧
    (e'.heard id = none ∨ e'.heard id = e.heard id)

namespace Murmurs
variable {id : PeerId}

theorem of_same (hv : e'.events = e.events) (hr : e'.heard id = none ∨ e'.heard id = e.heard id) :
    e.Murmurs e' id := by
  refine ⟨[], by rw [hv, List.append_nil], ⟨?_, fun _ => rfl⟩, hr⟩
  intro ev hev
  cases hev

theorem refl (e : Engine μ) (id : PeerId) : e.Murmurs e id := of_same rfl (.inr rfl)

theorem trans (h : e.Murmurs e' id) (h' : e'.Murmurs e'' id) : e.Murmurs e'' id := by
  obtain ⟨new, hnew, hmurmur, hheard⟩ := h
  obtain ⟨new', hnew', hmurmur', hheard'⟩ := h'
  refine ⟨new ++ new', by rw [hnew', hnew, List.append_assoc], ?_, ?_⟩
  · rw [Event.concerning_append]
    constructor
    · intro ev hev
      rcases List.mem_append.mp hev with hev | hev
      · exact hmurmur.quiet ev hev
      · exact hmurmur'.quiet ev hev
    · intro hnone
      have hlater : e'.heard id = none := by
        rcases hheard with h | h
        · exact h
        · rw [h, hnone]
      rw [hmurmur.silent hnone, hmurmur'.silent hlater]
      rfl
  · rcases hheard' with h | h
    · exact .inl h
    · rw [h]
      exact hheard

/-- Quiet events about a peer that is known, or about another one. -/
theorem of_quiet {j : PeerId} {new : List Event} (hv : e'.events = e.events ++ new)
    (hnew : ∀ ev ∈ new, ev.peer? = some j ∧ ev.isQuiet = true)
    (hknown : id = j → e.heard id ≠ none)
    (hr : e'.heard id = none ∨ e'.heard id = e.heard id) : e.Murmurs e' id := by
  refine ⟨new, hv, ⟨?_, fun hnone => ?_⟩, hr⟩
  · exact Event.isQuiet_concerning fun ev hev => (hnew ev hev).2
  · by_cases hid : id = j
    · exact absurd hnone (hknown hid)
    · exact Event.concerning_other hid fun ev hev => (hnew ev hev).1

end Murmurs

theorem Sound.heard_ne_none (hs : e.Sound) {id : PeerId} {p : Peer μ} {name : String}
    (hp : e.roster.get? id = some p) (hn : p.declaredName = some name) : e.heard id ≠ none := by
  have hready : p.ready = true := by
    rw [hs.entered hp, Peer.hasEntered, hn]
    rfl
  rw [heard, readyPeer?_eq_some.mpr ⟨hp, hready⟩]
  exact fun h => by cases h

theorem murmurs_drop (hs : e.Sound) (id j : PeerId) : e.Murmurs (e.drop id) j := by
  cases hp : e.roster.get? id with
  | none =>
    rw [drop_of_none hp]
    exact .refl e j
  | some p =>
    have hheard : (e.drop id).heard j = none ∨ (e.drop id).heard j = e.heard j := by
      by_cases hj : j = id
      · left
        apply heard_of_none
        rw [readyPeer?_drop, if_pos hj]
      · right
        apply heard_congr
        · rw [readyPeer?_drop, if_neg hj]
        · intro group
          rw [isMember_drop hp]
          simp [hj]
    cases hn : p.declaredName with
    | none => exact .of_same (events_drop_of_unnamed hp hn) hheard
    | some name =>
      refine .of_quiet (j := id) (events_drop_of_named hp hn) ?_ ?_ hheard
      · intro ev hev
        rcases List.mem_cons.mp hev with rfl | hev
        · exact ⟨rfl, rfl⟩
        · obtain ⟨group, -, rfl⟩ := List.mem_map.mp hev
          exact ⟨rfl, rfl⟩
      · intro hj
        rw [hj]
        exact hs.heard_ne_none hp hn

theorem Shift.murmurs (h : e.Shift e') (hs : e.Sound) (j : PeerId) : e.Murmurs e' j := by
  cases h with
  | @touch id p p' hp h =>
    refine .of_same rfl (.inr ?_)
    rw [heard, heard, readyPeer?_of_insert rfl]
    split
    · rename_i hj
      rw [hj, readyPeer?, hp, Option.filter_some, Option.filter_some, h.ready]
      split
      · rw [Option.map_some, Option.map_some, h.want, h.status, h.name]
        rfl
      · rfl
    · rfl
  | @report id p name hp hn =>
    refine .of_quiet (j := id) rfl ?_ ?_ (.inr rfl)
    · intro ev hev
      rw [List.mem_singleton.mp hev]
      exact ⟨rfl, rfl⟩
    · intro hj
      rw [hj]
      exact hs.heard_ne_none hp hn
  | drop id => exact murmurs_drop hs id j
  | @acquaint p _ hnew _ _ _ _ hout =>
    refine .of_same rfl (.inr (heard_congr ?_ fun _ => rfl))
    rw [readyPeer?_of_insert rfl]
    split
    · rename_i hj
      rw [hj, readyPeer?, hnew, Option.filter_some, hout]
      rfl
    · rfl

theorem Shifts.murmurs (h : e.Shifts e') (hs : e.Sound) (j : PeerId) : e.Murmurs e' j := by
  induction h with
  | refl => exact .refl e j
  | tail hh h ih => exact ih.trans (h.murmurs (Shifts.sound hh hs) j)

/-! ### Messages -/

section
variable {id : PeerId} {p : Peer μ}

theorem peer?_greeted (id : PeerId) (p : Peer μ) (h : Hello) :
    ∀ ev ∈ Event.enter id h.name h.headers p.endpoint ::
      h.groups.map fun group => Event.join id h.name group, ev.peer? = some id := by
  intro ev hev
  rcases List.mem_cons.mp hev with rfl | hev
  · rfl
  · obtain ⟨group, -, rfl⟩ := List.mem_map.mp hev
    rfl

theorem peer?_reports (body : Body) (id : PeerId) (name : String) :
    ∀ ev ∈ body.reports id name, ev.peer? = some id := by
  intro ev hev
  cases body <;> simp_all [Body.reports, Event.peer?]

theorem heard_greeted (hs : e.Sound) (hp : e.roster.get? id = some p) (hr : p.ready = false)
    (h : Hello) : (e.greeted id p h).heard id = some (.greeting h) := by
  have hout : e.readyPeer? id = none := by
    rw [readyPeer?, hp, Option.filter_some, hr]
    rfl
  have hmember : (e.greeted id p h).isMember id = fun group => decide (group ∈ h.groups) := by
    funext group
    rw [isMember_greeted, hs.not_member hout]
    simp
  rw [heard, readyPeer?_of_insert (roster_greeted e id p h), if_pos rfl, hmember]
  rfl

theorem heard_greeted_other (p : Peer μ) (h : Hello) {j : PeerId} (hj : j ≠ id) :
    (e.greeted id p h).heard j = e.heard j := by
  apply heard_congr
  · rw [readyPeer?_of_insert (roster_greeted e id p h), if_neg hj]
  · intro group
    rw [isMember_greeted]
    simp [hj]

theorem heard_heeded (hp : e.readyPeer? id = some p) (body : Body) :
    (e.heeded id p body).heard id = (e.heard id).map (·.heed body) := by
  have hready : (p.followed body).ready = true := (readyPeer?_eq_some.mp hp).2
  have hmember : (e.heeded id p body).isMember id = body.groupsAfter (e.isMember id) := by
    funext group
    cases body with
    | join g status =>
      change (e.enrol id g).isMember id group = _
      rw [isMember_enrol]
      simp [Body.groupsAfter]
    | leave g status =>
      change (e.withdraw id g).isMember id group = _
      rw [isMember_withdraw]
      simp [Body.groupsAfter]
    | hello | whisper | shout | ping | pingOk => rfl
  rw [heard, readyPeer?_of_insert (roster_heeded e id p body), if_pos rfl, Option.filter_some, hready,
    hmember, heard, hp]
  rfl

theorem heard_heeded_other (p : Peer μ) (body : Body) {j : PeerId} (hj : j ≠ id) :
    (e.heeded id p body).heard j = e.heard j := by
  apply heard_congr
  · rw [readyPeer?_of_insert (roster_heeded e id p body), if_neg hj]
  · intro group
    exact (isMember_congr rfl j group).trans
      (isMember_regroup { e with roster := e.roster.insert id (p.followed body) } id body hj group)

/-- What is reported of one peer is nothing new of another. -/
theorem murmurs_of_other {new : List Event} {j : PeerId} (hj : j ≠ id)
    (hv : e'.events = e.events ++ new) (hpeer : ∀ ev ∈ new, ev.peer? = some id)
    (hr : e'.heard j = e.heard j) : e.Murmurs e' j := by
  refine ⟨new, hv, ?_, .inr hr⟩
  rw [Event.concerning_other hj hpeer]
  constructor
  · intro ev hev
    cases hev
  · intro _
    rfl

end
end Engine

namespace Station

section
variable {κ μ : Type} [Carriage κ μ] {near : PeerId → String → Prop} {s t : Station κ μ} {id : PeerId}
  {m : Message} {op : Op}

/-- What an engine knows of the sender of a message afterwards. -/
theorem Received.heard (h : s.Received near id m t) (hs : s.engine.Sound) :
    t.engine.heard id = none ∨ t.engine.heard id = hear (s.engine.heard id) m := by
  cases h with
  | unheard _ hr he =>
    left
    rw [he]
    exact Engine.heard_of_none hr
  | refused _ _ hr => exact .inl (Engine.heard_of_none hr)
  | lost _ hr he =>
    left
    rw [he]
    exact Engine.heard_of_none hr
  | @greeted u v p h hm hu hp hr he _ _ hv =>
    have hsound := (hu.sound hs).greeted hp h
    rw [← he] at hsound
    have hheard : v.engine.heard id = hear (s.engine.heard id) m := by
      rw [he, Engine.heard_greeted (hu.sound hs) hp hr, hm, hear_hello]
    obtain ⟨-, -, -, hlast⟩ := (hv.shifts hsound).murmurs hsound id
    exact hheard ▸ hlast
  | @heeded v p hm hp _ he _ _ hv =>
    obtain ⟨hentry, hready⟩ := Engine.readyPeer?_eq_some.mp hp
    have hsound := hs.heeded hentry hready m.body
    rw [← he] at hsound
    have hheard : v.engine.heard id = hear (s.engine.heard id) m := by
      rw [he, Engine.heard_heeded hp, hear_of_not_hello hm]
    obtain ⟨-, -, -, hlast⟩ := (hv.shifts hsound).murmurs hsound id
    exact hheard ▸ hlast

theorem Received.murmurs (h : s.Received near id m t)
    (hs : s.engine.Sound) {j : PeerId} (hj : j ≠ id) : s.engine.Murmurs t.engine j := by
  cases h with
  | unheard _ _ he => exact he ▸ .refl _ j
  | refused _ h => exact (h.shifts hs).murmurs hs j
  | lost h _ he => exact he ▸ (h.shifts hs).murmurs hs j
  | @greeted u v p h _ hu hp _ he _ _ hv =>
    have hsound := (hu.sound hs).greeted hp h
    rw [← he] at hsound
    have hgreet : u.engine.Murmurs v.engine j := he ▸ Engine.murmurs_of_other hj rfl
      (Engine.peer?_greeted id p h) (Engine.heard_greeted_other p h hj)
    exact (((hu.shifts hs).murmurs hs j).trans hgreet).trans ((hv.shifts hsound).murmurs hsound j)
  | @heeded v p _ hp _ he _ _ hv =>
    obtain ⟨hentry, hready⟩ := Engine.readyPeer?_eq_some.mp hp
    have hsound := hs.heeded hentry hready m.body
    rw [← he] at hsound
    have hheed : s.engine.Murmurs v.engine j := he ▸ Engine.murmurs_of_other hj rfl
      (Engine.peer?_reports m.body id p.name) (Engine.heard_heeded_other p m.body hj)
    exact hheed.trans ((hv.shifts hsound).murmurs hsound j)

theorem Received.alarms (h : s.Received near id m t)
    (hf : Fits (s.engine.heard id) m) : t.alarms = s.alarms := by
  cases h with
  | unheard _ _ _ _ ha => exact ha
  | refused _ h => exact h.alarms
  | lost _ _ _ _ hm =>
    exfalso
    cases hb : m.isHello with
    | true =>
      rw [hb, if_pos rfl] at hm
      obtain ⟨n, body⟩ := m
      cases body with
      | hello h => exact hm hf
      | _ => cases hb
    | false =>
      rw [hb, if_neg Bool.false_ne_true] at hm
      obtain ⟨p, hp, hn⟩ := hm
      exact hn ((fits_of_not_hello hb _).mp hf (Engine.heard_of_ready hp)).1
  | greeted _ hu _ _ _ _ ha hv => exact (hv.alarms.trans ha).trans hu.alarms
  | heeded hm hp _ _ _ ha hv =>
    exact hv.alarms.trans (ha ((fits_of_not_hello hm _).mp hf (Engine.heard_of_ready hp)).2)

/-- Without a message an engine only murmurs, whatever is done to it. -/
theorem Performed.murmurs (h : s.Performed near op t) (hs : s.engine.Sound)
    (hr : ∀ routingId frames now, op ≠ .receive routingId frames now) (hd : op ≠ .drain)
    (j : PeerId) : s.engine.Murmurs t.engine j := by
  cases h with
  | worked h => exact (h.shifts hs).murmurs hs j
  | dressed _ he => exact he ▸ .of_same rfl (.inr rfl)
  | @joined group _ u _ _ hok he _ _ h =>
    have hown : s.engine.Murmurs u.engine j := he ▸ .of_same rfl (.inr rfl)
    have hsound := hs.enlist hok
    rw [← he] at hsound
    exact hown.trans ((h.shifts hsound).murmurs hsound j)
  | @left group _ u _ _ he _ _ h =>
    have hown : s.engine.Murmurs u.engine j := he ▸ .of_same rfl (.inr rfl)
    have hsound := hs.delist group
    rw [← he] at hsound
    exact hown.trans ((h.shifts hsound).murmurs hsound j)
  | halted _ he =>
    rw [he]
    refine ⟨[.stop], rfl, ⟨?_, fun _ => rfl⟩, .inl rfl⟩
    intro ev hev
    cases hev
  | drained => exact absurd rfl hd
  | received => exact absurd rfl (hr _ _ _)

theorem Performed.alarms (h : s.Performed near op t)
    (hr : ∀ routingId frames now, op ≠ .receive routingId frames now) : t.alarms = s.alarms := by
  cases h with
  | worked h => exact h.alarms
  | dressed _ _ _ ha => exact ha
  | joined _ _ _ _ ha h => exact h.alarms.trans ha
  | left _ _ _ ha h => exact h.alarms.trans ha
  | halted _ _ _ ha => exact ha
  | drained _ _ ha => exact ha
  | received => exact absurd rfl (hr _ _ _)

end

variable {near : PeerId → String → Prop} {me who : Party} {s t : Station Recorded Network.Mailbox}

theorem Received.taken {m : Message} (h : s.Received near who.id m t)
    (hs : s.engine.Settled near me) (hwho : who.Apart near) :
    ∃ new, t.engine.events = s.engine.events ++ new ∧
      Taken who (s.engine.heard who.id) m (t.engine.heard who.id) (Event.concerning who.id new) := by
  cases h with
  | unheard _ hr he =>
    refine ⟨[], by rw [he, List.append_nil], ?_⟩
    rw [he, Engine.heard_of_none hr]
    exact .missed ⟨fun ev hev => (by cases hev), fun _ => rfl⟩
  | refused _ h hr =>
    obtain ⟨new, hnew, hmurmur, -⟩ := (h.shifts hs.sound).murmurs hs.sound who.id
    refine ⟨new, hnew, ?_⟩
    rw [Engine.heard_of_none hr]
    exact .missed hmurmur
  | lost h hr he =>
    obtain ⟨new, hnew, hmurmur, -⟩ := (h.shifts hs.sound).murmurs hs.sound who.id
    refine ⟨new, he ▸ hnew, ?_⟩
    rw [he, Engine.heard_of_none hr]
    exact .missed hmurmur
  | @greeted u v p h hm hu hp hr he _ _ hv =>
    have hus := (hu.speaks hs).settled
    have hplace : p.endpoint = who.endpoint := by
      rw [Peer.endpoint, hus.sound.connected hp, if_pos rfl]
      exact (hwho (hus.placed hp).2).mp rfl
    have hsound := hus.sound.greeted hp h
    rw [← he] at hsound
    have hheard : v.engine.heard who.id = hear (s.engine.heard who.id) m := by
      rw [he, Engine.heard_greeted hus.sound hp hr, hm, hear_hello]
    obtain ⟨before, hbefore, hmurmur, -⟩ := (hu.shifts hs.sound).murmurs hs.sound who.id
    obtain ⟨after, hafter, hmurmur', hlast⟩ := (hv.shifts hsound).murmurs hsound who.id
    have hjoins : ∀ ev ∈ h.groups.map fun group => Event.join who.id h.name group,
        ev.isQuiet = true := by
      intro ev hev
      obtain ⟨group, -, rfl⟩ := List.mem_map.mp hev
      rfl
    have hevents : v.engine.events = u.engine.events ++ .enter who.id h.name h.headers p.endpoint ::
        h.groups.map fun group => .join who.id h.name group := he ▸ rfl
    refine ⟨before ++ ((.enter who.id h.name h.headers p.endpoint ::
      h.groups.map fun group => .join who.id h.name group) ++ after), ?_, ?_⟩
    · rw [hafter, hevents, hbefore]
      simp only [List.append_assoc]
    · rw [Event.concerning_append, Event.concerning_append,
        Event.concerning_self (Engine.peer?_greeted who.id p h), hplace]
      refine .greeted hm hmurmur ?_ (hheard ▸ hlast)
      intro ev hev
      rcases List.mem_append.mp hev with hev | hev
      · exact hjoins ev hev
      · exact hmurmur'.quiet ev hev
  | @heeded v p hm hp _ he _ _ hv =>
    obtain ⟨hentry, hready⟩ := Engine.readyPeer?_eq_some.mp hp
    have hsound := hs.sound.heeded hentry hready m.body
    rw [← he] at hsound
    have hheard : v.engine.heard who.id = hear (s.engine.heard who.id) m := by
      rw [he, Engine.heard_heeded hp, hear_of_not_hello hm]
    obtain ⟨after, hafter, hmurmur, hlast⟩ := (hv.shifts hsound).murmurs hsound who.id
    have hevents : v.engine.events = s.engine.events ++ m.body.reports who.id p.name := he ▸ rfl
    refine ⟨m.body.reports who.id p.name ++ after, ?_, ?_⟩
    · rw [hafter, hevents, List.append_assoc]
    · rw [Event.concerning_append, Event.concerning_self (Engine.peer?_reports m.body who.id p.name)]
      exact .heeded (Engine.heard_of_ready hp) hm hmurmur.quiet (hheard ▸ hlast)

/-- What a node makes of a message from another. -/
structure Takes (who : Party) (m : Message) (s t : Station Recorded Network.Mailbox) : Prop where
  sender : ∃ new, t.engine.events = s.engine.events ++ new ∧
    Taken who (s.engine.heard who.id) m (t.engine.heard who.id) (Event.concerning who.id new)
  others : ∀ {j}, j ≠ who.id → s.engine.Murmurs t.engine j
  alarms : Fits (s.engine.heard who.id) m → t.alarms = s.alarms

theorem takes_receive (hs : s.engine.Settled near me) (hwho : who.Apart near)
    (hnear : near who.id who.endpoint) {routingId : List UInt8} {frames : Content} {m : Message}
    (hid : routingId = who.id.routingId) (hm : Wire.decode frames = .ok m)
    (hhello : ∀ h, m.body = .hello h → h.endpoint = who.endpoint) (walk : Walk) (now : Nat) :
    Takes who m s (s.receive walk routingId frames now) := by
  cases hrun : s.engine.stopped with
  | true =>
    rw [receive_of_stopped hrun]
    have hnone : s.engine.heard who.id = none := by
      apply Engine.heard_of_none
      rw [Engine.readyPeer?, (hs.sound.halted hrun).1]
      rfl
    refine ⟨⟨[], (List.append_nil _).symm, ?_⟩, fun {j} _ => .refl _ j, fun _ => rfl⟩
    rw [hnone]
    exact .missed ⟨fun ev hev => (by cases hev), fun _ => rfl⟩
  | false =>
    have hsender : PeerId.ofRoutingId? routingId = some who.id := by
      rw [hid, PeerId.ofRoutingId?_routingId]
    have hplace : ∀ {h : Hello}, m.body = .hello h → near who.id h.endpoint := by
      intro h hb
      rw [hhello h hb]
      exact hnear
    have hreceived := received_receive hs.sound hrun walk hm hsender hplace now
    exact ⟨hreceived.taken hs hwho, fun hj => hreceived.murmurs hs.sound hj, hreceived.alarms⟩

end Station
end PeerMesh
