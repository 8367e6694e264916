import PeerMesh.Proofs.Engine.Alike
import PeerMesh.Proofs.Station.Signs
import PeerMesh.Proofs.Station.Story

/-!
# When a greeting is accepted

A HELLO is dealt with in a fixed order: a peer that is ready starts over, the engine's own identity
and endpoint are shunned, whoever is at the endpoint makes room, the peer is met unless it was
expected, and only then its number is looked at. `Introduction` lists what can come of that, with
the engine that remains. Whether the peer enters can be told before.
-/

namespace PeerMesh
set_option autoImplicit false

variable {κ μ : Type}

/-- What is reported when a peer enters. -/
def Event.entrance (id : PeerId) (endpoint : String) (h : Hello) : List Event :=
  .enter id h.name h.headers endpoint :: h.groups.map fun group => .join id h.name group

theorem Event.peer?_entrance (id : PeerId) (endpoint : String) (h : Hello) :
    ∀ ev ∈ entrance id endpoint h, ev.peer? = some id := by
  intro ev hev
  rcases List.mem_cons.mp hev with rfl | hev
  · rfl
  · obtain ⟨group, -, rfl⟩ := List.mem_map.mp hev
    rfl

namespace Engine
variable {e : Engine μ} {id : PeerId} {p : Peer μ}

/-- What is reported when a peer is removed. -/
def parting (e : Engine μ) (id : PeerId) : List Event :=
  match e.readyPeer? id with
  | some p => Event.farewell id p.name (e.groupsOf id)
  | none => []

theorem readyPeer?_of_unready (hp : e.roster.get? id = some p) (hr : p.ready = false) :
    e.readyPeer? id = none := by
  rw [readyPeer?, hp, Option.filter_some, hr]
  rfl

theorem readyPeer?_of_none (hp : e.roster.get? id = none) : e.readyPeer? id = none := by
  rw [readyPeer?, hp]
  rfl

theorem parting_of_not_ready (hp : e.readyPeer? id = none) : e.parting id = [] := by
  rw [parting, hp]

theorem peer?_parting (e : Engine μ) (id : PeerId) : ∀ ev ∈ e.parting id, ev.peer? = some id := by
  unfold parting
  split
  · exact Event.peer?_farewell
  · intro ev hev
    cases hev

theorem enter_notMem_parting (e : Engine μ) (id j : PeerId) (name : String) (headers : Headers)
    (endpoint : String) : Event.enter j name headers endpoint ∉ e.parting id := by
  unfold parting Event.farewell
  split <;> simp

theorem events_drop (hs : e.Sound) (id : PeerId) :
    (e.drop id).events = e.events ++ e.parting id := by
  cases hp : e.roster.get? id with
  | none =>
    rw [drop_of_none hp, parting_of_not_ready (readyPeer?_of_none hp), List.append_nil]
  | some p =>
    have hentered : p.ready = p.declaredName.isSome := hs.entered hp
    cases hn : p.declaredName with
    | none =>
      rw [hn] at hentered
      rw [events_drop_of_unnamed hp hn, parting_of_not_ready (readyPeer?_of_unready hp hentered),
        List.append_nil]
    | some name =>
      rw [hn] at hentered
      have hname : p.name = name := by
        rw [Peer.name, hn]
        rfl
      rw [events_drop_of_named hp hn, parting, readyPeer?_eq_some.mpr ⟨hp, hentered⟩]
      dsimp only
      rw [hname, Event.farewell]

/-- The engine after the greeting with number `n` of a peer that it expected, with the entry `p`. -/
def settle (e : Engine μ) (id : PeerId) (p : Peer μ) (n : UInt16) (h : Hello) (now : Nat) :
    Engine μ :=
  if n = 1 then (e.greeted id p h).refresh id now else e.drop id

theorem alike_settle (e : Engine μ) {b : PeerId} (hb : b ≠ id) (p : Peer μ) (n : UInt16)
    (h : Hello) (now : Nat) : e.Alike b (e.settle id p n h now) := by
  unfold settle
  split
  · exact (e.alike_greeted hb p h).trans (alike_editPeer _ hb _)
  · exact e.alike_drop hb

theorem events_settle (hp : e.roster.get? id = some p) (hn : p.declaredName = none) (n : UInt16)
    (h : Hello) (now : Nat) : (e.settle id p n h now).events =
      e.events ++ if n = 1 then Event.entrance id p.endpoint h else [] := by
  unfold settle
  split
  · rw [refresh, editPeer]
    split <;> rfl
  · rw [events_drop_of_unnamed hp hn, List.append_nil]

theorem get?_settle (e : Engine μ) (id : PeerId) (p : Peer μ) (n : UInt16) (h : Hello) (now : Nat) :
    if n = 1 then ∃ q, (e.settle id p n h now).roster.get? id = some q ∧ q.ready = true
    else (e.settle id p n h now).roster.get? id = none := by
  unfold settle
  split
  · have hentry : (e.greeted id p h).roster.get? id = some (p.introduced h) := by
      rw [roster_greeted, SortedMap.get?_insert, if_pos rfl]
    exact ⟨_, get?_editPeer hentry _, rfl⟩
  · rw [get?_drop, if_pos rfl]

end Engine

namespace Station
variable {s t u : Station κ μ} {id : PeerId} {p : Peer μ} {n : UInt16} {h : Hello}

/-! ### Starting over, and making room -/

theorem engine_reset (s : Station κ μ) (id : PeerId) : (s.reset id).engine =
    if (s.engine.readyPeer? id).isSome then s.engine.drop id else s.engine := by
  unfold reset
  split
  · rw [engine_remove]
    rfl
  · rfl

theorem carriage_reset (s : Station κ μ) (id : PeerId) : (s.reset id).carriage = s.carriage := by
  unfold reset
  split
  · rw [carriage_remove]
    rfl
  · rfl

theorem events_reset (hs : s.engine.Sound) (id : PeerId) :
    (s.reset id).engine.events = s.engine.events ++ s.engine.parting id := by
  rw [engine_reset]
  cases hp : s.engine.readyPeer? id with
  | none =>
    rw [Engine.parting_of_not_ready hp, List.append_nil]
    rfl
  | some p => exact Engine.events_drop hs id

/-- Of the peer itself only an entry that is not ready is left. -/
theorem get?_reset (s : Station κ μ) (id : PeerId) :
    (s.reset id).engine.roster.get? id = (s.engine.roster.get? id).filter (!·.ready) := by
  rw [engine_reset]
  cases hp : s.engine.roster.get? id with
  | none =>
    rw [Engine.readyPeer?_of_none hp]
    exact hp
  | some p =>
    cases hr : p.ready with
    | true =>
      rw [Engine.readyPeer?_eq_some.mpr ⟨hp, hr⟩, Option.isSome_some, if_pos rfl, Engine.get?_drop,
        if_pos rfl, Option.filter_some, hr]
      rfl
    | false =>
      rw [Engine.readyPeer?_of_unready hp hr, Option.filter_some, hr]
      exact hp

theorem alike_reset (s : Station κ μ) {b : PeerId} (hb : b ≠ id) :
    s.engine.Alike b (s.reset id).engine := by
  rw [engine_reset]
  split
  · exact s.engine.alike_drop hb
  · exact .refl b s.engine

/-- At most one peer makes room, since no two have their mailboxes at one endpoint. -/
theorem engine_purge (hs : s.engine.Sound) (walk : Walk) (endpoint : String) :
    (s.purge walk endpoint).engine = s.engine ∧
        (∀ {j q}, s.engine.roster.get? j = some q → q.endpoint ≠ endpoint) ∨
      ∃ y q, s.engine.roster.get? y = some q ∧ q.endpoint = endpoint ∧
        (s.purge walk endpoint).engine = s.engine.drop y := by
  obtain ⟨_ | ⟨y, _ | ⟨z, rest⟩⟩, hn, hmem, heq⟩ := s.exists_stale walk endpoint
  · refine .inl ⟨congrArg engine heq, fun {j q} hq hthere => ?_⟩
    exact List.not_mem_nil (hmem.mpr ⟨q, hq, hthere⟩)
  · obtain ⟨q, hq, hthere⟩ := hmem.mp (List.mem_singleton_self y)
    refine .inr ⟨y, q, hq, hthere, ?_⟩
    rw [heq, engine_foldl_purge]
    rfl
  · obtain ⟨q, hq, hthere⟩ := hmem.mp List.mem_cons_self
    obtain ⟨r, hr, hthere'⟩ := hmem.mp (List.mem_cons_of_mem y List.mem_cons_self)
    have hsame : y = z := hs.apart hq hr (hthere.trans hthere'.symm)
    exact absurd (hsame ▸ List.mem_cons_self) (List.nodup_cons.mp hn).1

/-- Until a new peer is met, all that is reported of it is that it has gone. -/
theorem events_room (hs : s.engine.Sound) (hnew : (s.reset id).engine.roster.get? id = none)
    (walk : Walk) (endpoint : String) : ∃ between,
    ((s.reset id).purge walk endpoint).engine.events =
      s.engine.events ++ (s.engine.parting id ++ between) ∧ Event.concerning id between = [] := by
  rcases engine_purge (sound_reset hs id) walk endpoint with ⟨he, -⟩ | ⟨y, q, hq, -, he⟩
  · exact ⟨[], by rw [he, events_reset hs, List.append_nil], rfl⟩
  · have hy : id ≠ y := by
      rintro rfl
      rw [hnew] at hq
      cases hq
    refine ⟨(s.reset id).engine.parting y, ?_, Event.concerning_other hy (Engine.peer?_parting _ y)⟩
    rw [he, Engine.events_drop (sound_reset hs id), events_reset hs, List.append_assoc]

theorem self_reset (s : Station κ μ) (id : PeerId) : s.engine.SameSelf (s.reset id).engine := by
  have hcalm : s.engine.Calm (fun _ => True) (s.reset id).engine := s.calm_reset id
  exact hcalm.self

theorem self_room (s : Station κ μ) (id : PeerId) (walk : Walk) (endpoint : String) :
    s.engine.SameSelf ((s.reset id).purge walk endpoint).engine := by
  have hcalm : (s.reset id).engine.Calm (fun _ => True) ((s.reset id).purge walk endpoint).engine :=
    (s.reset id).calm_purge walk endpoint
  exact (s.self_reset id).trans hcalm.self

/-- A peer that makes room was there before. -/
theorem get?_room (hnew : (s.reset id).engine.roster.get? id = none) (walk : Walk)
    (endpoint : String) : ((s.reset id).purge walk endpoint).engine.roster.get? id = none := by
  rw [Option.eq_none_iff_forall_ne_some]
  intro q hq
  rw [((s.reset id).get?_purge walk endpoint hq).1] at hnew
  cases hnew

theorem not_unready (hnew : (s.reset id).engine.roster.get? id = none)
    (hp : s.engine.roster.get? id = some p) : p.ready = true := by
  rw [get?_reset, hp, Option.filter_some] at hnew
  simpa using hnew

section
variable [Carriage κ μ] {walk : Walk} {now : Nat} {endpoint : String}

/-! ### The greeting of the engine itself -/

/-- Connecting to an endpoint and sending the greeting of the engine there both succeed. -/
def Reaches (s : Station κ μ) (endpoint : String) : Prop :=
  ∃ (box : μ) (c : κ) (frames : Content) (c' : κ),
    Carriage.connect s.carriage s.engine.id.routingId endpoint = (.ok box, c) ∧
    Wire.encode ⟨1, .hello s.engine.hello⟩ = .ok frames ∧
    Carriage.send c box frames = (.ok (), c')

theorem reaches_congr (hself : s.engine.SameSelf t.engine) (hc : t.carriage = s.carriage)
    (endpoint : String) : t.Reaches endpoint ↔ s.Reaches endpoint := by
  unfold Reaches
  rw [hc, hself.id, hself.hello]

theorem Meeting.of_vain (hmeet : s.Meeting id endpoint now (false, t)) :
    t.engine = s.engine ∧ ¬ s.Reaches endpoint := by
  cases hmeet with
  | unreached hc he =>
    refine ⟨he, fun ⟨box, c, frames, c', hc', _⟩ => ?_⟩
    rw [hc] at hc'
    cases hc'
  | formless _ hf he =>
    refine ⟨he, fun ⟨box, c, frames, c', _, hf', _⟩ => ?_⟩
    rw [hf] at hf'
    cases hf'
  | shut hc hs he hf =>
    refine ⟨he, fun ⟨box, c, frames, c', hc', hf', hs'⟩ => ?_⟩
    cases hc.symm.trans hc'
    cases hf.symm.trans hf'
    cases hs.symm.trans hs'

theorem Meeting.of_met (hmeet : s.Meeting id endpoint now (true, u)) : s.Reaches endpoint ∧
    ∃ p, u.engine = s.engine.putPeer p ∧ p.id = id ∧ p.ready = false ∧ p.declaredName = none := by
  cases hmeet with
  | @met box c frames _ hc hf hs he =>
    exact ⟨⟨box, c, frames, _, hc, hf, hs⟩, _, he, rfl, rfl, rfl⟩

/-- All that can come of the HELLO of `id` with number `n` at an engine that runs. -/
inductive Introduction (s : Station κ μ) (walk : Walk) (id : PeerId) (n : UInt16) (h : Hello)
    (now : Nat) (t : Station κ μ) : Prop
  | shunned (hself : id = s.engine.id ∨ h.endpoint = s.engine.endpoint)
    (he : t.engine = (s.reset id).engine) (hc : t.carriage = s.carriage)
  | expected {p : Peer μ} (hid : id ≠ s.engine.id) (hep : h.endpoint ≠ s.engine.endpoint)
    (hp : s.engine.roster.get? id = some p) (hr : p.ready = false)
    (he : t.engine = s.engine.settle id p n h now) (hc : t.carriage = s.carriage)
  | unmet (hid : id ≠ s.engine.id) (hep : h.endpoint ≠ s.engine.endpoint)
    (hnew : (s.reset id).engine.roster.get? id = none)
    (hmeet : ((s.reset id).purge walk h.endpoint).Meeting id h.endpoint now (false, t))
  | met {u : Station κ μ} {p : Peer μ} (hid : id ≠ s.engine.id) (hep : h.endpoint ≠ s.engine.endpoint)
    (hnew : (s.reset id).engine.roster.get? id = none)
    (hmeet : ((s.reset id).purge walk h.endpoint).Meeting id h.endpoint now (true, u))
    (hp : u.engine.roster.get? id = some p) (hn : p.declaredName = none)
    (he : t.engine = u.engine.settle id p n h now) (hc : t.carriage = u.carriage)

theorem accept_settles (hp : s.engine.roster.get? id = some p) (n : UInt16) (h : Hello)
    (now : Nat) :
    let t := (s.edit (·.editPeer id ({ · with ready := true }))).accept id ⟨n, .hello h⟩ now
    t.engine = s.engine.settle id p n h now ∧ t.carriage = s.carriage := by
  intro t
  unfold Engine.settle
  split
  · rename_i hn
    obtain ⟨v, he, hc, -, haccept⟩ := accept_greeting_first (m := ⟨n, .hello h⟩) hp rfl hn now
    have ht : t = v.edit (·.refresh id now) := haccept
    rw [ht, engine_edit, he]
    exact ⟨rfl, hc⟩
  · rename_i hn
    exact accept_greeting_lost (m := ⟨n, .hello h⟩) hp rfl hn now

theorem introduction_receive (hrun : s.engine.stopped = false) {routingId : List UInt8}
    {frames : Content} (hm : Wire.decode frames = .ok ⟨n, .hello h⟩)
    (hd : PeerId.ofRoutingId? routingId = some id) (walk : Walk) (now : Nat) :
    s.Introduction walk id n h now (s.receive walk routingId frames now) := by
  have hself := s.self_reset id
  by_cases hown : id = s.engine.id ∨ h.endpoint = s.engine.endpoint
  · have hvain : (s.reset id).require walk id h.endpoint now = (false, s.reset id) := by
      rw [require, hself.id, hself.endpoint, if_pos (by simpa using hown)]
    rw [receive_of_not_welcome hrun hm hd rfl (welcome_of_not_required hvain)]
    exact .shunned hown rfl (s.carriage_reset id)
  · obtain ⟨hid, hep⟩ := not_or.mp hown
    cases hp : (s.reset id).engine.roster.get? id with
    | some p =>
      have hknown := hp
      rw [get?_reset, Option.filter_eq_some_iff] at hknown
      obtain ⟨hknown, hr⟩ := hknown
      have hsame : s.reset id = s := by
        rw [reset, Engine.readyPeer?_of_unready hknown (by simpa using hr)]
        rfl
      have hreq := require_of_some (hself.id ▸ hid) (hself.endpoint ▸ hep) hp walk now
      obtain ⟨he, hc⟩ := accept_settles hp n h now
      rw [receive_of_welcome hrun hm hd rfl (welcome_of_required hreq)]
      rw [hsame] at he hc ⊢
      exact .expected hid hep hknown (by simpa using hr) he hc
    | none =>
      have hreq := require_of_none (hself.id ▸ hid) (hself.endpoint ▸ hep) hp walk now
      have hmeet := ((s.reset id).purge walk h.endpoint).meeting_meet id h.endpoint now
      rcases hu : ((s.reset id).purge walk h.endpoint).meet id h.endpoint now with ⟨_ | _, u⟩ <;>
        rw [hu] at hreq hmeet
      · rw [receive_of_not_welcome hrun hm hd rfl (welcome_of_not_required hreq)]
        exact .unmet hid hep hp hmeet
      · obtain ⟨-, p, hput, hpid, hr, hn⟩ := hmeet.of_met
        have hentry : u.engine.roster.get? id = some p := by
          rw [hput, Engine.putPeer, hpid, SortedMap.get?_insert, if_pos rfl]
        obtain ⟨he, hc⟩ := accept_settles hentry n h now
        rw [receive_of_welcome hrun hm hd rfl (welcome_of_required hreq)]
        exact .met hid hep hp hmeet hentry hn he hc

/-! ### Who enters -/

/-- The HELLO of `id` with number `n` is accepted. -/
structure Admits (s : Station κ μ) (id : PeerId) (n : UInt16) (h : Hello) : Prop where
  running : s.engine.stopped = false
  other : id ≠ s.engine.id
  elsewhere : h.endpoint ≠ s.engine.endpoint
  first : n = 1
  reached : (∃ p, s.engine.roster.get? id = some p ∧ p.ready = false) ∨ s.Reaches h.endpoint

/-- After the HELLO of `id` the peer is in, and it was reported. -/
structure Enters (s : Station κ μ) (id : PeerId) (h : Hello) (t : Station κ μ) : Prop where
  entry : ∃ q, t.engine.roster.get? id = some q ∧ q.ready = true
  events : ∃ between endpoint, t.engine.events =
    s.engine.events ++ (s.engine.parting id ++ between ++ Event.entrance id endpoint h) ∧
    Event.concerning id between = []

/-- After the HELLO of `id` the peer is not in. What is left of it was there before. -/
structure Refuses (s : Station κ μ) (id : PeerId) (h : Hello) (t : Station κ μ) : Prop where
  entry : ∀ {q}, t.engine.roster.get? id = some q →
    s.engine.roster.get? id = some q ∧ q.ready = false ∧ h.endpoint = s.engine.endpoint
  events : ∃ between, t.engine.events = s.engine.events ++ (s.engine.parting id ++ between) ∧
    Event.concerning id between = []

theorem reaches_room (s : Station κ μ) (id : PeerId) (walk : Walk) (endpoint : String) :
    ((s.reset id).purge walk endpoint).Reaches endpoint ↔ s.Reaches endpoint :=
  reaches_congr (s.self_room id walk endpoint)
    ((carriage_purge _ walk endpoint).trans (s.carriage_reset id)) endpoint

theorem Introduction.outcome {t : Station κ μ} (hi : s.Introduction walk id n h now t)
    (hs : s.engine.Sound) (hrun : s.engine.stopped = false) :
    s.Admits id n h ∧ s.Enters id h t ∨ ¬ s.Admits id n h ∧ s.Refuses id h t := by
  cases hi with
  | shunned hself he =>
    refine .inr ⟨fun ha => hself.elim ha.other ha.elsewhere, ?_, ?_⟩
    · intro q hq
      rw [he, get?_reset, Option.filter_eq_some_iff] at hq
      obtain ⟨hq, hr⟩ := hq
      exact ⟨hq, by simpa using hr, hself.resolve_left (hs.foreign_id hq)⟩
    · exact ⟨[], by rw [he, events_reset hs, List.append_nil], rfl⟩
  | @expected p hid hep hp hr he =>
    have hunnamed : p.declaredName = none := by
      have hentered := hs.entered hp
      rw [hr] at hentered
      exact Option.isNone_iff_eq_none.mp (by simpa [Peer.hasEntered] using hentered.symm)
    have hquiet := Engine.parting_of_not_ready (Engine.readyPeer?_of_unready hp hr)
    have hevents := Engine.events_settle hp hunnamed n h now
    have hentry := s.engine.get?_settle id p n h now
    rw [← he] at hevents hentry
    by_cases hn : n = 1
    · rw [if_pos hn] at hevents hentry
      refine .inl ⟨⟨hrun, hid, hep, hn, .inl ⟨p, hp, hr⟩⟩, hentry, [], p.endpoint, ?_, rfl⟩
      rw [hevents, hquiet]
      rfl
    · rw [if_neg hn] at hevents hentry
      refine .inr ⟨fun ha => hn ha.first, fun hq => ?_, [], ?_, rfl⟩
      · rw [hentry] at hq
        cases hq
      · rw [hevents, hquiet]
        rfl
  | unmet hid hep hnew hmeet =>
    -- The peer and whoever was at its endpoint are gone already, whatever the carriage answered.
    obtain ⟨he, hvain⟩ := hmeet.of_vain
    obtain ⟨between, hevents, hbetween⟩ := events_room hs hnew walk h.endpoint
    have hnone := get?_room hnew walk h.endpoint
    rw [reaches_room] at hvain
    rw [← he] at hevents hnone
    refine .inr ⟨fun ha => ?_, fun hq => ?_, between, hevents, hbetween⟩
    · rcases ha.reached with ⟨p, hp, hr⟩ | hreach
      · rw [not_unready hnew hp] at hr
        cases hr
      · exact hvain hreach
    · rw [hnone] at hq
      cases hq
  | @met u p hid hep hnew hmeet hp hunnamed he =>
    obtain ⟨hreach, q, hput, -⟩ := hmeet.of_met
    obtain ⟨between, hroom, hbetween⟩ := events_room hs hnew walk h.endpoint
    have hsame : u.engine.events = ((s.reset id).purge walk h.endpoint).engine.events := by
      rw [hput]
      rfl
    have hevents := Engine.events_settle hp hunnamed n h now
    have hentry := u.engine.get?_settle id p n h now
    rw [reaches_room] at hreach
    rw [← he, hsame, hroom, List.append_assoc] at hevents
    rw [← he] at hentry
    by_cases hn : n = 1
    · rw [if_pos hn] at hevents hentry
      exact .inl ⟨⟨hrun, hid, hep, hn, .inr hreach⟩, hentry, between, p.endpoint, hevents, hbetween⟩
    · rw [if_neg hn, List.append_nil] at hevents
      rw [if_neg hn] at hentry
      refine .inr ⟨fun ha => hn ha.first, fun hq => ?_, between, hevents, hbetween⟩
      rw [hentry] at hq
      cases hq

omit [Carriage κ μ] in
/-- What was reported since `s`. -/
def news (s t : Station κ μ) : List Event := t.engine.events.drop s.engine.events.length

omit [Carriage κ μ] in
theorem news_of_append {new : List Event} (h : t.engine.events = s.engine.events ++ new) :
    s.news t = new := by
  rw [news, h, List.drop_left]

/-- What comes of the HELLO of `id` with number `n`. -/
structure Admission (s : Station κ μ) (id : PeerId) (n : UInt16) (h : Hello) (t : Station κ μ) :
    Prop where
  events : t.engine.events = s.engine.events ++ s.news t
  entered : (∃ name headers endpoint, Event.enter id name headers endpoint ∈ s.news t) ↔
    s.Admits id n h
  listed : id ∈ t.engine.peers ↔ s.Admits id n h
  admitted : s.Admits id n h → ∃ endpoint,
    Event.concerning id (s.news t) = s.engine.parting id ++ Event.entrance id endpoint h
  /-- Only a peer that was waited for keeps its entry, and it is not ready. -/
  kept : ¬ s.Admits id n h → ∀ {q}, t.engine.roster.get? id = some q →
    q.ready = false ∧ s.engine.roster.get? id = some q ∧
      (h.endpoint = s.engine.endpoint ∨ s.engine.stopped = true)
  refused : ¬ s.Admits id n h →
    t.engine.groupsOf id = [] ∧ Event.concerning id (s.news t) = s.engine.parting id
  /-- Nothing is left of a peer that was to be met and could not. -/
  unmet : s.engine.stopped = false → id ≠ s.engine.id → h.endpoint ≠ s.engine.endpoint →
    (∀ {p}, s.engine.roster.get? id = some p → p.ready = true) → ¬ s.Reaches h.endpoint →
    t.engine.roster.get? id = none

theorem Enters.admission {t : Station κ μ} (he : s.Enters id h t) (ha : s.Admits id n h) :
    s.Admission id n h t := by
  obtain ⟨between, endpoint, hevents, hbetween⟩ := he.events
  have hnews := news_of_append hevents
  have hentrance : Event.enter id h.name h.headers endpoint ∈ s.news t := by
    rw [hnews]
    exact List.mem_append_right _ List.mem_cons_self
  refine ⟨hnews ▸ hevents, iff_of_true ⟨_, _, _, hentrance⟩ ha,
    iff_of_true (Engine.mem_peers.mpr he.entry) ha, fun _ => ⟨endpoint, ?_⟩, fun hno => absurd ha hno,
    fun hno => absurd ha hno, fun _ _ _ hold hvain => ?_⟩
  · rw [hnews, Event.concerning_append, Event.concerning_append, hbetween, List.append_nil,
      Event.concerning_self (Engine.peer?_parting _ id),
      Event.concerning_self (Event.peer?_entrance id endpoint h)]
  · rcases ha.reached with ⟨p, hp, hr⟩ | hreach
    · rw [hold hp] at hr
      cases hr
    · exact absurd hreach hvain

theorem Refuses.admission {t : Station κ μ} (hr : s.Refuses id h t) (ht : t.engine.Sound)
    (hno : ¬ s.Admits id n h) : s.Admission id n h t := by
  obtain ⟨between, hevents, hbetween⟩ := hr.events
  have hnews := news_of_append hevents
  have htold : Event.concerning id (s.news t) = s.engine.parting id := by
    rw [hnews, Event.concerning_append, hbetween, List.append_nil,
      Event.concerning_self (Engine.peer?_parting _ id)]
  have hout : t.engine.readyPeer? id = none := by
    rw [Option.eq_none_iff_forall_ne_some]
    intro q hq
    obtain ⟨hq, hready⟩ := Engine.readyPeer?_eq_some.mp hq
    rw [(hr.entry hq).2.1] at hready
    cases hready
  refine ⟨hnews ▸ hevents, iff_of_false ?_ hno, iff_of_false ?_ hno, fun ha => absurd ha hno,
    fun _ q hq => ?_, fun _ => ⟨?_, htold⟩, fun _ _ hep hold _ => ?_⟩
  · rintro ⟨name, headers, endpoint, henter⟩
    have hconcerns : Event.enter id name headers endpoint ∈ Event.concerning id (s.news t) :=
      List.mem_filter.mpr ⟨henter, decide_eq_true rfl⟩
    rw [htold] at hconcerns
    exact s.engine.enter_notMem_parting id id name headers endpoint hconcerns
  · intro hlisted
    obtain ⟨q, hq, hready⟩ := Engine.mem_peers.mp hlisted
    rw [Engine.readyPeer?_eq_some.mpr ⟨hq, hready⟩] at hout
    cases hout
  · obtain ⟨hold, hready, hep⟩ := hr.entry hq
    exact ⟨hready, hold, .inl hep⟩
  · rw [List.eq_nil_iff_forall_not_mem]
    intro group hgroup
    rw [Engine.mem_groupsOf, ht.not_member hout] at hgroup
    cases hgroup
  · rw [Option.eq_none_iff_forall_ne_some]
    intro q hq
    exact hep (hr.entry hq).2.2

theorem admission_receive (hs : s.engine.Sound) {routingId : List UInt8} {frames : Content}
    (hm : Wire.decode frames = .ok ⟨n, .hello h⟩) (hd : PeerId.ofRoutingId? routingId = some id)
    (walk : Walk) (now : Nat) : s.Admission id n h (s.receive walk routingId frames now) := by
  have ht : (s.receive walk routingId frames now).engine.Sound :=
    sound_step hs walk (.receive routingId frames now)
  cases hrun : s.engine.stopped with
  | true =>
    have hnone : ∀ j, s.engine.roster.get? j = none := by
      intro j
      rw [(hs.halted hrun).1]
      rfl
    have hno : ¬ s.Admits id n h := by
      intro ha
      rw [ha.running] at hrun
      cases hrun
    have hquiet := Engine.parting_of_not_ready (Engine.readyPeer?_of_none (hnone id))
    rw [receive_of_stopped hrun] at ht ⊢
    refine Refuses.admission ⟨fun hq => ?_, [], ?_, rfl⟩ ht hno
    · rw [hnone] at hq
      cases hq
    · rw [hquiet, List.append_nil, List.append_nil]
  | false =>
    rcases (introduction_receive hrun hm hd walk now).outcome hs hrun with ⟨ha, he⟩ | ⟨hno, hr⟩
    · exact he.admission ha
    · exact hr.admission ht hno

/-- Whatever was done to an engine that was new, and whatever the carriage answers then. -/
theorem admission_run_new (self : PeerId) (name endpoint : String) (timing : Timing) (first c : κ)
    (turns : List (Turn κ)) {routingId : List UInt8} {frames : Content}
    (hm : Wire.decode frames = .ok ⟨n, .hello h⟩) (hd : PeerId.ofRoutingId? routingId = some id)
    (walk : Walk) (now : Nat) :
    let s : Station κ μ :=
      { (new (Engine.new self name endpoint timing) first).run turns with carriage := c }
    s.Admission id n h (s.receive walk routingId frames now) := by
  intro s
  have hs : s.engine.Sound := sound_run (Engine.sound_new self name endpoint timing) turns
  exact admission_receive hs hm hd walk now

/-- Bob has entered, and greets again from another place. -/
theorem admission_run_moved :
    let ann : PeerId := ⟨.replicate 16 1, rfl⟩
    let bob : PeerId := ⟨.replicate 16 2, rfl⟩
    let net := (Network.empty.bind "b").bind "c"
    let frames (m : Message) : Content := (Wire.encode m).toOption.getD []
    let h : Hello := ⟨"c", ["f"], 1, "bob", .empty⟩
    let turns : List (Turn Network) :=
      [⟨.ascending, net, .receive bob.routingId (frames ⟨1, .hello ⟨"b", ["g"], 1, "bob", .empty⟩⟩) 0⟩]
    let s : Station Network Network.Mailbox :=
      { (new (.new ann "ann" "a" .usual) net).run turns with carriage := net }
    let t := s.receive .ascending bob.routingId (frames ⟨1, .hello h⟩) 1
    Wire.decode (frames ⟨1, .hello h⟩) = .ok ⟨1, .hello h⟩ ∧
      PeerId.ofRoutingId? bob.routingId = some bob ∧ s.engine.peers = [bob] ∧
      s.news t = [.exit bob "bob", .leave bob "bob" "g", .enter bob "bob" .empty "c",
        .join bob "bob" "f"] ∧ s.Admission bob 1 h t := by
  intro ann bob net frames h turns s t
  have hm : Wire.decode (frames ⟨1, .hello h⟩) = .ok ⟨1, .hello h⟩ := by decide +kernel
  have hd : PeerId.ofRoutingId? bob.routingId = some bob := by decide +kernel
  exact ⟨hm, hd, by decide +kernel, by decide +kernel,
    admission_run_new ann "ann" "a" .usual net net turns hm hd .ascending 1⟩

end

end Station
end PeerMesh
