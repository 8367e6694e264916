import PeerMesh.Network
import PeerMesh.Proofs.Station.Soundness

/-!
# The events tell everything that can be asked

An application that keeps book of the events, and of nothing else, knows what the queries of its
engine answer: who is there, with which name, headers and endpoint, and who is in which group.

The book is compared with the tables of the engine after every shift and every message. That an
engine is sound matters here: a peer that never entered leaves without an event, so it must not
have been in a group.
-/

namespace PeerMesh
set_option autoImplicit false

variable {κ μ : Type}

def Event.concerning (id : PeerId) (events : List Event) : List Event :=
  events.filter fun ev => decide (ev.peer? = some id)

namespace Event

theorem concerning_append (id : PeerId) (events new : List Event) :
    concerning id (events ++ new) = concerning id events ++ concerning id new :=
  List.filter_append ..

theorem concerning_self {id : PeerId} {events : List Event}
    (h : ∀ ev ∈ events, ev.peer? = some id) : concerning id events = events :=
  List.filter_eq_self.mpr fun ev hev => decide_eq_true (h ev hev)

theorem concerning_other {id j : PeerId} {events : List Event} (hj : j ≠ id)
    (h : ∀ ev ∈ events, ev.peer? = some id) : concerning j events = [] := by
  apply List.filter_eq_nil_iff.mpr
  intro ev hev
  rw [h ev hev, decide_eq_true_eq, Option.some.injEq]
  exact hj.symm

end Event

/-- What an ENTER tells of a peer. -/
structure Profile where
  name : String
  headers : Headers
  endpoint : String

/-- What the events told so far. -/
structure Picture where
  profile : PeerId → Option Profile
  paired : PeerId → String → Bool

namespace Picture

def blank : Picture := ⟨fun _ => none, fun _ _ => false⟩

def see (v : Picture) : Event → Picture
  | .enter id name headers endpoint =>
    { v with profile := fun j => if j = id then some ⟨name, headers, endpoint⟩ else v.profile j }
  | .exit id _ => { v with profile := fun j => if j = id then none else v.profile j }
  | .join id _ group =>
    { v with paired := fun j g => (decide (j = id) && decide (g = group)) || v.paired j g }
  | .leave id _ group =>
    { v with paired := fun j g => !(decide (j = id) && decide (g = group)) && v.paired j g }
  | .evasive .. | .whisper .. | .shout .. | .stop => v

/-- The picture that many events give. -/
def of (events : List Event) : Picture := events.foldl see blank

/-- The picture answers every query as the engine does. -/
structure Agrees (v : Picture) (e : Engine μ) : Prop where
  ascending : e.peers.Pairwise (· < ·)
  peers : ∀ id, id ∈ e.peers ↔ (v.profile id).isSome = true
  peersInGroup : ∀ id group, id ∈ e.peersInGroup group ↔ v.paired id group = true
  peerGroupNames : ∀ group, group ∈ e.peerGroupNames ↔ ∃ id, v.paired id group = true
  peerName : ∀ id, e.peerName? id = (v.profile id).map (·.name)
  peerEndpoint : ∀ id, e.peerEndpoint? id = (v.profile id).map (·.endpoint)
  peerHeader : ∀ id key, e.peerHeader? id key = (v.profile id).bind (·.headers.get? key)

/-- The picture and the tables of the engine are the same. -/
structure Shows (v : Picture) (e : Engine μ) : Prop where
  profile : ∀ id, v.profile id =
    (e.readyPeer? id).map fun p => ⟨p.name, p.headers, p.endpoint⟩
  paired : ∀ id group, v.paired id group = e.isMember id group

theorem foldl_join (v : Picture) (id : PeerId) (name : String) (groups : List String) :
    (groups.map fun group => Event.join id name group).foldl see v =
      { v with paired := fun j g => (decide (j = id) && decide (g ∈ groups)) || v.paired j g } := by
  induction groups generalizing v with
  | nil => simp
  | cons group groups ih =>
    rw [List.map_cons, List.foldl_cons, ih, see]
    congr 1
    funext j g
    by_cases hj : j = id <;> by_cases hg : g = group <;> simp [hj, hg]

theorem foldl_leave (v : Picture) (id : PeerId) (name : String) (groups : List String) :
    (groups.map fun group => Event.leave id name group).foldl see v =
      { v with paired := fun j g => !(decide (j = id) && decide (g ∈ groups)) && v.paired j g } := by
  induction groups generalizing v with
  | nil => simp
  | cons group groups ih =>
    rw [List.map_cons, List.foldl_cons, ih, see]
    congr 1
    funext j g
    by_cases hj : j = id <;> by_cases hg : g = group <;> simp [hj, hg]

theorem Shows.agrees {v : Picture} {e : Engine μ} (h : v.Shows e) (hs : e.Sound) : v.Agrees e where
  ascending := SortedMap.pairwise_keys _
  peers id := by
    rw [Engine.mem_peers, h.profile, Option.isSome_map, Option.isSome_iff_exists]
    simp only [Engine.readyPeer?_eq_some]
  peersInGroup id group := by
    rw [Engine.mem_peersInGroup, h.paired]
  peerGroupNames group := by
    rw [Engine.peerGroupNames, SortedMap.mem_keys]
    simp only [h.paired, Engine.isMember]
    cases hg : e.peerGroups.get? group with
    | none => simp
    | some g =>
      obtain ⟨id, hid⟩ := Engine.isEmpty_eq_false.mp (hs.inhabited hg)
      exact ⟨fun _ => ⟨id, hid⟩, fun _ => ⟨g, rfl⟩⟩
  peerName id := by
    rw [Engine.peerName?, h.profile, Option.map_map]
    rfl
  peerEndpoint id := by
    rw [Engine.peerEndpoint?, h.profile, Option.map_map]
    rfl
  peerHeader id key := by
    rw [Engine.peerHeader?, h.profile, Option.bind_map]
    rfl

end Picture

namespace Engine

/-- The events queued between `e` and `e'` account for all that changed in the tables. -/
def Explains (e e' : Engine μ) : Prop :=
  ∃ new, e'.events = e.events ++ new ∧
    ∀ {v : Picture}, v.Shows e → Picture.Shows (new.foldl Picture.see v) e'

namespace Explains
variable {e e' e'' : Engine μ}

theorem of_same (hr : e'.roster = e.roster) (hg : e'.peerGroups = e.peerGroups)
    (hv : e'.events = e.events) : e.Explains e' := by
  refine ⟨[], by rw [hv, List.append_nil], fun h => ⟨fun id => ?_, fun id group => ?_⟩⟩
  · rw [readyPeer?, hr]
    exact h.profile id
  · rw [isMember, hg]
    exact h.paired id group

theorem refl (e : Engine μ) : e.Explains e := of_same rfl rfl rfl

theorem trans (h : e.Explains e') (h' : e'.Explains e'') : e.Explains e'' := by
  obtain ⟨new, hnew, hshow⟩ := h
  obtain ⟨new', hnew', hshow'⟩ := h'
  refine ⟨new ++ new', by rw [hnew', hnew, List.append_assoc], fun hv => ?_⟩
  rw [List.foldl_append]
  exact hshow' (hshow hv)

end Explains

/-- A removed peer leaves with its groups. One that never entered was in none. -/
theorem explains_drop {e : Engine μ} (hs : e.Sound) (id : PeerId) : e.Explains (e.drop id) := by
  cases hp : e.roster.get? id with
  | none =>
    rw [drop_of_none hp]
    exact .refl e
  | some p =>
    cases hname : p.declaredName with
    | none =>
      have hout : e.readyPeer? id = none := by
        rw [readyPeer?, hp, Option.filter_some, hs.entered hp, Peer.hasEntered, hname]
        rfl
      have hevents := events_drop_of_unnamed hp hname
      refine ⟨[], by rw [hevents, List.append_nil], fun hv => ⟨fun j => ?_, fun j group => ?_⟩⟩
      · rw [List.foldl_nil, hv.profile, readyPeer?_drop]
        split
        · rename_i hj
          rw [hj, hout]
        · rfl
      · rw [List.foldl_nil, hv.paired, isMember_drop hp]
        by_cases hj : j = id
        · rw [hj, hs.not_member hout]
          simp
        · simp [hj]
    | some name =>
      refine ⟨_, events_drop_of_named hp hname, fun hv => ?_⟩
      rw [List.foldl_cons, Picture.foldl_leave]
      refine ⟨fun j => ?_, fun j group => ?_⟩
      · rw [readyPeer?_drop]
        dsimp only [Picture.see]
        split
        · rfl
        · exact hv.profile j
      · rw [isMember_drop hp]
        dsimp only [Picture.see]
        rw [hv.paired]
        by_cases hj : j = id
        · subst hj
          simp [mem_groupsOf]
        · simp [hj]

theorem Shift.explains {e e' : Engine μ} (h : e.Shift e') (hs : e.Sound) : e.Explains e' := by
  cases h with
  | @touch id p p' hp h =>
    refine ⟨[], (List.append_nil _).symm, fun hv => ⟨fun j => ?_, hv.paired⟩⟩
    rw [readyPeer?_of_insert rfl, List.foldl_nil, hv.profile]
    split
    · rename_i hj
      rw [hj, readyPeer?, hp, Option.filter_some, Option.filter_some, h.ready]
      split
      · simp [h.name, h.headers, h.endpoint]
      · rfl
    · rfl
  | report hp hn => exact ⟨_, rfl, fun hv => ⟨hv.profile, hv.paired⟩⟩
  | drop id => exact explains_drop hs id
  | @acquaint p _ hnew _ _ _ _ hout =>
    refine ⟨[], (List.append_nil _).symm, fun hv => ⟨fun j => ?_, hv.paired⟩⟩
    rw [readyPeer?_of_insert rfl, List.foldl_nil, hv.profile]
    split
    · rename_i hj
      rw [hj, readyPeer?, hnew, Option.filter_some, hout]
      rfl
    · rfl

theorem Shifts.explains {e e' : Engine μ} (h : e.Shifts e') (hs : e.Sound) : e.Explains e' := by
  induction h with
  | refl => exact .refl e
  | tail hh h ih => exact ih.trans (h.explains (Shifts.sound hh hs))

theorem explains_greeted {e : Engine μ} {id : PeerId} (p : Peer μ)
    (h : Hello) : e.Explains (e.greeted id p h) := by
  refine ⟨_, rfl, fun hv => ?_⟩
  rw [List.foldl_cons, Picture.foldl_join]
  refine ⟨fun j => ?_, fun j group => ?_⟩
  · rw [readyPeer?_of_insert (roster_greeted e id p h)]
    dsimp only [Picture.see]
    split
    · rfl
    · exact hv.profile j
  · rw [isMember_greeted]
    dsimp only [Picture.see]
    rw [hv.paired]

theorem explains_heeded {e : Engine μ} {id : PeerId} {p : Peer μ} (hp : e.readyPeer? id = some p)
    (body : Body) : e.Explains (e.heeded id p body) := by
  have hprofile : ∀ v : Picture, ((body.reports id p.name).foldl Picture.see v).profile = v.profile := by
    intro v
    cases body <;> rfl
  refine ⟨_, rfl, fun hv => ⟨fun j => ?_, fun j group => ?_⟩⟩
  · rw [hprofile, hv.profile, readyPeer?_of_insert (roster_heeded e id p body)]
    split
    · rename_i hj
      rw [hj, hp, Option.filter_some]
      have hready : (p.followed body).ready = true := (readyPeer?_eq_some.mp hp).2
      rw [hready]
      rfl
    · rfl
  · cases body with
    | join g status =>
      change ((decide (j = id) && decide (group = g)) || _) = (e.enrol id g).isMember j group
      rw [isMember_enrol, hv.paired]
    | leave g status =>
      change (!(decide (j = id) && decide (group = g)) && _) = (e.withdraw id g).isMember j group
      rw [isMember_withdraw, hv.paired]
    | hello | whisper | shout | ping | pingOk => exact hv.paired j group

end Engine

namespace Station
variable [Carriage κ μ] {near : PeerId → String → Prop} {s t : Station κ μ}

def handed (s : Station κ μ) : Op → List Event
  | .drain => s.drain.1
  | _ => []

/-- The events that many operations hand to the application. -/
def handedBy (s : Station κ μ) : List (Turn κ) → List Event
  | [] => []
  | x :: turns => s.handed x.op ++ (s.turn x).handedBy turns

theorem Received.explains {id : PeerId} {m : Message} (h : s.Received near id m t)
    (hs : s.engine.Sound) : s.engine.Explains t.engine := by
  cases h with
  | unheard _ _ he => exact he ▸ .refl _
  | refused _ h => exact (h.shifts hs).explains hs
  | lost h _ he => exact he ▸ (h.shifts hs).explains hs
  | @greeted u v p h _ hu hp _ he _ _ hv =>
    have hsound := hu.sound hs
    have hv' := (hv.shifts (he ▸ hsound.greeted hp h)).explains (he ▸ hsound.greeted hp h)
    rw [he] at hv'
    exact (((hu.shifts hs).explains hs).trans (Engine.explains_greeted p h)).trans hv'
  | heeded _ hp _ he _ _ hv =>
    obtain ⟨hentry, hready⟩ := Engine.readyPeer?_eq_some.mp hp
    have hsound := hs.heeded hentry hready m.body
    rw [← he] at hsound
    have hv' := (hv.shifts hsound).explains hsound
    rw [he] at hv'
    exact (Engine.explains_heeded hp m.body).trans hv'

theorem Announced.explains {body : Body} {ids : List PeerId} (h : s.Announced body ids t)
    (hs : s.engine.Sound) : s.engine.Explains t.engine :=
  (h.shifts hs).explains hs

/-- Unless the engine stops, an operation accounts in its events for all that it changed. -/
theorem Performed.explains {op : Op} (h : s.Performed near op t) (hs : s.engine.Sound)
    (hrun : t.engine.stopped = false) (hop : op ≠ .drain) : s.engine.Explains t.engine := by
  cases h with
  | worked h => exact (h.shifts hs).explains hs
  | dressed hok he => exact .of_same (he ▸ rfl) (he ▸ rfl) (he ▸ rfl)
  | @joined group _ u _ _ hok he _ _ h =>
    have hown : s.engine.Explains u.engine := .of_same (he ▸ rfl) (he ▸ rfl) (he ▸ rfl)
    exact hown.trans (h.explains (he ▸ hs.enlist hok))
  | @left group _ u _ _ he _ _ h =>
    have hown : s.engine.Explains u.engine := .of_same (he ▸ rfl) (he ▸ rfl) (he ▸ rfl)
    exact hown.trans (h.explains (he ▸ hs.delist group))
  | halted _ he =>
    rw [he] at hrun
    cases hrun
  | drained => exact absurd rfl hop
  | received _ _ _ h => exact h.explains hs

/-- One operation keeps the picture true: what it hands over is part of the picture already. -/
theorem shows_turn (hs : s.engine.Sound) (x : Turn κ) (hrun : (s.turn x).engine.stopped = false)
    {before : List Event} (hv : (Picture.of (before ++ s.engine.events)).Shows s.engine) :
    (Picture.of ((before ++ s.handed x.op) ++ (s.turn x).engine.events)).Shows (s.turn x).engine := by
  by_cases hop : x.op = .drain
  · rw [hop, s.engine_turn_drain hop]
    dsimp only [handed, drain]
    rw [List.append_nil]
    exact ⟨hv.profile, hv.paired⟩
  · have hnone : s.handed x.op = [] := by
      cases hx : x.op with
      | drain => exact absurd hx hop
      | _ => rfl
    obtain ⟨new, hnew, hshow⟩ := (performed_turn hs x).explains hs hrun hop
    rw [hnone, List.append_nil, hnew]
    change (Picture.of (before ++ (s.engine.events ++ new))).Shows _
    rw [← List.append_assoc, Picture.of, List.foldl_append]
    exact hshow hv

theorem shows_run (hs : s.engine.Sound) (turns : List (Turn κ))
    (hrun : (s.run turns).engine.stopped = false) {before : List Event}
    (hv : s.engine.stopped = false → (Picture.of (before ++ s.engine.events)).Shows s.engine) :
    (Picture.of ((before ++ s.handedBy turns) ++ (s.run turns).engine.events)).Shows
      (s.run turns).engine := by
  induction turns generalizing s before with
  | nil =>
    rw [handedBy, List.append_nil]
    exact hv hrun
  | cons x turns ih =>
    have hsound := sound_turn hs x
    rw [handedBy, ← List.append_assoc]
    exact ih hsound hrun fun hmid =>
      shows_turn hs x hmid (hv ((performed_turn hs x).running hs hmid))

/-- All events of a running engine together give the picture that its queries answer from. -/
theorem agrees_run_new (id : PeerId) (name endpoint : String) (timing : Timing) (carriage : κ)
    (turns : List (Turn κ)) :
    let s := new (Engine.new id name endpoint timing : Engine μ) carriage
    (s.run turns).engine.stopped = false →
      (Picture.of (s.handedBy turns ++ (s.run turns).engine.events)).Agrees (s.run turns).engine := by
  intro s hrun
  have hs : s.engine.Sound := Engine.sound_new id name endpoint timing
  have hblank : (Picture.of ([] ++ s.engine.events)).Shows s.engine := ⟨fun _ => rfl, fun _ _ => rfl⟩
  exact (shows_run hs turns hrun fun _ => hblank).agrees (sound_run hs turns)

/-- A node that is greeted by another one learns its group, and so does its application. -/
theorem agrees_run_greeted :
    let ann : PeerId := ⟨.replicate 16 1, rfl⟩
    let bob : PeerId := ⟨.replicate 16 2, rfl⟩
    let net := Network.empty.bind "b"
    let hello := Wire.encode ⟨1, .hello ⟨"b", ["g"], 1, "bob", .empty⟩⟩
    let s : Station Network Network.Mailbox := new (.new ann "ann" "a" .usual) net
    let turns : List (Turn Network) :=
      [⟨.ascending, net, .receive bob.routingId (hello.toOption.getD []) 0⟩,
        ⟨.ascending, net, .drain⟩]
    (s.run turns).engine.stopped = false ∧ (s.run turns).engine.peersInGroup "g" = [bob] ∧
      (Picture.of (s.handedBy turns ++ (s.run turns).engine.events)).Agrees (s.run turns).engine :=
  ⟨by decide +kernel, by decide +kernel, agrees_run_new _ _ _ _ _ _ (by decide +kernel)⟩

end Station
end PeerMesh
