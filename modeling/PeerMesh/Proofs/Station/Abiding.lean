import PeerMesh.Proofs.World.Listening

/-!
# Peers that stay

An engine that does not hear from a peer may forget it. If it does not, then nothing that matters has
changed about the peer, and no more than its silence was reported. The relation runs backwards, from
a peer that is ready afterwards to the same peer before, so that it needs no account of how a peer
might have been lost.
-/

namespace PeerMesh
set_option autoImplicit false

variable {κ μ : Type}

namespace Event

def isEvasive : Event → Bool
  | .evasive .. => true
  | _ => false

/-- The events about a peer, its silence apart. -/
def about (id : PeerId) (events : List Event) : List Event :=
  (concerning id events).filter fun ev => !ev.isEvasive

theorem about_append (id : PeerId) (events new : List Event) :
    about id (events ++ new) = about id events ++ about id new := by
  rw [about, concerning_append, List.filter_append]
  rfl

theorem about_of_other {id j : PeerId} {events : List Event} (hj : j ≠ id)
    (h : ∀ ev ∈ events, ev.peer? = some id) : about j events = [] := by
  rw [about, concerning_other hj h]
  rfl

theorem about_of_loud {id : PeerId} {events : List Event} (h : ∀ ev ∈ events, ev.peer? = some id)
    (hloud : ∀ ev ∈ events, ev.isEvasive = false) : about id events = events := by
  rw [about, concerning_self h, List.filter_eq_self]
  intro ev hev
  rw [hloud ev hev]
  rfl

end Event

theorem Body.isEvasive_reports (body : Body) (id : PeerId) (name : String) :
    ∀ ev ∈ body.reports id name, ev.isEvasive = false := by
  intro ev hev
  cases body with
  | hello | ping | pingOk => cases hev
  | whisper | shout | join | leave =>
    rw [List.mem_singleton.mp hev]
    rfl

namespace Engine
variable {e e' e'' : Engine μ} {id : PeerId}

/-- Whoever is ready at `e'` was ready at `e`, and all that was said about it is that it is silent. -/
def Abides (e e' : Engine μ) (id : PeerId) : Prop :=
  ∀ q, e'.readyPeer? id = some q → ∃ p new, e.readyPeer? id = some p ∧ p.Resumes q ∧
    (∀ group, e'.isMember id group = e.isMember id group) ∧ e'.events = e.events ++ new ∧
    Event.about id new = []

namespace Abides

theorem of_same (he : e'.events = e.events) (hr : e'.readyPeer? id = e.readyPeer? id)
    (hg : ∀ group, e'.isMember id group = e.isMember id group) : e.Abides e' id := by
  intro q hq
  exact ⟨q, [], hr ▸ hq, .refl q, hg, by rw [he, List.append_nil], rfl⟩

theorem refl (e : Engine μ) (id : PeerId) : e.Abides e id := of_same rfl rfl fun _ => rfl

theorem trans (h : e.Abides e' id) (h' : e'.Abides e'' id) : e.Abides e'' id := by
  intro r hr
  obtain ⟨q, new', hq, hqr, hgroups', hnew', habout'⟩ := h' r hr
  obtain ⟨p, new, hp, hpq, hgroups, hnew, habout⟩ := h q hq
  refine ⟨p, new ++ new', hp, hpq.trans hqr, ?_, ?_, ?_⟩
  · intro group
    rw [hgroups', hgroups]
  · rw [hnew', hnew, List.append_assoc]
  · rw [Event.about_append, habout, habout']
    rfl

theorem of_gone (h : e'.readyPeer? id = none) : e.Abides e' id := by
  intro q hq
  rw [h] at hq
  cases hq

theorem of_other {j : PeerId} {new : List Event} (hj : j ≠ id) (hv : e'.events = e.events ++ new)
    (hpeer : ∀ ev ∈ new, ev.peer? = some id) (hr : e'.readyPeer? j = e.readyPeer? j)
    (hg : ∀ group, e'.isMember j group = e.isMember j group) : e.Abides e' j := by
  intro q hq
  exact ⟨q, new, hr ▸ hq, .refl q, hg, hv, Event.about_of_other hj hpeer⟩

end Abides

theorem abides_drop (e : Engine μ) (id j : PeerId) : e.Abides (e.drop id) j := by
  by_cases hj : j = id
  · apply Abides.of_gone
    rw [readyPeer?_drop, if_pos hj]
  · cases hp : e.roster.get? id with
    | none =>
      rw [drop_of_none hp]
      exact .refl e j
    | some p =>
      have hready : (e.drop id).readyPeer? j = e.readyPeer? j := by
        rw [readyPeer?_drop, if_neg hj]
      have hgroups : ∀ group, (e.drop id).isMember j group = e.isMember j group := by
        intro group
        rw [isMember_drop hp, decide_eq_false hj]
        rfl
      cases hn : p.declaredName with
      | none => exact .of_same (events_drop_of_unnamed hp hn) hready hgroups
      | some name =>
        refine .of_other hj (events_drop_of_named hp hn) ?_ hready hgroups
        intro ev hev
        rcases List.mem_cons.mp hev with rfl | hev
        · rfl
        · obtain ⟨group, -, rfl⟩ := List.mem_map.mp hev
          rfl

theorem Shift.abides (h : e.Shift e') (j : PeerId) : e.Abides e' j := by
  cases h with
  | @touch id p p' hp h =>
    intro q hq
    rw [readyPeer?_of_insert rfl] at hq
    split at hq
    · rename_i hj
      subst hj
      obtain ⟨hsame, hready⟩ := Option.filter_eq_some_iff.mp hq
      obtain rfl := Option.some.inj hsame
      have hp' : e.readyPeer? j = some p := readyPeer?_eq_some.mpr ⟨hp, h.ready.symm.trans hready⟩
      exact ⟨p, [], hp', h, fun _ => rfl, (List.append_nil _).symm, rfl⟩
    · exact ⟨q, [], hq, .refl q, fun _ => rfl, (List.append_nil _).symm, rfl⟩
  | @report id p name =>
    intro q hq
    refine ⟨q, [.evasive id name], hq, .refl q, fun _ => rfl, rfl, ?_⟩
    apply List.filter_eq_nil_iff.mpr
    intro ev hev
    obtain rfl := List.mem_singleton.mp (List.mem_of_mem_filter hev)
    exact Bool.false_ne_true
  | drop id => exact e.abides_drop id j
  | @acquaint p _ _ _ _ _ _ hout =>
    by_cases hj : j = p.id
    · apply Abides.of_gone
      rw [readyPeer?_of_insert rfl, if_pos hj, Option.filter_some, hout]
      rfl
    · refine .of_same rfl ?_ fun _ => rfl
      rw [readyPeer?_of_insert rfl, if_neg hj]

theorem Shifts.abides (h : e.Shifts e') (j : PeerId) : e.Abides e' j := by
  induction h with
  | refl => exact .refl e j
  | tail _ h ih => exact ih.trans (h.abides j)

theorem abides_greeted (e : Engine μ) {id j : PeerId} (p : Peer μ) (h : Hello) (hj : j ≠ id) :
    e.Abides (e.greeted id p h) j := by
  refine .of_other hj rfl (peer?_greeted id p h) ?_ fun group => ?_
  · rw [readyPeer?_of_insert (roster_greeted e id p h), if_neg hj]
  · rw [isMember_greeted, decide_eq_false hj]
    rfl

theorem abides_heeded (e : Engine μ) {id j : PeerId} (p : Peer μ) (body : Body) (hj : j ≠ id) :
    e.Abides (e.heeded id p body) j := by
  refine .of_other hj rfl (peer?_reports body id p.name) ?_ fun group => ?_
  · rw [readyPeer?_of_insert (roster_heeded e id p body), if_neg hj]
  · exact (isMember_congr rfl j group).trans
      (isMember_regroup { e with roster := e.roster.insert id (p.followed body) } id body hj group)

end Engine

/-- The message that an operation brings from a peer, if it brings one. -/
def Op.message? (op : Op) (id : PeerId) : Option Message :=
  match op with
  | .receive routingId frames _ =>
    if PeerId.ofRoutingId? routingId = some id then (Wire.decode frames).toOption else none
  | _ => none

theorem Op.exists_of_message? {op : Op} {id : PeerId} {m : Message} (h : op.message? id = some m) :
    ∃ routingId frames now, op = .receive routingId frames now ∧
      PeerId.ofRoutingId? routingId = some id ∧ Wire.decode frames = .ok m := by
  unfold message? at h
  split at h
  · rename_i routingId frames now
    split at h
    · rename_i hid
      refine ⟨routingId, frames, now, rfl, hid, ?_⟩
      cases hm : Wire.decode frames with
      | error e =>
        rw [hm] at h
        cases h
      | ok m' =>
        rw [hm] at h
        exact congrArg Except.ok (Option.some.inj h)
    · cases h
  · cases h

theorem Op.message?_receive {routingId : List UInt8} {frames : Content} {id : PeerId} {m : Message}
    (hid : PeerId.ofRoutingId? routingId = some id) (hm : Wire.decode frames = .ok m) (now : Nat)
    (j : PeerId) : (Op.receive routingId frames now).message? j = if id = j then some m else none := by
  rw [message?, hid, hm]
  by_cases hj : id = j
  · rw [if_pos hj, if_pos (congrArg some hj)]
    rfl
  · rw [if_neg hj, if_neg (fun h => hj (Option.some.inj h))]

theorem Op.message?_of_other {op : Op} {id j : PeerId} {m : Message} (h : op.message? j = some m)
    (hj : j ≠ id) : op.message? id = none := by
  obtain ⟨routingId, frames, now, rfl, hid, hdecode⟩ := exists_of_message? h
  rw [message?_receive hid hdecode, if_neg hj]

namespace Station
variable [Carriage κ μ] {near : PeerId → String → Prop} {s t : Station κ μ} {id j : PeerId}
  {m : Message} {op : Op}

theorem accept_of_message (hrun : s.engine.stopped = false) (walk : Walk)
    (hmessage : op.message? id = some m) (hm : m.isHello = false) :
    ∃ now, s.step walk op = s.accept id m now := by
  obtain ⟨routingId, frames, now, rfl, hid, hdecode⟩ := Op.exists_of_message? hmessage
  exact ⟨now, receive_of_not_hello hrun hdecode hid hm walk now⟩

theorem step_of_stopped (hstop : s.engine.stopped = true) (walk : Walk)
    (hmessage : op.message? id = some m) : s.step walk op = s := by
  obtain ⟨routingId, frames, now, rfl, -⟩ := Op.exists_of_message? hmessage
  exact receive_of_stopped hstop walk routingId frames now

theorem Received.abides (h : s.Received near id m t) (hs : s.engine.Sound) (hj : j ≠ id) :
    s.engine.Abides t.engine j := by
  cases h with
  | unheard _ _ he => exact he ▸ .refl _ j
  | refused _ h => exact (h.shifts hs).abides j
  | lost h _ he => exact he ▸ (h.shifts hs).abides j
  | @greeted u v p hello _ hu hp _ he _ _ hv =>
    have hsound : v.engine.Sound := he ▸ (hu.sound hs).greeted hp hello
    have hgreet : u.engine.Abides v.engine j := he ▸ u.engine.abides_greeted p hello hj
    exact (((hu.shifts hs).abides j).trans hgreet).trans ((hv.shifts hsound).abides j)
  | @heeded v p _ hp _ he _ _ hv =>
    obtain ⟨hentry, hready⟩ := Engine.readyPeer?_eq_some.mp hp
    have hsound : v.engine.Sound := he ▸ hs.heeded hentry hready m.body
    have hheed : s.engine.Abides v.engine j := he ▸ s.engine.abides_heeded p m.body hj
    exact hheed.trans ((hv.shifts hsound).abides j)

theorem Performed.abides (h : s.Performed near op t) (hs : s.engine.Sound)
    (hm : op.message? j = none) (hd : op ≠ .drain) : s.engine.Abides t.engine j := by
  cases h with
  | worked h => exact (h.shifts hs).abides j
  | dressed _ he => exact he ▸ .of_same rfl rfl fun _ => rfl
  | @joined group _ u _ _ hok he _ _ h =>
    have hown : s.engine.Abides u.engine j := he ▸ .of_same rfl rfl fun _ => rfl
    exact hown.trans ((h.shifts (he ▸ hs.enlist hok)).abides j)
  | @left group _ u _ _ he _ _ h =>
    have hown : s.engine.Abides u.engine j := he ▸ .of_same rfl rfl fun _ => rfl
    exact hown.trans ((h.shifts (he ▸ hs.delist group)).abides j)
  | halted _ he =>
    apply Engine.Abides.of_gone
    rw [he]
    rfl
  | drained => exact absurd rfl hd
  | @received routingId frames id m now _ _ hdecode hid h =>
    refine h.abides hs fun hj => ?_
    rw [Op.message?_receive hid hdecode, if_pos hj.symm] at hm
    cases hm

end Station
end PeerMesh
