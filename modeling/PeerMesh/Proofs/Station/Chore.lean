import PeerMesh.Proofs.Engine.Heard
import PeerMesh.Proofs.Station.Post

/-!
# Chores

What an engine does to its peers on its own account comes down to a few chores: it sends a peer
something, marks it as evasive, removes it, meets a new one, or registers that one is alive. No
chore changes what the engine says of itself, and none makes a peer ready.

A chore may do nothing at all; `jot` stands for whatever touches the notes only.
-/

namespace PeerMesh
set_option autoImplicit false

namespace Peer
variable {μ : Type}

def reached (id : PeerId) (box : μ) (endpoint : String) (now : Nat) : Peer μ :=
  { (Peer.new id now : Peer μ) with mailbox := some box, lastEndpoint := endpoint }

/-- The entry of a peer that was met just now. It has been greeted and has not answered. -/
def met (id : PeerId) (box : μ) (endpoint : String) (now : Nat) (timing : Timing) : Peer μ :=
  { reached id box endpoint now with sent := 1 }.refresh now timing.evasive timing.expired

end Peer

theorem Event.peer?_evasive (id : PeerId) (name? : Option String) :
    ∀ ev ∈ (name?.map (evasive id)).toList, ev.peer? = some id := by
  intro ev hev
  obtain ⟨name, -, rfl⟩ := Option.map_eq_some_iff.mp (Option.mem_toList.mp hev)
  rfl

namespace Station
variable {κ μ : Type}

/-- Marks a peer as evasive, and reports it if the application knows the peer. -/
def evade (s : Station κ μ) (id : PeerId) : Station κ μ :=
  match s.engine.roster.get? id with
  | none => s
  | some p =>
    let s := s.edit (·.editPeer id ({ · with evasive := true }))
    match p.declaredName with
    | some name => s.emit [.evasive id name]
    | none => s

theorem evade_of_none {s : Station κ μ} {id : PeerId} (h : s.engine.roster.get? id = none) :
    s.evade id = s := by
  rw [evade, h]

theorem engine_evade {s : Station κ μ} {id : PeerId} {p : Peer μ}
    (h : s.engine.roster.get? id = some p) :
    (s.evade id).engine =
      { s.engine with
        roster := s.engine.roster.insert id { p with evasive := true }
        events := s.engine.events ++ (p.declaredName.map (Event.evasive id)).toList } := by
  rw [evade, h]
  dsimp only
  split
  · rename_i name hname
    rw [engine_emit, engine_edit, Engine.editPeer_of_some h, hname]
    rfl
  · rename_i hname
    rw [engine_edit, Engine.editPeer_of_some h, hname]
    simp

theorem get?_evade {s : Station κ μ} {id : PeerId} {p : Peer μ}
    (h : s.engine.roster.get? id = some p) :
    (s.evade id).engine.roster.get? id = some { p with evasive := true } := by
  rw [engine_evade h, SortedMap.get?_insert, if_pos rfl]

@[simp] theorem carriage_evade (s : Station κ μ) (id : PeerId) :
    (s.evade id).carriage = s.carriage := by
  unfold evade
  split
  · rfl
  · dsimp only
    split <;> rfl

@[simp] theorem alarms_evade (s : Station κ μ) (id : PeerId) : (s.evade id).alarms = s.alarms := by
  unfold evade
  split
  · rfl
  · dsimp only
    split <;> rfl

theorem shifts_evade (s : Station κ μ) (id : PeerId) : s.engine.Shifts (s.evade id).engine := by
  cases hp : s.engine.roster.get? id with
  | none =>
    rw [evade_of_none hp]
    exact .refl _
  | some p =>
    obtain ⟨q, hq⟩ : ∃ q : Peer μ, q = { p with evasive := true } := ⟨_, rfl⟩
    have hmark : p.Resumes q := by
      rw [hq]
      exact ⟨rfl, rfl, rfl, rfl, rfl, rfl, rfl, rfl⟩
    have hnow : (s.engine.roster.insert id q).get? id = some q := by
      rw [SortedMap.get?_insert, if_pos rfl]
    rw [engine_evade hp, ← hq]
    refine .trans (.single (.touch hp hmark)) ?_
    cases hn : p.declaredName with
    | none =>
      simp only [Option.map_none, Option.toList_none, List.append_nil]
      exact .refl _
    | some name => exact .single (.report hnow (hmark.declaredName.trans hn))

section
variable [Carriage κ μ]

/-! ### Meeting -/

def greet (s : Station κ μ) (p : Peer μ) (endpoint : String) (now : Nat) : Bool × Station κ μ :=
  let greeted := p.send s.carriage (.hello s.engine.hello)
  let s := { s with carriage := greeted.carriage }.note greeted.notes
  match greeted.result with
  | .error e => (false, s.note [.cannotGreet p.id endpoint e])
  | .ok () =>
    (true, s.edit fun e =>
      e.putPeer (greeted.peer.refresh now e.timing.evasive e.timing.expired))

theorem meet_of_ok {s : Station κ μ} {endpoint : String} {box : μ} {c : κ}
    (h : Carriage.connect s.carriage s.engine.id.routingId endpoint = (.ok box, c)) (id : PeerId)
    (now : Nat) :
    s.meet id endpoint now = ({ s with carriage := c }.note [.mailboxOpened id endpoint]).greet
      (.reached id box endpoint now) endpoint now := by
  rw [meet, Peer.connect, h]
  rfl

theorem meet_of_error {s : Station κ μ} {endpoint : String} {e : ConnectError} {c : κ}
    (h : Carriage.connect s.carriage s.engine.id.routingId endpoint = (.error e, c)) (id : PeerId)
    (now : Nat) :
    s.meet id endpoint now =
      (false, ({ s with carriage := c }.note []).note [.cannotConnect id endpoint e]) := by
  rw [meet, Peer.connect, h]

/-- All that can come of meeting a peer. -/
inductive Meeting (s : Station κ μ) (id : PeerId) (endpoint : String) (now : Nat) :
    Bool × Station κ μ → Prop
  | unreached {e t} (hc : Carriage.connect s.carriage s.engine.id.routingId endpoint =
      (.error e, t.carriage)) (he : t.engine = s.engine) :
    Meeting s id endpoint now (false, t)
  | formless {box e t} (hc : Carriage.connect s.carriage s.engine.id.routingId endpoint =
      (.ok box, t.carriage)) (hf : Wire.encode ⟨1, .hello s.engine.hello⟩ = .error e)
    (he : t.engine = s.engine) : Meeting s id endpoint now (false, t)
  | shut {box c frames e t} (hc : Carriage.connect s.carriage s.engine.id.routingId endpoint =
      (.ok box, c)) (hs : Carriage.send c box frames = (.error e, t.carriage))
    (he : t.engine = s.engine) (hf : Wire.encode ⟨1, .hello s.engine.hello⟩ = .ok frames) :
    Meeting s id endpoint now (false, t)
  | met {box c frames t} (hc : Carriage.connect s.carriage s.engine.id.routingId endpoint =
      (.ok box, c)) (hf : Wire.encode ⟨1, .hello s.engine.hello⟩ = .ok frames)
    (hs : Carriage.send c box frames = (.ok (), t.carriage))
    (he : t.engine = s.engine.putPeer (.met id box endpoint now s.engine.timing)) :
    Meeting s id endpoint now (true, t)

theorem meeting_meet (s : Station κ μ) (id : PeerId) (endpoint : String) (now : Nat) :
    s.Meeting id endpoint now (s.meet id endpoint now) := by
  rcases hc : Carriage.connect s.carriage s.engine.id.routingId endpoint with ⟨e | box, c⟩
  · rw [meet_of_error hc]
    exact .unreached hc rfl
  · have hsend := (Peer.reached id box endpoint now).sending_send c (.hello s.engine.hello)
    rw [meet_of_ok hc, greet, engine_note, carriage_note]
    dsimp only
    generalize (Peer.reached id box endpoint now).send c (.hello s.engine.hello) = step
      at hsend ⊢
    cases hsend with
    | closed hb => cases hb
    | formless hf => exact .formless hc hf rfl
    | taken hb hf hs =>
      obtain rfl := Option.some.inj hb
      exact .met hc hf hs rfl
    | rejected hb hs _ hf =>
      obtain rfl := Option.some.inj hb
      exact .shut hc hs rfl hf
    | lost hb hs _ hf =>
      obtain rfl := Option.some.inj hb
      exact .shut hc hs rfl hf

theorem alarms_meet (s : Station κ μ) (id : PeerId) (endpoint : String) (now : Nat) :
    (s.meet id endpoint now).2.alarms = s.alarms := by
  rcases hc : Carriage.connect s.carriage s.engine.id.routingId endpoint with ⟨e | box, c⟩
  · rw [meet_of_error hc, alarms_note, alarms_note]
    exact (List.append_nil _).trans (List.append_nil _)
  · have hopened : ({ s with carriage := c }.note [.mailboxOpened id endpoint]).alarms = s.alarms := by
      rw [alarms_note]
      exact List.append_nil _
    rw [meet_of_ok hc]
    unfold greet
    dsimp only
    split
    · rw [alarms_note, alarms_note, Peer.not_alarm_send, List.append_nil]
      exact (List.append_nil _).trans hopened
    · rw [alarms_edit, alarms_note, Peer.not_alarm_send, List.append_nil]
      exact hopened

/-! ### Chores -/

/-- One chore. Whom a node may meet is restricted by `near`. -/
inductive Chore (near : PeerId → String → Prop) (s : Station κ μ) : Station κ μ → Prop
  | jot {t : Station κ μ} (he : t.engine = s.engine) (hc : t.carriage = s.carriage)
    (ha : t.alarms = s.alarms) : Chore near s t
  | post (id body) (hb : body.isNeutral = true) : Chore near s (s.post id body)
  | evade (id) : Chore near s (s.evade id)
  | remove (id) : Chore near s (s.remove id)
  | meet {id endpoint} (now) (hrun : s.engine.stopped = false) (hid : id ≠ s.engine.id)
    (hep : endpoint ≠ s.engine.endpoint) (hnew : s.engine.roster.get? id = none)
    (hfree : ∀ {j q}, s.engine.roster.get? j = some q → q.endpoint ≠ endpoint)
    (hnear : near id endpoint) : Chore near s (s.meet id endpoint now).2
  | refresh (id now) : Chore near s (s.edit (·.refresh id now))

def Chores (near : PeerId → String → Prop) : Station κ μ → Station κ μ → Prop :=
  Relation.ReflTransGen (Chore near)

theorem Posted.shifts {s t : Station κ μ} {id : PeerId} {body : Body} (h : s.Posted id body t) :
    s.engine.Shifts t.engine := by
  cases h with
  | unmoved _ he => exact he ▸ .refl _
  | taken hp _ _ _ he => exact he ▸ .single (.touch hp ⟨rfl, rfl, rfl, rfl, rfl, rfl, rfl, rfl⟩)
  | rejected _ _ _ _ he => exact he ▸ .refl _
  | lost _ _ _ _ he => exact he ▸ .single (.drop id)

namespace Chore
variable {near : PeerId → String → Prop} {s t : Station κ μ}

theorem shifts (h : s.Chore near t) (hs : s.engine.Sound) : s.engine.Shifts t.engine := by
  cases h with
  | jot he => exact he ▸ .refl _
  | post id body => exact (s.posted_post id body fun _ => hs.filed).shifts
  | evade id => exact s.shifts_evade id
  | remove id =>
    rw [engine_remove]
    exact .single (.drop id)
  | @meet id endpoint now hrun hid hep hnew hfree =>
    have hmeet := s.meeting_meet id endpoint now
    generalize s.meet id endpoint now = u at hmeet ⊢
    cases hmeet with
    | unreached _ he => exact he ▸ .refl _
    | formless _ _ he => exact he ▸ .refl _
    | shut _ _ he => exact he ▸ .refl _
    | met _ _ _ he => exact he ▸ .single (.acquaint hrun hnew hid hep hfree rfl rfl rfl)
  | refresh id now => exact s.engine.shifts_refresh id now

theorem alarms (h : s.Chore near t) : t.alarms = s.alarms := by
  cases h with
  | jot _ _ ha => exact ha
  | post id body => exact s.alarms_post id body
  | evade id => exact s.alarms_evade id
  | remove id => exact s.alarms_remove id
  | meet now => exact s.alarms_meet _ _ now
  | refresh => rfl

end Chore

namespace Chores
variable {near : PeerId → String → Prop} {s t u : Station κ μ}

theorem refl (near : PeerId → String → Prop) (s : Station κ μ) : s.Chores near s :=
  Relation.ReflTransGen.refl

theorem single (h : s.Chore near t) : s.Chores near t := Relation.ReflTransGen.single h

theorem trans (h : s.Chores near t) (h' : t.Chores near u) : s.Chores near u :=
  Relation.ReflTransGen.trans h h'

/-- Chores go on at a station that differs in its notes only, as long as no alarm is among them. -/
theorem jot (h : s.Chores near t) (he : u.engine = t.engine) (hc : u.carriage = t.carriage)
    (ha : u.alarms = t.alarms) : s.Chores near u :=
  h.trans (single (.jot he hc ha))

theorem shifts (h : s.Chores near t) (hs : s.engine.Sound) : s.engine.Shifts t.engine := by
  induction h with
  | refl => exact .refl _
  | tail _ h ih => exact ih.trans (h.shifts (ih.sound hs))

theorem sound (h : s.Chores near t) (hs : s.engine.Sound) : t.engine.Sound := (h.shifts hs).sound hs

theorem alarms (h : s.Chores near t) : t.alarms = s.alarms := by
  induction h with
  | refl => rfl
  | tail _ h ih => exact h.alarms.trans ih

end Chores

end
end Station
end PeerMesh
