import PeerMesh.Proofs.World.Listening

/-!
# What comes of a message in sequence, and out of sequence

A node acts on a message of a peer that has greeted if the message has the number that is next.
Otherwise it notes that messages were lost and removes the peer. A node that has not greeted is
not listened to, whatever the numbers.
-/

namespace PeerMesh
set_option autoImplicit false

namespace Station
variable {κ μ : Type} {s t : Station κ μ} {id : PeerId} {p : Peer μ} {m : Message}

/-- How often messages of a peer were found lost. -/
def losses (s : Station κ μ) (id : PeerId) : Nat := s.alarms.count (.lostMessages id)

theorem losses_congr (h : t.alarms = s.alarms) (id : PeerId) : t.losses id = s.losses id := by
  rw [losses, h, losses]

theorem losses_note (s : Station κ μ) (notes : List Note) (id : PeerId)
    (h : (notes.filter Note.isAlarm).count (.lostMessages id) = 0) :
    (s.note notes).losses id = s.losses id := by
  rw [losses, alarms_note, List.count_append, h, losses, Nat.add_zero]

/-- The message of a peer whose entry was `p` was acted on. After that the node answered and kept
house, and no more. -/
structure Heeds [Carriage κ μ] (s : Station κ μ) (id : PeerId) (p : Peer μ) (m : Message)
    (t : Station κ μ) : Prop where
  losses : t.losses id = s.losses id
  acted : ∃ v : Station κ μ, v.engine = s.engine.heeded id p m.body ∧ v.Chores (fun _ _ => True) t
  reports : ∃ new, t.engine.events = s.engine.events ++ (m.body.reports id p.name ++ new)

/-- The message was not acted on, and the peer was removed for a loss. -/
structure Loses (s : Station κ μ) (id : PeerId) (t : Station κ μ) : Prop where
  losses : t.losses id = s.losses id + 1
  engine : t.engine = s.engine.drop id

theorem losses_followStatus (s : Station κ μ) (id : PeerId) (command : Command) (status : UInt8)
    (j : PeerId) : (s.followStatus id command status).losses j = s.losses j := by
  unfold followStatus
  split
  · rfl
  · dsimp only
    split
    · rfl
    · exact losses_note s _ j rfl

variable [Carriage κ μ]

theorem losses_act (hp : s.engine.roster.get? id = some p) (hm : m.isHello = false)
    (hl : p.showsLoss m = false) (j : PeerId) :
    ((s.counted id p m).act id m.body).losses j = s.losses j := by
  have hquiet : (s.counted id p m).losses j = s.losses j := losses_congr (alarms_counted hl) j
  cases hb : m.body with
  | hello h =>
    rw [Message.isHello, hb] at hm
    cases hm
  | whisper | shout | pingOk => exact hquiet
  | join group status =>
    rw [act, losses_followStatus, ← hquiet]
    exact losses_congr (alarms_peerJoined _ _ _) j
  | leave group status =>
    rw [act, losses_followStatus, ← hquiet]
    exact losses_note _ _ j rfl
  | ping =>
    rw [← hb, act_ping hp hb, ← hquiet]
    exact losses_congr (alarms_post _ _ _) j

theorem losses_accept_lost (hp : s.engine.readyPeer? id = some p) (hl : p.showsLoss m = true)
    (now : Nat) : (s.accept id m now).losses id = s.losses id + 1 := by
  rw [accept, hp]
  dsimp only
  rw [if_pos hl, losses, alarms_remove, alarms_note, alarms_note, Peer.receiveNotes, hl]
  simp [List.filter, Note.isAlarm, losses]

/-! ### Messages that are no HELLO -/

theorem unheard_accept (hp : s.engine.readyPeer? id = none) (m : Message) (now : Nat) :
    (s.accept id m now).engine = s.engine ∧ (s.accept id m now).losses id = s.losses id := by
  rw [accept_unready hp]
  exact ⟨rfl, losses_note s _ id rfl⟩

theorem heeds_accept (hs : s.engine.Sound) (hp : s.engine.readyPeer? id = some p)
    (hm : m.isHello = false) (hn : m.sequence = p.want + 1) (now : Nat) :
    s.Heeds id p m (s.accept id m now) := by
  obtain ⟨hentry, hready⟩ := Engine.readyPeer?_eq_some.mp hp
  have hl : p.showsLoss m = false := (Peer.showsLoss_eq_false hm).mpr hn
  obtain ⟨v, he, -, -, hv⟩ := acted (fun _ _ => True) hentry hm hl
  have hsound : v.engine.Sound := he ▸ hs.heeded hentry hready m.body
  have hevents : v.engine.events = s.engine.events ++ m.body.reports id p.name := he ▸ rfl
  have hlast := hv.trans (.single (.refresh id now))
  obtain ⟨new, hnew, -⟩ := (hlast.shifts hsound).murmurs hsound id
  rw [accept_of_ready hp hl]
  refine ⟨losses_act hentry hm hl id, ⟨v, he, hlast⟩, new, ?_⟩
  rw [hnew, hevents, List.append_assoc]

theorem loses_accept (hp : s.engine.readyPeer? id = some p) (hm : m.isHello = false)
    (hn : m.sequence ≠ p.want + 1) (now : Nat) : s.Loses id (s.accept id m now) := by
  have hl : p.showsLoss m = true := (Peer.showsLoss_eq_true hm).mpr hn
  exact ⟨losses_accept_lost hp hl now, engine_accept_lost hp hl now⟩

/-- A PING in sequence is answered through the mailbox of its sender. -/
theorem accept_ping (hs : s.engine.Sound) (hp : s.engine.readyPeer? id = some p)
    (hm : m.body = .ping) (hn : m.sequence = p.want + 1) {box : μ} (hbox : p.mailbox = some box)
    (now : Nat) : ∃ frames result, Wire.encode ⟨p.sent + 1, .pingOk⟩ = .ok frames ∧
      Carriage.send s.carriage box frames = (result, (s.accept id m now).carriage) ∧
      (result = .ok () → (s.accept id m now).engine =
        ((s.engine.heeded id p m.body).editPeer id ({ · with sent := p.sent + 1 })).refresh id now) := by
  have hentry := (Engine.readyPeer?_eq_some.mp hp).1
  have hhello := Message.isHello_of_ping hm
  have hl : p.showsLoss m = false := (Peer.showsLoss_eq_false hhello).mpr hn
  let u := s.counted id p m
  have hu : u.engine.roster.get? id = some { p with want := p.want + 1 } := get?_counted hentry hhello
  have hposted := u.posted_post id .pingOk fun q hq => by
    obtain rfl := Option.some.inj (hu.symm.trans hq)
    exact (hs.filed hentry :)
  obtain ⟨frames, hf⟩ : ∃ frames, Wire.encode ⟨p.sent + 1, .pingOk⟩ = .ok frames := ⟨_, rfl⟩
  obtain ⟨result, hsend, htaken, -⟩ := hposted.sends hu hbox hf
  rw [accept_of_ready hp hl, act_ping hentry hm]
  refine ⟨frames, result, hf, hsend, fun hok => ?_⟩
  rw [engine_edit, htaken hok, ← engine_counted_ping hentry hm, Engine.editPeer_of_some hu]

end Station
end PeerMesh
