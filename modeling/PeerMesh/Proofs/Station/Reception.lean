import PeerMesh.Proofs.Station.Housekeeping

/-!
# Messages that are listened to

`Received` lists what can come of a message that was read. Only two cases change what the engine
knows of the sender: a HELLO in sequence, and another message in sequence from a peer that has
greeted. The rest is chores.
-/

namespace PeerMesh
set_option autoImplicit false

variable {κ μ : Type}

namespace Peer
variable {p : Peer μ} {m : Message}

theorem showsLoss_eq_true (hm : m.isHello = false) :
    p.showsLoss m = true ↔ m.sequence ≠ p.want + 1 := by
  rw [showsLoss, nextWant, hm]
  exact decide_eq_true_iff

theorem showsLoss_eq_false (hm : m.isHello = false) :
    p.showsLoss m = false ↔ m.sequence = p.want + 1 := by
  rw [← Bool.not_eq_true, showsLoss_eq_true hm]
  exact Decidable.not_not

theorem showsLoss_hello {h : Hello} (hb : m.body = .hello h) :
    p.showsLoss m = true ↔ m.sequence ≠ 1 := by
  have hm : m.isHello = true := by
    rw [Message.isHello, hb]
    rfl
  rw [showsLoss, nextWant, hm]
  exact decide_eq_true_iff

end Peer

namespace Station

section
variable {s : Station κ μ} {id : PeerId} {p : Peer μ} {m : Message}

theorem engine_foldl_peerJoined (s : Station κ μ) (id : PeerId) (groups : List String) :
    (groups.foldl (fun s group => s.peerJoined id group) s).engine =
      { groups.foldl (fun e group => e.enrol id group) s.engine with
        events := s.engine.events ++
          groups.map fun group => .join id (s.engine.nameOf id) group } := by
  induction groups generalizing s with
  | nil => simp
  | cons group groups ih =>
    have hsame : (s.peerJoined id group).engine.peerGroups = (s.engine.enrol id group).peerGroups := rfl
    have hevents : (s.peerJoined id group).engine.events =
        s.engine.events ++ [.join id (s.engine.nameOf id) group] := rfl
    have hname : (s.peerJoined id group).engine.nameOf id = s.engine.nameOf id := rfl
    rw [List.foldl_cons, ih, Engine.foldl_enrol, Engine.peerGroups_foldl_enrol hsame, hevents, hname,
      List.foldl_cons, Engine.foldl_enrol (s.engine.enrol id group), List.append_assoc]
    rfl

theorem carriage_foldl_peerJoined (s : Station κ μ) (id : PeerId) (groups : List String) :
    (groups.foldl (fun s group => s.peerJoined id group) s).carriage = s.carriage := by
  induction groups generalizing s with
  | nil => rfl
  | cons group groups ih => exact (ih (s.peerJoined id group)).trans rfl

theorem alarms_peerJoined (s : Station κ μ) (id : PeerId) (group : String) :
    (s.peerJoined id group).alarms = s.alarms := by
  rw [peerJoined, alarms_emit, alarms_note, alarms_edit]
  exact List.append_nil _

theorem alarms_foldl_peerJoined (s : Station κ μ) (id : PeerId) (groups : List String) :
    (groups.foldl (fun s group => s.peerJoined id group) s).alarms = s.alarms := by
  induction groups generalizing s with
  | nil => rfl
  | cons group groups ih =>
    exact (ih (s.peerJoined id group)).trans (s.alarms_peerJoined id group)

def counted (s : Station κ μ) (id : PeerId) (p : Peer μ) (m : Message) : Station κ μ :=
  (s.edit (·.editPeer id (·.advance m))).note (p.receiveNotes m)

theorem engine_counted (hp : s.engine.roster.get? id = some p) :
    (s.counted id p m).engine =
      { s.engine with roster := s.engine.roster.insert id (p.advance m) } :=
  Engine.editPeer_of_some hp _

theorem alarms_counted (h : p.showsLoss m = false) : (s.counted id p m).alarms = s.alarms := by
  rw [counted, alarms_note, Peer.receiveNotes, h]
  exact List.append_nil _

/-- The entry of a peer that entered, before its status is known. -/
def entered (p : Peer μ) (m : Message) (h : Hello) : Peer μ :=
  { p.advance m with declaredName := some h.name, headers := h.headers }

theorem engine_entered (hp : s.engine.roster.get? id = some p) (h : Hello) (notes : List Note) :
    ((((s.counted id p m).edit
      (·.editPeer id ({ · with declaredName := some h.name, headers := h.headers }))).note
        notes).emit [.enter id h.name h.headers (p.advance m).endpoint]).engine =
      { s.engine with
        roster := s.engine.roster.insert id (entered p m h)
        events := s.engine.events ++ [.enter id h.name h.headers p.endpoint] } := by
  have hcount : (s.counted id p m).engine.roster.get? id = some (p.advance m) := by
    rw [engine_counted hp, SortedMap.get?_insert, if_pos rfl]
  rw [engine_emit, engine_note, engine_edit, Engine.editPeer_of_some hcount, engine_counted hp]
  dsimp only
  rw [SortedMap.insert_insert]
  rfl

theorem editPeer_entered (hr : p.ready = true) {h : Hello} (hm : m.body = .hello h) {e : Engine μ}
    {roster : Roster μ} (he : e.roster = roster.insert id (entered p m h)) :
    e.editPeer id ({ · with status := h.status }) =
      { e with roster := roster.insert id (p.introduced h) } := by
  have hentry : e.roster.get? id = some (entered p m h) := by
    rw [he, SortedMap.get?_insert, if_pos rfl]
  have hwant : p.nextWant m = 1 := by
    rw [Peer.nextWant, Message.isHello, hm]
    rfl
  have hlast : ({ entered p m h with status := h.status } : Peer μ) = p.introduced h := by
    simp only [entered, Peer.introduced, Peer.advance, hwant, hr]
  rw [Engine.editPeer_of_some hentry, hlast, he, SortedMap.insert_insert]

/-- The peer enters, is enrolled, and only then gets the status it gave. The three edits of its
entry come to one. -/
theorem engine_introduced (hp : s.engine.roster.get? id = some p) (hr : p.ready = true)
    {h : Hello} (hm : m.body = .hello h) :
    ((s.counted id p m).introduced id h).engine = s.engine.greeted id p h := by
  let e : Engine μ :=
    { s.engine with
      roster := s.engine.roster.insert id (entered p m h)
      events := s.engine.events ++ [.enter id h.name h.headers p.endpoint] }
  have hcount : (s.counted id p m).engine.roster.get? id = some (p.advance m) := by
    rw [engine_counted hp, SortedMap.get?_insert, if_pos rfl]
  have hname : e.nameOf id = h.name := by
    rw [Engine.nameOf, SortedMap.get?_insert, if_pos rfl]
    rfl
  have hsame : e.peerGroups =
      { s.engine with roster := s.engine.roster.insert id (p.introduced h) }.peerGroups := rfl
  rw [introduced, hcount]
  dsimp only
  rw [engine_edit, engine_foldl_peerJoined, engine_entered hp, hname, Engine.foldl_enrol,
    Engine.greeted,
    Engine.foldl_enrol { s.engine with roster := s.engine.roster.insert id (p.introduced h) },
    editPeer_entered hr hm rfl, Engine.peerGroups_foldl_enrol hsame]
  dsimp only [e]
  rw [List.append_assoc]
  rfl

theorem carriage_introduced (s : Station κ μ) (id : PeerId) (h : Hello) :
    (s.introduced id h).carriage = s.carriage := by
  unfold introduced
  split
  · rfl
  · exact carriage_foldl_peerJoined _ id h.groups

theorem alarms_introduced (s : Station κ μ) (id : PeerId) (h : Hello) :
    (s.introduced id h).alarms = s.alarms := by
  unfold introduced
  split
  · rfl
  · dsimp only
    rw [alarms_edit, alarms_foldl_peerJoined, alarms_emit, alarms_note, alarms_edit]
    exact List.append_nil _

theorem engine_followStatus (s : Station κ μ) (id : PeerId) (command : Command) (status : UInt8) :
    (s.followStatus id command status).engine = s.engine.editPeer id ({ · with status }) := by
  unfold followStatus
  split
  · rename_i hp
    rw [Engine.editPeer_of_none hp]
  · dsimp only
    split <;> rfl

theorem carriage_followStatus (s : Station κ μ) (id : PeerId) (command : Command) (status : UInt8) :
    (s.followStatus id command status).carriage = s.carriage := by
  unfold followStatus
  split
  · rfl
  · dsimp only
    split <;> rfl

theorem alarms_followStatus (hp : s.engine.roster.get? id = some p) (command : Command) :
    (s.followStatus id command (p.status + 1)).alarms = s.alarms := by
  rw [followStatus, hp]
  dsimp only
  rw [if_pos rfl, alarms_edit]

/-! ### Messages that are no HELLO -/

theorem engine_counted_of_not_hello (hp : s.engine.roster.get? id = some p)
    (hm : m.isHello = false) : (s.counted id p m).engine =
      { s.engine with roster := s.engine.roster.insert id { p with want := p.want + 1 } } := by
  have hwant : p.advance m = { p with want := p.want + 1 } := by
    rw [Peer.advance, Peer.nextWant, hm]
    rfl
  rw [engine_counted hp, hwant]

theorem get?_counted (hp : s.engine.roster.get? id = some p) (hm : m.isHello = false) :
    (s.counted id p m).engine.roster.get? id = some { p with want := p.want + 1 } := by
  rw [engine_counted_of_not_hello hp hm, SortedMap.get?_insert, if_pos rfl]

theorem engine_followStatus_counted (hp : s.engine.roster.get? id = some p)
    (hm : m.isHello = false) {t : Station κ μ}
    (ht : t.engine.roster = (s.counted id p m).engine.roster) (command : Command) (status : UInt8) :
    (t.followStatus id command status).engine = { t.engine with
      roster := s.engine.roster.insert id { p with want := p.want + 1, status } } := by
  have hentry := get?_counted hp hm
  rw [← ht] at hentry
  rw [engine_followStatus, Engine.editPeer_of_some hentry, ht, engine_counted_of_not_hello hp hm]
  dsimp only
  rw [SortedMap.insert_insert]

theorem alarms_followStatus_counted (hp : s.engine.roster.get? id = some p)
    (hm : m.isHello = false) {t : Station κ μ}
    (ht : t.engine.roster = (s.counted id p m).engine.roster) (command : Command) :
    (t.followStatus id command (p.status + 1)).alarms = t.alarms := by
  have hentry := get?_counted hp hm
  rw [← ht] at hentry
  exact alarms_followStatus hentry command

end

section
variable [Carriage κ μ] {near : PeerId → String → Prop} {s : Station κ μ} {id : PeerId} {p : Peer μ}
  {m : Message}

/-- A message other than a PING is acted on at once, and nothing is sent. -/
theorem engine_act (hp : s.engine.roster.get? id = some p) (hm : m.isHello = false)
    (hb : m.body ≠ .ping) :
    ((s.counted id p m).act id m.body).engine = s.engine.heeded id p m.body := by
  let u := s.counted id p m
  have hcount : u.engine =
      { s.engine with roster := s.engine.roster.insert id { p with want := p.want + 1 } } :=
    engine_counted_of_not_hello hp hm
  have hname : u.engine.nameOf id = p.name := by
    rw [Engine.nameOf, get?_counted hp hm]
    rfl
  change (u.act id m.body).engine = _
  cases hbody : m.body with
  | hello h =>
    rw [Message.isHello, hbody] at hm
    cases hm
  | ping => exact absurd hbody hb
  | whisper | shout =>
    rw [act, engine_emit, hname, hcount]
    rfl
  | join group status =>
    rw [act, engine_followStatus_counted (t := u.peerJoined id group) hp hm rfl, peerJoined, hname,
      engine_emit, engine_note, engine_edit, hcount]
    rfl
  | leave group status =>
    rw [act, engine_followStatus_counted (t := u.peerLeft id group) hp hm rfl, peerLeft, hname,
      engine_emit, engine_note, engine_edit, hcount]
    rfl
  | pingOk =>
    rw [act, hcount]
    simp [Engine.heeded, Engine.regroup, Body.reports, Peer.followed, Body.statusAfter]

/-- Of all messages that are listened to, only a PING is answered. -/
theorem carriage_act (s : Station κ μ) (id : PeerId) {body : Body} (hb : body ≠ .ping) :
    (s.act id body).carriage = s.carriage := by
  cases body with
  | hello h => exact carriage_introduced s id h
  | whisper | shout | pingOk => rfl
  | join | leave => exact carriage_followStatus _ id _ _
  | ping => exact absurd rfl hb

theorem alarms_act (hp : s.engine.roster.get? id = some p) (hm : m.isHello = false)
    (hl : p.showsLoss m = false) (hb : m.body ≠ .ping) (hf : m.body.Follows p.status) :
    ((s.counted id p m).act id m.body).alarms = s.alarms := by
  let u := s.counted id p m
  have hquiet : u.alarms = s.alarms := alarms_counted hl
  change (u.act id m.body).alarms = _
  cases hbody : m.body with
  | hello h =>
    rw [Message.isHello, hbody] at hm
    cases hm
  | ping => exact absurd hbody hb
  | whisper | shout | pingOk => exact hquiet
  | join group status =>
    rw [hbody] at hf
    obtain rfl : status = p.status + 1 := hf
    rw [act, alarms_followStatus_counted (t := u.peerJoined id group) hp hm rfl, alarms_peerJoined,
      hquiet]
  | leave group status =>
    rw [hbody] at hf
    obtain rfl : status = p.status + 1 := hf
    rw [act, alarms_followStatus_counted (t := u.peerLeft id group) hp hm rfl, peerLeft, alarms_emit,
      alarms_note, alarms_edit, hquiet]
    exact List.append_nil _

theorem act_ping (hp : s.engine.roster.get? id = some p) (hm : m.body = .ping) :
    (s.counted id p m).act id m.body = (s.counted id p m).post id .pingOk := by
  rw [hm, act, post, get?_counted hp (Message.isHello_of_ping hm)]

omit [Carriage κ μ] in
theorem engine_counted_ping (hp : s.engine.roster.get? id = some p) (hm : m.body = .ping) :
    (s.counted id p m).engine = s.engine.heeded id p m.body := by
  rw [engine_counted_of_not_hello hp (Message.isHello_of_ping hm), hm]
  simp [Engine.heeded, Engine.regroup, Body.reports, Peer.followed, Body.statusAfter]

/-- Whatever else is done about a message, the answer to a PING comes last. -/
theorem acted (near : PeerId → String → Prop) (hp : s.engine.roster.get? id = some p)
    (hm : m.isHello = false) (hl : p.showsLoss m = false) :
    ∃ v : Station κ μ, v.engine = s.engine.heeded id p m.body ∧ v.carriage = s.carriage ∧
      (m.body.Follows p.status → v.alarms = s.alarms) ∧
      v.Chores near ((s.counted id p m).act id m.body) := by
  by_cases hb : m.body = .ping
  · refine ⟨s.counted id p m, engine_counted_ping hp hb, rfl, fun _ => alarms_counted hl, ?_⟩
    rw [act_ping hp hb]
    exact .single (.post id .pingOk rfl)
  · exact ⟨_, engine_act hp hm hb, carriage_act _ id hb, alarms_act hp hm hl hb, .refl near _⟩

theorem accept_unready (h : s.engine.readyPeer? id = none) (m : Message) (now : Nat) :
    s.accept id m now = s.note [.unready id m.body.command] := by
  rw [accept, h]

theorem engine_accept_lost (hp : s.engine.readyPeer? id = some p) (hl : p.showsLoss m = true)
    (now : Nat) : (s.accept id m now).engine = s.engine.drop id := by
  have hentry := (Engine.readyPeer?_eq_some.mp hp).1
  have hnow : (s.engine.roster.insert id (p.advance m)).get? id = some (p.advance m) := by
    rw [SortedMap.get?_insert, if_pos rfl]
  rw [accept, hp]
  dsimp only
  rw [if_pos hl, engine_remove]
  change (s.counted id p m).engine.drop id = _
  rw [engine_counted hentry, Engine.drop_withRoster hentry hnow rfl, SortedMap.erase_insert,
    ← Engine.roster_drop]

theorem carriage_accept_lost (hp : s.engine.readyPeer? id = some p) (hl : p.showsLoss m = true)
    (now : Nat) : (s.accept id m now).carriage = s.carriage := by
  rw [accept, hp]
  dsimp only
  rw [if_pos hl, carriage_remove]
  rfl

theorem accept_of_ready (hp : s.engine.readyPeer? id = some p) (hl : p.showsLoss m = false)
    (now : Nat) :
    s.accept id m now = ((s.counted id p m).act id m.body).edit (·.refresh id now) := by
  rw [accept, hp]
  dsimp only
  rw [hl, if_neg Bool.false_ne_true]
  rfl

/-- After a greeting that was not turned away the peer is unready by all that was done, and is
declared ready last. -/
theorem chores_welcome (hs : s.engine.Sound) (hrun : s.engine.stopped = false) (walk : Walk)
    {endpoint : String} (hnear : near id endpoint) (now : Nat) :
    ∃ u : Station κ μ, s.Chores near u ∧ u.engine.readyPeer? id = none ∧
      (s.welcome walk id endpoint now = (false, u) ∨
        ∃ p, u.engine.roster.get? id = some p ∧ s.welcome walk id endpoint now =
          (true, u.edit (·.editPeer id ({ · with ready := true })))) := by
  have hfresh : ∃ u : Station κ μ, s.Chores near u ∧ u.engine.readyPeer? id = none ∧
      (if (s.engine.readyPeer? id).isSome then (s.note [.greetedAgain id]).remove id else s) = u := by
    cases hp : s.engine.readyPeer? id with
    | none => exact ⟨s, .refl near s, hp, rfl⟩
    | some p =>
      refine ⟨_, (s.chores_note rfl).trans (.single (.remove id)), ?_, rfl⟩
      rw [engine_remove, Engine.readyPeer?, Engine.get?_drop, if_pos rfl]
      rfl
  obtain ⟨u, hu, hout, hfirst⟩ := hfresh
  have hsound := hu.sound hs
  have hrun' : u.engine.stopped = false := (hu.shifts hs).self.stopped.trans hrun
  obtain ⟨hreq, hentry⟩ := chores_require hsound hrun' walk hnear now
  have hout' := (hreq.shifts hsound).readyPeer?_eq_none hout
  rw [welcome, hfirst]
  generalize u.require walk id endpoint now = r at hreq hentry hout' ⊢
  obtain ⟨granted, t⟩ := r
  refine ⟨t, hu.trans hreq, hout', ?_⟩
  cases granted with
  | false => exact .inl rfl
  | true =>
    obtain ⟨p, hp⟩ := hentry rfl
    exact .inr ⟨p, hp, rfl⟩

/-- All that can come of a message that was read. -/
inductive Received (near : PeerId → String → Prop) (s : Station κ μ) (id : PeerId) (m : Message)
    (t : Station κ μ) : Prop
  /-- The sender has not greeted. -/
  | unheard (hm : m.isHello = false) (hr : s.engine.readyPeer? id = none)
    (he : t.engine = s.engine) (hc : t.carriage = s.carriage) (ha : t.alarms = s.alarms)
  /-- A greeting was turned away. -/
  | refused (hm : m.isHello = true) (h : s.Chores near t) (hr : t.engine.readyPeer? id = none)
  /-- The message is out of sequence. -/
  | lost {u : Station κ μ} (h : s.Chores near u) (hr : u.engine.readyPeer? id = none)
    (he : t.engine = u.engine) (hc : t.carriage = u.carriage)
    (hm : if m.isHello then m.sequence ≠ 1
      else ∃ p, s.engine.readyPeer? id = some p ∧ m.sequence ≠ p.want + 1)
  | greeted {u v : Station κ μ} {p h} (hm : m = ⟨1, .hello h⟩) (hu : s.Chores near u)
    (hp : u.engine.roster.get? id = some p) (hr : p.ready = false)
    (he : v.engine = u.engine.greeted id p h) (hc : v.carriage = u.carriage)
    (ha : v.alarms = u.alarms) (hv : v.Chores near t)
  | heeded {v : Station κ μ} {p} (hm : m.isHello = false) (hp : s.engine.readyPeer? id = some p)
    (hn : m.sequence = p.want + 1) (he : v.engine = s.engine.heeded id p m.body)
    (hc : v.carriage = s.carriage) (ha : m.body.Follows p.status → v.alarms = s.alarms)
    (hv : v.Chores near t)

theorem received_accept (hm : m.isHello = false) (now : Nat) :
    s.Received near id m (s.accept id m now) := by
  cases hp : s.engine.readyPeer? id with
  | none =>
    rw [accept_unready hp]
    refine .unheard hm hp rfl rfl ?_
    rw [alarms_note]
    exact List.append_nil _
  | some p =>
    have hentry := (Engine.readyPeer?_eq_some.mp hp).1
    cases hl : p.showsLoss m with
    | false =>
      obtain ⟨v, he, hc, ha, hv⟩ := acted near hentry hm hl
      rw [accept_of_ready hp hl]
      refine .heeded hm hp ?_ he hc ha (hv.trans (.single (.refresh id now)))
      exact (Peer.showsLoss_eq_false hm).mp hl
    | true =>
      have hsame := engine_accept_lost hp hl now
      refine .lost (u := s.remove id) (.single (.remove id)) ?_ ?_ ?_ ?_
      · rw [engine_remove, Engine.readyPeer?, Engine.get?_drop, if_pos rfl]
        rfl
      · rw [hsame, engine_remove]
      · rw [carriage_accept_lost hp hl, carriage_remove]
      · rw [hm, if_neg Bool.false_ne_true]
        exact ⟨p, hp, (Peer.showsLoss_eq_true hm).mp hl⟩

/-- A peer that is declared ready, and whose greeting has the number 1, introduces itself by it. -/
theorem accept_greeting_first (hp : s.engine.roster.get? id = some p) {h : Hello}
    (hb : m.body = .hello h) (hn : m.sequence = 1) (now : Nat) :
    ∃ v : Station κ μ, v.engine = s.engine.greeted id p h ∧ v.carriage = s.carriage ∧
      v.alarms = s.alarms ∧ (s.edit (·.editPeer id ({ · with ready := true }))).accept id m now =
        v.edit (·.refresh id now) := by
  let u := s.edit (·.editPeer id ({ · with ready := true }))
  let q : Peer μ := { p with ready := true }
  have hu : u.engine = { s.engine with roster := s.engine.roster.insert id q } :=
    Engine.editPeer_of_some hp _
  have hq : u.engine.roster.get? id = some q := Engine.get?_editPeer hp _
  have hready : u.engine.readyPeer? id = some q := Engine.readyPeer?_eq_some.mpr ⟨hq, rfl⟩
  have hl : q.showsLoss m = false := by
    rw [← Bool.not_eq_true, Peer.showsLoss_hello hb]
    exact not_not_intro hn
  refine ⟨(u.counted id q m).introduced id h, ?_, ?_, ?_, ?_⟩
  · rw [engine_introduced hq rfl hb, hu, Engine.greeted, Engine.greeted]
    dsimp only
    rw [SortedMap.insert_insert]
    rfl
  · rw [carriage_introduced]
    rfl
  · rw [alarms_introduced, alarms_counted hl]
    rfl
  · rw [accept_of_ready hready hl, hb, act]

/-- A greeting with another number counts as a loss, and the peer is forgotten. -/
theorem accept_greeting_lost (hp : s.engine.roster.get? id = some p) {h : Hello}
    (hb : m.body = .hello h) (hn : m.sequence ≠ 1) (now : Nat) :
    ((s.edit (·.editPeer id ({ · with ready := true }))).accept id m now).engine =
        s.engine.drop id ∧
      ((s.edit (·.editPeer id ({ · with ready := true }))).accept id m now).carriage =
        s.carriage := by
  let u := s.edit (·.editPeer id ({ · with ready := true }))
  let q : Peer μ := { p with ready := true }
  have hu : u.engine = { s.engine with roster := s.engine.roster.insert id q } :=
    Engine.editPeer_of_some hp _
  have hq : u.engine.roster.get? id = some q := Engine.get?_editPeer hp _
  have hready : u.engine.readyPeer? id = some q := Engine.readyPeer?_eq_some.mpr ⟨hq, rfl⟩
  have hl : q.showsLoss m = true := (Peer.showsLoss_hello hb).mpr hn
  have hnow : (s.engine.roster.insert id q).get? id = some q := by
    rw [SortedMap.get?_insert, if_pos rfl]
  constructor
  · rw [engine_accept_lost hready hl, hu, Engine.drop_withRoster hp hnow rfl,
      SortedMap.erase_insert, ← Engine.roster_drop]
  · rw [carriage_accept_lost hready hl]
    rfl

theorem received_hello (hs : s.engine.Sound) (hrun : s.engine.stopped = false) (walk : Walk)
    {h : Hello} (hm : m.body = .hello h) (hnear : near id h.endpoint) (now : Nat) :
    s.Received near id m (match s.welcome walk id h.endpoint now with
      | (true, s) => s.accept id m now
      | (false, s) => s) := by
  have hhello : m.isHello = true := by
    rw [Message.isHello, hm]
    rfl
  obtain ⟨u, hu, hout, hw | ⟨p, hp, hw⟩⟩ := chores_welcome hs hrun walk hnear now
  · rw [hw]
    exact .refused hhello hu hout
  · rw [hw]
    dsimp only
    by_cases hn : m.sequence = 1
    · have hunready : p.ready = false := by
        cases hr : p.ready with
        | false => rfl
        | true =>
          rw [Engine.readyPeer?_eq_some.mpr ⟨hp, hr⟩] at hout
          cases hout
      obtain ⟨v, he, hc, ha, haccept⟩ := accept_greeting_first hp hm hn now
      rw [haccept]
      exact .greeted (by rw [← hm, ← hn]) hu hp hunready he hc ha (.single (.refresh id now))
    · obtain ⟨he, hc⟩ := accept_greeting_lost hp hm hn now
      refine .lost (u := u.remove id) (hu.trans (.single (.remove id))) ?_ ?_ ?_ ?_
      · rw [engine_remove, Engine.readyPeer?_drop, if_pos rfl]
      · rw [he, engine_remove]
      · rw [hc, carriage_remove]
      · rw [hhello, if_pos rfl]
        exact hn

end
end Station
end PeerMesh
