import PeerMesh.Proofs.Station.Reception

/-!
# What an operation does

Each operation is taken apart once. What an engine does without being told to is chores. A command
of the application may also change what the engine says of itself, and a message that is listened to
changes what it knows of the sender. `Performed` has one case for each, with the chores before and
after it.
-/

namespace PeerMesh
set_option autoImplicit false

variable {κ μ : Type}

namespace Station

section
variable [Carriage κ μ] {s : Station κ μ}

/-- What is left at `t` of telling everybody, in the order of `ids`. -/
structure Announced (s : Station κ μ) (body : Body) (ids : List PeerId) (t : Station κ μ) : Prop where
  everybody : ids.Perm s.engine.roster.keys
  engine : t.engine = (s.posts body ids).engine
  carriage : t.carriage = (s.posts body ids).carriage
  alarms : t.alarms = s.alarms

theorem announced_broadcast (hs : s.engine.Sound) (walk : Walk) (body : Body) :
    s.Announced body (walk.order s.engine.roster.keys) (s.broadcast walk body) := by
  have hperm := walk.perm_order s.engine.roster.keys
  have hposts := posts_eq (fun _ _ => []) body (hperm.nodup_iff.mpr (SortedMap.nodup_keys _)) s hs.filed
  have hquiet := Roster.not_alarm_sendEach (κ := κ) (μ := μ) (fun _ _ => []) body (fun _ _ => rfl)
    (walk.order s.engine.roster.keys) s.engine.roster s.carriage
  refine ⟨hperm, ?_, ?_, ?_⟩
  · exact (engine_foldl_remove _ _).trans hposts.1.symm
  · exact (carriage_foldl_remove _ _).trans hposts.2.symm
  · rw [broadcast, alarms_foldl_remove, alarms_note]
    exact (congrArg (s.alarms ++ ·) hquiet).trans (List.append_nil _)

/-- All that can come of an operation. -/
inductive Performed (near : PeerId → String → Prop) (s : Station κ μ) : Op → Station κ μ → Prop
  | worked {op t} (h : s.Chores near t) : Performed near s op t
  | dressed {key value} {t : Station κ μ}
    (hok : checkHeader s.engine.headers key value = .ok ())
    (he : t.engine = { s.engine with headers := s.engine.headers.insert key value })
    (hc : t.carriage = s.carriage) (ha : t.alarms = s.alarms) :
    Performed near s (.setHeader key value) t
  | joined {group ids} {u t : Station κ μ} (hnew : s.engine.joined.contains group = false)
    (hok : checkGroup s.engine.joined.size group = .ok ())
    (he : u.engine = s.engine.enlist group) (hc : u.carriage = s.carriage) (ha : u.alarms = s.alarms)
    (h : u.Announced (.join group (s.engine.status + 1)) ids t) : Performed near s (.join group) t
  | left {group ids} {u t : Station κ μ} (hold : s.engine.joined.contains group = true)
    (he : u.engine = s.engine.delist group) (hc : u.carriage = s.carriage) (ha : u.alarms = s.alarms)
    (h : u.Announced (.leave group (s.engine.status + 1)) ids t) : Performed near s (.leave group) t
  | halted {t : Station κ μ} (hrun : s.engine.stopped = false) (he : t.engine = s.engine.halt)
    (hc : t.carriage = s.carriage) (ha : t.alarms = s.alarms) : Performed near s .shutdown t
  | drained {t : Station κ μ} (he : t.engine = { s.engine with events := [] })
    (hc : t.carriage = s.carriage) (ha : t.alarms = s.alarms) : Performed near s .drain t
  | received {routingId frames id m now} {t : Station κ μ} (hrun : s.engine.stopped = false)
    (hm : Wire.decode frames = .ok m) (hid : PeerId.ofRoutingId? routingId = some id)
    (h : s.Received near id m t) : Performed near s (.receive routingId frames now) t

end

end Station

/-- Whether an operation names an endpoint as that of a peer. -/
def Op.Names (id : PeerId) (endpoint : String) : Op → Prop
  | .discover (.found peer place) _ => peer = id ∧ place = endpoint
  | .receive routingId frames _ => PeerId.ofRoutingId? routingId = some id ∧
      ∃ m h, Wire.decode frames = .ok m ∧ m.body = .hello h ∧ h.endpoint = endpoint
  | _ => False

namespace Station
variable [Carriage κ μ] {near : PeerId → String → Prop} {s : Station κ μ}

theorem receive_of_stopped (hstop : s.engine.stopped = true) (walk : Walk) (routingId : List UInt8)
    (frames : Content) (now : Nat) : s.receive walk routingId frames now = s := by
  rw [receive, if_pos hstop]

theorem receive_of_not_hello (hrun : s.engine.stopped = false) {routingId : List UInt8}
    {frames : Content} {id : PeerId} {m : Message} (hm : Wire.decode frames = .ok m)
    (hid : PeerId.ofRoutingId? routingId = some id) (hhello : m.isHello = false) (walk : Walk)
    (now : Nat) : s.receive walk routingId frames now = s.accept id m now := by
  rw [receive, if_neg (Bool.eq_false_iff.mp hrun), hm, hid]
  dsimp only
  split
  · rename_i hb
    rw [Message.isHello, hb] at hhello
    cases hhello
  · rfl

theorem received_receive (hs : s.engine.Sound) (hrun : s.engine.stopped = false) (walk : Walk)
    {routingId : List UInt8} {frames : Content} {id : PeerId} {m : Message}
    (hm : Wire.decode frames = .ok m) (hid : PeerId.ofRoutingId? routingId = some id)
    (hnear : ∀ {h : Hello}, m.body = .hello h → near id h.endpoint) (now : Nat) :
    s.Received near id m (s.receive walk routingId frames now) := by
  rw [receive, if_neg (Bool.eq_false_iff.mp hrun), hm, hid]
  dsimp only
  cases hb : m.body with
  | hello h => exact received_hello hs hrun walk hb (hnear hb) now
  | _ =>
    refine received_accept ?_ now
    rw [Message.isHello, hb]
    rfl

theorem performed_receive (hs : s.engine.Sound) (walk : Walk) {routingId : List UInt8}
    {frames : Content} (now : Nat)
    (hnear : ∀ {id endpoint}, (Op.receive routingId frames now).Names id endpoint → near id endpoint) :
    s.Performed near (.receive routingId frames now) (s.receive walk routingId frames now) := by
  cases hrun : s.engine.stopped with
  | true =>
    rw [receive_of_stopped hrun]
    exact .worked (.refl near s)
  | false =>
    cases hm : Wire.decode frames with
    | error e =>
      rw [receive, if_neg (Bool.eq_false_iff.mp hrun), hm]
      exact .worked (s.chores_note rfl)
    | ok m =>
      cases hid : PeerId.ofRoutingId? routingId with
      | none =>
        rw [receive, if_neg (Bool.eq_false_iff.mp hrun), hm, hid]
        exact .worked (s.chores_note rfl)
      | some id =>
        have hnear' : ∀ {h : Hello}, m.body = .hello h → near id h.endpoint :=
          fun {h} hb => hnear ⟨hid, m, h, hm, hb, rfl⟩
        exact .received hrun hm hid (received_receive hs hrun walk hm hid hnear' now)

theorem performed_join (hs : s.engine.Sound) (walk : Walk) (group : String) :
    s.Performed near (.join group) (s.join walk group).2 := by
  unfold join
  split
  · exact .worked (.refl near s)
  · rename_i hnew
    split
    · exact .worked (.refl near s)
    · rename_i hok
      let u := (s.edit (·.enlist group)).note [.joining s.engine.name group (s.engine.status + 1)]
      have hquiet : u.alarms = s.alarms := (alarms_note _ _).trans (List.append_nil _)
      exact .joined (Bool.eq_false_iff.mpr hnew) hok (u := u) rfl rfl hquiet
        (announced_broadcast (hs.enlist hok) walk _)

theorem performed_leave (hs : s.engine.Sound) (walk : Walk) (group : String) :
    s.Performed near (.leave group) (s.leave walk group) := by
  unfold leave
  split
  · rename_i hold
    let u := (s.edit (·.delist group)).note [.leaving s.engine.name group (s.engine.status + 1)]
    have hquiet : u.alarms = s.alarms := (alarms_note _ _).trans (List.append_nil _)
    exact .left hold (u := u) rfl rfl hquiet (announced_broadcast (hs.delist group) walk _)
  · exact .worked (.refl near s)

theorem performed_setHeader (s : Station κ μ) (key value : String) :
    s.Performed near (.setHeader key value) (s.setHeader key value).2 := by
  unfold setHeader
  split
  · exact .worked (.refl near s)
  · exact .dressed ‹_› rfl rfl rfl

theorem performed_shutdown (s : Station κ μ) (walk : Walk) :
    s.Performed near .shutdown (s.shutdown walk) := by
  unfold shutdown
  split
  · exact .worked (.refl near s)
  · rename_i hrun
    refine .halted (Bool.eq_false_iff.mpr hrun) rfl rfl ?_
    dsimp only
    rw [alarms_emit, alarms_edit, alarms_note]
    refine (congrArg (s.alarms ++ ·) (List.filter_eq_nil_iff.mpr fun note hnote => ?_)).trans
      (List.append_nil _)
    rcases List.mem_cons.mp hnote with rfl | hnote
    · exact Bool.false_ne_true
    · obtain ⟨id, -, hnote⟩ := List.mem_flatMap.mp hnote
      split at hnote
      · exact List.filter_eq_nil_iff.mp (Peer.not_alarm_disconnectNotes _) note hnote
      · cases hnote

theorem performed_step (hs : s.engine.Sound) (walk : Walk) (op : Op)
    (hnear : ∀ {id endpoint}, op.Names id endpoint → near id endpoint) :
    s.Performed near op (s.step walk op) := by
  cases op with
  | setHeader key value => exact s.performed_setHeader key value
  | join group => exact performed_join hs walk group
  | leave group => exact performed_leave hs walk group
  | whisper id content => exact .worked (s.chores_whisper id content)
  | shout group content => exact .worked (chores_shout hs group content)
  | shutdown => exact s.performed_shutdown walk
  | discover sighting now =>
    cases sighting with
    | found id endpoint => exact .worked (chores_found hs walk (hnear ⟨rfl, rfl⟩) now)
    | lost id => exact .worked (s.chores_lost id)
  | receive routingId frames now => exact performed_receive hs walk now hnear
  | reap now => exact .worked (chores_reap hs walk now)
  | drain => exact .drained rfl rfl rfl

end Station
end PeerMesh
