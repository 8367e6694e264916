import PeerMesh.Proofs.Station.Pulse

/-!
# What is no sign of life

Each operation but the watch over silent peers is calm about everybody who gives no sign of life by
it. Whoever does give one has a fresh pulse afterwards, unless the peer is gone.
-/

namespace PeerMesh
set_option autoImplicit false

variable {κ μ : Type}

namespace Station
variable [Carriage κ μ] {but : PeerId → Prop} {s t : Station κ μ} {id : PeerId} {p q : Peer μ}

/-! ### Sending -/

theorem Posted.calm {body : Body} (h : s.Posted id body t) : s.engine.Calm but t.engine := by
  cases h with
  | unmoved _ he | rejected _ _ _ _ he =>
    rw [he]
    exact .refl but s.engine
  | taken hp _ _ _ he =>
    rw [he]
    exact .of_insert ⟨rfl, rfl, rfl, rfl, rfl, rfl, rfl, rfl⟩ rfl hp rfl rfl
  | lost _ _ _ _ he =>
    rw [he]
    exact s.engine.calm_drop id

theorem calm_posts (hs : s.engine.Sound) (body : Body) (ids : List PeerId) :
    s.engine.Calm but (s.posts body ids).engine := by
  induction ids generalizing s with
  | nil => exact .refl but s.engine
  | cons id ids ih =>
    have hposted := s.posted_post id body fun _ => hs.filed
    exact hposted.calm.trans (ih (hposted.shifts.sound hs))

theorem Announced.calm {body : Body} {ids : List PeerId} (h : s.Announced body ids t)
    (hs : s.engine.Sound) : s.engine.Calm but t.engine := by
  rw [h.engine]
  exact calm_posts hs body ids

theorem calm_whisper (hs : s.engine.Sound) (id : PeerId) (content : Content) :
    s.engine.Calm but (s.whisper id content).engine := by
  cases hp : s.engine.roster.get? id with
  | none =>
    rw [whisper, hp]
    exact .refl but s.engine
  | some p =>
    rw [whisper_eq_post hp]
    exact (s.posted_post id _ fun _ => hs.filed).calm

theorem calm_shout (hs : s.engine.Sound) (group : String) (content : Content) :
    s.engine.Calm but (s.shout group content).engine := by
  cases hg : s.engine.peerGroups.get? group with
  | none =>
    rw [shout, hg]
    exact .refl but s.engine
  | some g =>
    rw [(shout_eq_posts hs hg content).1]
    exact calm_posts hs _ _

/-! ### Meeting -/

omit [Carriage κ μ] in
theorem calm_purge (s : Station κ μ) (walk : Walk) (endpoint : String) :
    s.engine.Calm but (s.purge walk endpoint).engine := by
  obtain ⟨stale, -, -, heq⟩ := s.exists_stale walk endpoint
  rw [heq, engine_foldl_purge]
  exact Engine.calm_foldl_drop stale s.engine

theorem calm_meet (s : Station κ μ) (id : PeerId) (endpoint : String) (now : Nat) :
    s.engine.Calm (· = id) (s.meet id endpoint now).2.engine := by
  have hmeet := s.meeting_meet id endpoint now
  generalize s.meet id endpoint now = u at hmeet ⊢
  cases hmeet with
  | unreached _ he | formless _ _ he | shut _ _ he =>
    rw [he]
    exact .refl _ s.engine
  | met _ _ _ he =>
    rw [he]
    exact .of_put ⟨rfl, rfl, rfl, rfl, rfl, rfl, rfl, rfl⟩ rfl rfl

theorem calm_require (walk : Walk) (s : Station κ μ) (id : PeerId) (endpoint : String) (now : Nat) :
    s.engine.Calm (· = id) (s.require walk id endpoint now).2.engine := by
  unfold require
  split
  · exact .refl _ s.engine
  · split
    · exact .refl _ s.engine
    · exact (s.calm_purge walk endpoint).trans (calm_meet _ id endpoint now)

/-- The endpoint of the engine itself is required for nobody. -/
theorem require_own {endpoint : String} (h : endpoint = s.engine.endpoint) (walk : Walk)
    (id : PeerId) (now : Nat) : s.require walk id endpoint now = (false, s) := by
  rw [require, if_pos]
  simp [h]

/-- A peer that was required in vain has no entry. -/
theorem get?_of_not_required (hs : s.engine.Sound) {endpoint : String}
    (hown : endpoint ≠ s.engine.endpoint) (walk : Walk) (id : PeerId) (now : Nat)
    (hvain : (s.require walk id endpoint now).1 = false) :
    (s.require walk id endpoint now).2.engine.roster.get? id = none := by
  unfold require at hvain ⊢
  split
  · rename_i hself
    have hid : id = s.engine.id := by simpa [hown] using hself
    rw [Option.eq_none_iff_forall_ne_some]
    exact fun p hp => hs.foreign_id hp hid
  · rename_i hself
    rw [if_neg hself] at hvain
    split at hvain
    · cases hvain
    · rename_i hnew
      rw [if_neg hnew]
      have habsent : (s.purge walk endpoint).engine.roster.get? id = none := by
        rw [Option.eq_none_iff_forall_ne_some]
        exact fun q hq => hnew (SortedMap.contains_eq_true.mpr ⟨q, (s.get?_purge walk endpoint hq).1⟩)
      have hmeet := (s.purge walk endpoint).meeting_meet id endpoint now
      generalize (s.purge walk endpoint).meet id endpoint now = u at hmeet hvain ⊢
      cases hmeet with
      | unreached _ he | formless _ _ he | shut _ _ he =>
        rw [he]
        exact habsent
      | met => cases hvain

theorem found_own {endpoint : String} (h : endpoint = s.engine.endpoint) (walk : Walk)
    (id : PeerId) (now : Nat) : s.found walk id endpoint now = s := by
  unfold found
  split
  · rfl
  · rw [require_own h]

theorem calm_found (walk : Walk) (s : Station κ μ) (id : PeerId) (endpoint : String) (now : Nat) :
    s.engine.Calm (· = id) (s.found walk id endpoint now).engine := by
  have hreq := calm_require walk s id endpoint now
  unfold found
  split
  · exact .refl _ s.engine
  · split <;> rename_i u hu <;> rw [hu] at hreq
    · exact hreq.trans (u.engine.calm_refresh id now)
    · exact hreq

theorem pulse_found (hs : s.engine.Sound) {endpoint : String} (hown : endpoint ≠ s.engine.endpoint)
    (walk : Walk) (now : Nat) (hq : (s.found walk id endpoint now).engine.roster.get? id = some q) :
    q.pulse = s.engine.timing.pulse now := by
  have hreq := calm_require walk s id endpoint now
  have hvain := get?_of_not_required hs hown walk id now
  unfold found at hq
  split at hq
  · rename_i hstop
    rw [(hs.halted hstop).1] at hq
    cases hq
  · split at hq <;> rename_i u hu <;> rw [hu] at hreq hvain
    · rw [← hreq.self.timing]
      exact Engine.pulse_refresh hq
    · rw [hvain rfl] at hq
      cases hq

omit [Carriage κ μ] in
theorem calm_lost (s : Station κ μ) (id : PeerId) : s.engine.Calm but (s.lost id).engine := by
  unfold lost
  split
  · exact .refl but s.engine
  · rw [engine_remove]
    exact s.engine.calm_drop id

/-! ### Messages -/

/-- What is done about a message in sequence, before the sender counts as alive by it. -/
theorem calm_act (hf : s.engine.roster.Filed) {m : Message} (hp : s.engine.readyPeer? id = some p) :
    s.engine.Calm but ((s.counted id p m).act id m.body).engine := by
  obtain ⟨hentry, hready⟩ := Engine.readyPeer?_eq_some.mp hp
  have hheeded : s.engine.Calm but (s.engine.heeded id p m.body) := Engine.calm_heeded hentry m.body
  cases hb : m.body with
  | hello h =>
    rw [act, engine_introduced hentry hready hb]
    exact Engine.calm_greeted hentry h
  | ping =>
    have hcount := engine_counted_ping hentry hb
    have hfiled : (s.counted id p m).engine.roster.Filed := by
      rw [engine_counted hentry]
      exact fun {_ _} => hf.insert (p := p.advance m) (hf hentry :)
    rw [← hb, act_ping hentry hb]
    exact (hcount ▸ hheeded).trans ((s.counted id p m).posted_post id _ fun _ => hfiled).calm
  | whisper | shout | join | leave | pingOk =>
    have hm : m.isHello = false := by
      rw [Message.isHello, hb]
      rfl
    rw [← hb, engine_act hentry hm (hb ▸ Body.noConfusion)]
    exact hheeded

theorem calm_accept (hf : s.engine.roster.Filed) (m : Message) (now : Nat) :
    s.engine.Calm (· = id) (s.accept id m now).engine := by
  cases hp : s.engine.readyPeer? id with
  | none =>
    rw [accept_unready hp]
    exact .refl _ s.engine
  | some p =>
    cases hl : p.showsLoss m with
    | true =>
      rw [engine_accept_lost hp hl]
      exact s.engine.calm_drop id
    | false =>
      rw [accept_of_ready hp hl]
      exact (calm_act hf hp).trans (Engine.calm_refresh _ id now)

/-- A sender that is still there had not greeted, or was listened to and has a fresh pulse. -/
theorem pulse_accept (hf : s.engine.roster.Filed) (m : Message) (now : Nat)
    (hq : (s.accept id m now).engine.roster.get? id = some q) :
    s.engine.readyPeer? id = none ∧ (s.accept id m now).engine = s.engine ∨
      ∃ p, s.engine.readyPeer? id = some p ∧ p.showsLoss m = false ∧
        q.pulse = s.engine.timing.pulse now := by
  cases hp : s.engine.readyPeer? id with
  | none =>
    rw [accept_unready hp]
    exact .inl ⟨rfl, rfl⟩
  | some p =>
    cases hl : p.showsLoss m with
    | true =>
      rw [engine_accept_lost hp hl, Engine.get?_drop, if_pos rfl] at hq
      cases hq
    | false =>
      have hact : s.engine.Calm (fun _ => False) ((s.counted id p m).act id m.body).engine :=
        calm_act hf hp
      rw [accept_of_ready hp hl] at hq
      refine .inr ⟨p, rfl, hl, ?_⟩
      rw [← hact.self.timing]
      exact Engine.pulse_refresh hq

/-! ### Greetings -/

omit [Carriage κ μ] in
/-- A peer that greets again is forgotten first. -/
def reset (s : Station κ μ) (id : PeerId) : Station κ μ :=
  if (s.engine.readyPeer? id).isSome then (s.note [.greetedAgain id]).remove id else s

omit [Carriage κ μ] in
theorem calm_reset (s : Station κ μ) (id : PeerId) : s.engine.Calm but (s.reset id).engine := by
  unfold reset
  split
  · rw [engine_remove]
    exact s.engine.calm_drop id
  · exact .refl but s.engine

omit [Carriage κ μ] in
theorem sound_reset (hs : s.engine.Sound) (id : PeerId) : (s.reset id).engine.Sound := by
  unfold reset
  split
  · rw [engine_remove]
    exact hs.drop id
  · exact hs

theorem welcome_of_required {walk : Walk} {endpoint : String} {now : Nat} {u : Station κ μ}
    (h : (s.reset id).require walk id endpoint now = (true, u)) :
    s.welcome walk id endpoint now = (true, u.edit (·.editPeer id ({ · with ready := true }))) := by
  rw [reset] at h
  rw [welcome, h]

theorem welcome_of_not_required {walk : Walk} {endpoint : String} {now : Nat} {u : Station κ μ}
    (h : (s.reset id).require walk id endpoint now = (false, u)) :
    s.welcome walk id endpoint now = (false, u) := by
  rw [reset] at h
  rw [welcome, h]

section
variable {routingId : List UInt8} {frames : Content} {m : Message} {h : Hello} {walk : Walk}
  {now : Nat} {u : Station κ μ}

theorem receive_of_welcome (hrun : s.engine.stopped = false) (hm : Wire.decode frames = .ok m)
    (hid : PeerId.ofRoutingId? routingId = some id) (hb : m.body = .hello h)
    (hw : s.welcome walk id h.endpoint now = (true, u)) :
    s.receive walk routingId frames now = u.accept id m now := by
  rw [receive, if_neg (Bool.eq_false_iff.mp hrun), hm, hid]
  dsimp only
  rw [hb]
  dsimp only
  rw [hw]

theorem receive_of_not_welcome (hrun : s.engine.stopped = false) (hm : Wire.decode frames = .ok m)
    (hid : PeerId.ofRoutingId? routingId = some id) (hb : m.body = .hello h)
    (hw : s.welcome walk id h.endpoint now = (false, u)) :
    s.receive walk routingId frames now = u := by
  rw [receive, if_neg (Bool.eq_false_iff.mp hrun), hm, hid]
  dsimp only
  rw [hb]
  dsimp only
  rw [hw]

end

/-- What a HELLO comes to: it is turned away, or its sender is declared ready and then listened to. -/
inductive Hails (s : Station κ μ) (id : PeerId) (m : Message) (endpoint : String) (now : Nat)
    (t : Station κ μ) : Prop
  | refused (hcalm : s.engine.Calm (· = id) t.engine)
    (hgone : endpoint ≠ s.engine.endpoint → t.engine.roster.get? id = none)
    (hown : endpoint = s.engine.endpoint → s.engine.Calm (fun _ => False) t.engine)
  | accepted {u : Station κ μ} {p} (hown : endpoint ≠ s.engine.endpoint)
    (hcalm : s.engine.Calm (· = id) u.engine) (hfiled : u.engine.roster.Filed)
    (hp : u.engine.readyPeer? id = some p) (ht : t = u.accept id m now)

theorem hails_receive (hs : s.engine.Sound) (hrun : s.engine.stopped = false)
    {routingId : List UInt8} {frames : Content} {m : Message} {h : Hello}
    (hm : Wire.decode frames = .ok m) (hid : PeerId.ofRoutingId? routingId = some id)
    (hb : m.body = .hello h) (walk : Walk) (now : Nat) :
    s.Hails id m h.endpoint now (s.receive walk routingId frames now) := by
  have hreset : s.engine.Calm (· = id) (s.reset id).engine := s.calm_reset id
  have hsound := sound_reset hs id
  have hreq := hreset.trans (calm_require walk (s.reset id) id h.endpoint now)
  rcases hr : (s.reset id).require walk id h.endpoint now with ⟨_ | _, u⟩ <;> rw [hr] at hreq
  · rw [receive_of_not_welcome hrun hm hid hb (welcome_of_not_required hr)]
    refine .refused hreq (fun hown => ?_) fun hown => ?_
    · have hvain := get?_of_not_required hsound (hreset.self.endpoint ▸ hown) walk id now
      rw [hr] at hvain
      exact hvain rfl
    · rw [require_own (hown.trans hreset.self.endpoint.symm)] at hr
      obtain rfl : s.reset id = u := (Prod.mk.inj hr).2
      exact s.calm_reset id
  · have hrun' : (s.reset id).engine.stopped = false := hreset.self.stopped.trans hrun
    obtain ⟨hchores, hgranted⟩ := @chores_require κ μ _ (fun _ _ => True) (s.reset id) hsound hrun' walk
      id h.endpoint trivial now
    rw [hr] at hchores hgranted
    obtain ⟨p, hp⟩ := hgranted rfl
    have hfiled : u.engine.roster.Filed := @(hchores.sound hsound).filed
    have hedit := Engine.editPeer_of_some hp ({ · with ready := true })
    rw [receive_of_welcome hrun hm hid hb (welcome_of_required hr)]
    refine .accepted (u := u.edit (·.editPeer id ({ · with ready := true })))
      (p := { p with ready := true }) ?_
      (hreq.trans (Engine.calm_editPeer _ id fun _ => rfl)) ?_ ?_ rfl
    · intro hown
      rw [require_own (hown.trans hreset.self.endpoint.symm)] at hr
      cases hr
    · rw [engine_edit, hedit]
      exact fun {_ _} => hfiled.insert (p := { p with ready := true }) (hfiled hp :)
    · exact Engine.readyPeer?_eq_some.mpr ⟨Engine.get?_editPeer hp _, rfl⟩

end Station

/-! ### Operations -/

namespace Engine
variable {but : PeerId → Prop} {sign : PeerId → Option Nat} {e e' e'' : Engine μ}

/-- Nobody was reported as evasive. Whoever gave a sign of life has a fresh pulse, and whoever else is
known is as silent as before. -/
structure Paces (sign : PeerId → Option Nat) (e e' : Engine μ) : Prop where
  timing : e'.timing = e.timing
  endpoint : e'.endpoint = e.endpoint
  evasions : e'.evasions = e.evasions
  entry : ∀ {id q}, e'.roster.get? id = some q →
    match sign id with
    | some now => q.pulse = e.timing.pulse now
    | none => ∃ p, e.roster.get? id = some p ∧ q.pulse = p.pulse

namespace Paces

theorem of_calm (h : e.Calm but e')
    (hsign : ∀ {id q}, e'.roster.get? id = some q → sign id = none ∧ ¬ but id ∨
      ∃ now, sign id = some now ∧ q.pulse = e.timing.pulse now) : e.Paces sign e' := by
  refine ⟨h.self.timing, h.self.endpoint, h.evasions, fun {id q} hq => ?_⟩
  rcases hsign hq with ⟨hnone, hbut⟩ | ⟨now, hnow, hpulse⟩
  · rw [hnone]
    exact (h.entry hq).resolve_left hbut
  · rw [hnow]
    exact hpulse

/-- Nobody gave a sign of life. -/
theorem of_quiet (h : e.Calm (fun _ => False) e') (hsign : ∀ id, sign id = none) :
    e.Paces sign e' :=
  of_calm h fun _ => .inl ⟨hsign _, not_false⟩

theorem of_own (ht : e'.timing = e.timing) (hep : e'.endpoint = e.endpoint)
    (hv : e'.evasions = e.evasions) (hr : e'.roster = e.roster) (hsign : ∀ id, sign id = none) :
    e.Paces sign e' := by
  refine ⟨ht, hep, hv, fun {id q} hq => ?_⟩
  rw [hsign]
  exact ⟨q, hr ▸ hq, rfl⟩

theorem then_quiet (h : e.Paces sign e') (h' : e'.Calm (fun _ => False) e'')
    (hsign : ∀ id, sign id = none) : e.Paces sign e'' := by
  refine ⟨h'.self.timing.trans h.timing, h'.self.endpoint.trans h.endpoint,
    h'.evasions.trans h.evasions, fun {id q} hq => ?_⟩
  obtain ⟨p, hp, hpulse⟩ := (h'.entry hq).resolve_left not_false
  have hentry := h.entry hp
  rw [hsign] at hentry ⊢
  obtain ⟨p₀, hp₀, hpulse₀⟩ := hentry
  exact ⟨p₀, hp₀, hpulse.trans hpulse₀⟩

end Paces

theorem sign?_of_message {op : Op} {id j : PeerId} {m : Message} (hm : op.message? id = some m)
    (hj : j ≠ id) : e.sign? j op = none := by
  obtain ⟨routingId, frames, now, rfl, -⟩ := Op.exists_of_message? hm
  rw [sign?, Op.message?_of_other hm (Ne.symm hj)]

end Engine

namespace Station
variable [Carriage κ μ] {s t : Station κ μ} {id : PeerId}

theorem paces_found (hs : s.engine.Sound) (walk : Walk) (id : PeerId) (endpoint : String)
    (now : Nat) :
    s.engine.Paces (s.engine.sign? · (.discover (.found id endpoint) now))
      (s.found walk id endpoint now).engine := by
  by_cases hown : endpoint = s.engine.endpoint
  · rw [found_own hown]
    refine .of_quiet (.refl _ s.engine) fun j => ?_
    rw [Engine.sign?, if_neg (fun h => h.2 hown)]
  · refine .of_calm (calm_found walk s id endpoint now) fun {j q} hq => ?_
    by_cases hj : j = id
    · subst hj
      refine .inr ⟨now, ?_, pulse_found hs hown walk now hq⟩
      rw [Engine.sign?, if_pos ⟨rfl, hown⟩]
    · refine .inl ⟨?_, hj⟩
      rw [Engine.sign?, if_neg (fun h => hj h.1.symm)]

omit [Carriage κ μ] in
/-- The sender alone may have given a sign of life, and did so if it was listened to. -/
theorem paces_receive_of_calm {routingId : List UInt8} {frames : Content} {now : Nat} {m : Message}
    (hm : (Op.receive routingId frames now).message? id = some m)
    (hcalm : s.engine.Calm (· = id) t.engine)
    (hsign : ∀ {q}, t.engine.roster.get? id = some q →
      s.engine.listens id m = true ∧ q.pulse = s.engine.timing.pulse now) :
    s.engine.Paces (s.engine.sign? · (.receive routingId frames now)) t.engine := by
  refine .of_calm hcalm fun {j q} hq => ?_
  by_cases hj : j = id
  · subst hj
    obtain ⟨hlistens, hpulse⟩ := hsign hq
    refine .inr ⟨now, ?_, hpulse⟩
    rw [Engine.sign?, hm]
    exact if_pos hlistens
  · exact .inl ⟨Engine.sign?_of_message hm hj, hj⟩

omit [Carriage κ μ] in
theorem paces_receive_of_unheard {routingId : List UInt8} {frames : Content} {now : Nat}
    {m : Message} (hm : (Op.receive routingId frames now).message? id = some m)
    (hcalm : s.engine.Calm (fun _ => False) t.engine) (hlistens : ¬ s.engine.listens id m = true) :
    s.engine.Paces (s.engine.sign? · (.receive routingId frames now)) t.engine := by
  refine .of_quiet hcalm fun j => ?_
  by_cases hj : j = id
  · subst hj
    rw [Engine.sign?, hm]
    exact if_neg hlistens
  · exact Engine.sign?_of_message hm hj

theorem paces_accept (hs : s.engine.Sound) {routingId : List UInt8} {frames : Content} {now : Nat}
    {m : Message} (hm : (Op.receive routingId frames now).message? id = some m)
    (hhello : m.isHello = false) :
    s.engine.Paces (s.engine.sign? · (.receive routingId frames now)) (s.accept id m now).engine := by
  have hlistens := s.engine.listens_of_not_hello id hhello
  have hf : s.engine.roster.Filed := fun {_ _} => hs.filed
  cases hp : s.engine.readyPeer? id with
  | none =>
    rw [accept_unready hp]
    refine paces_receive_of_unheard (t := s) hm (.refl _ s.engine) ?_
    rw [hlistens, hp]
    rintro ⟨_, h, -⟩
    cases h
  | some p =>
    refine paces_receive_of_calm hm (calm_accept hf m now) fun {q} hq => ?_
    obtain ⟨hnone, -⟩ | ⟨p', hp', hl, hpulse⟩ := pulse_accept hf m now hq
    · rw [hp] at hnone
      cases hnone
    · exact ⟨hlistens.mpr ⟨p', hp', (Peer.showsLoss_eq_false hhello).mp hl⟩, hpulse⟩

theorem paces_hello (hs : s.engine.Sound) (hrun : s.engine.stopped = false)
    {routingId : List UInt8} {frames : Content} {m : Message} {h : Hello}
    (hm : Wire.decode frames = .ok m) (hid : PeerId.ofRoutingId? routingId = some id)
    (hb : m.body = .hello h) (walk : Walk) (now : Nat) :
    s.engine.Paces (s.engine.sign? · (.receive routingId frames now))
      (s.receive walk routingId frames now).engine := by
  have hmessage : (Op.receive routingId frames now).message? id = some m := by
    rw [Op.message?_receive hid hm, if_pos rfl]
  have hlistens := s.engine.listens_hello id hb
  cases hails_receive hs hrun hm hid hb walk now with
  | refused hcalm hgone hown =>
    by_cases hep : h.endpoint = s.engine.endpoint
    · exact paces_receive_of_unheard hmessage (hown hep) fun hl => (hlistens.mp hl).1 hep
    · refine paces_receive_of_calm hmessage hcalm fun hq => ?_
      rw [hgone hep] at hq
      cases hq
  | @accepted u p hep hcalm hfiled hp ht =>
    rw [ht]
    refine paces_receive_of_calm hmessage (hcalm.trans (calm_accept hfiled m now)) fun {q} hq => ?_
    obtain ⟨hnone, -⟩ | ⟨p', -, hl, hpulse⟩ := pulse_accept hfiled m now hq
    · rw [hp] at hnone
      cases hnone
    · have hwant : p'.nextWant m = 1 := by
        rw [Peer.nextWant, Message.isHello, hb]
        rfl
      rw [hcalm.self.timing] at hpulse
      exact ⟨hlistens.mpr ⟨hep, by simpa [Peer.showsLoss, hwant] using hl⟩, hpulse⟩

theorem paces_receive (hs : s.engine.Sound) (walk : Walk) (routingId : List UInt8)
    (frames : Content) (now : Nat) :
    s.engine.Paces (s.engine.sign? · (.receive routingId frames now))
      (s.receive walk routingId frames now).engine := by
  cases hrun : s.engine.stopped with
  | true =>
    rw [receive_of_stopped hrun]
    refine .of_calm (.refl (fun _ => False) s.engine) fun hq => ?_
    rw [(hs.halted hrun).1] at hq
    cases hq
  | false =>
    -- What cannot be read, or comes from nobody, is no message.
    have hmute : (∀ id, (Op.receive routingId frames now).message? id = none) →
        ∀ id, s.engine.sign? id (.receive routingId frames now) = none := by
      intro hnone id
      rw [Engine.sign?, hnone]
    cases hm : Wire.decode frames with
    | error e =>
      rw [receive, if_neg (Bool.eq_false_iff.mp hrun), hm]
      refine .of_quiet (.refl _ s.engine) (hmute fun id => ?_)
      rw [Op.message?, hm]
      split <;> rfl
    | ok m =>
      cases hid : PeerId.ofRoutingId? routingId with
      | none =>
        rw [receive, if_neg (Bool.eq_false_iff.mp hrun), hm, hid]
        refine .of_quiet (.refl _ s.engine) (hmute fun id => ?_)
        rw [Op.message?, hid, if_neg (Option.some_ne_none id).symm]
      | some id =>
        cases hb : m.body with
        | hello h => exact paces_hello hs hrun hm hid hb walk now
        | _ =>
          have hhello : m.isHello = false := by
            rw [Message.isHello, hb]
            rfl
          rw [receive_of_not_hello hrun hm hid hhello]
          refine paces_accept hs ?_ hhello
          rw [Op.message?_receive hid hm, if_pos rfl]

theorem paces_join (hs : s.engine.Sound) (walk : Walk) (group : String)
    {sign : PeerId → Option Nat} (hsign : ∀ id, sign id = none) :
    s.engine.Paces sign (s.join walk group).2.engine := by
  unfold join
  split
  · exact .of_own rfl rfl rfl rfl hsign
  · split
    · exact .of_own rfl rfl rfl rfl hsign
    · rename_i hok
      let u := (s.edit (·.enlist group)).note [.joining s.engine.name group (s.engine.status + 1)]
      have hown : s.engine.Paces sign u.engine := .of_own rfl rfl rfl rfl hsign
      have hu : u.engine.Sound := hs.enlist hok
      exact hown.then_quiet ((announced_broadcast hu walk _).calm hu) hsign

theorem paces_leave (hs : s.engine.Sound) (walk : Walk) (group : String)
    {sign : PeerId → Option Nat} (hsign : ∀ id, sign id = none) :
    s.engine.Paces sign (s.leave walk group).engine := by
  unfold leave
  split
  · let u := (s.edit (·.delist group)).note [.leaving s.engine.name group (s.engine.status + 1)]
    have hown : s.engine.Paces sign u.engine := .of_own rfl rfl rfl rfl hsign
    have hu : u.engine.Sound := hs.delist group
    exact hown.then_quiet ((announced_broadcast hu walk _).calm hu) hsign
  · exact .of_own rfl rfl rfl rfl hsign

omit [Carriage κ μ] in
theorem paces_shutdown (s : Station κ μ) (walk : Walk) {sign : PeerId → Option Nat}
    (hsign : ∀ id, sign id = none) : s.engine.Paces sign (s.shutdown walk).engine := by
  unfold shutdown
  split
  · exact .of_own rfl rfl rfl rfl hsign
  · refine ⟨rfl, rfl, Engine.evasions_of_loud rfl ?_, fun hq => ?_⟩
    · simp [Event.isEvasive]
    · cases hq

/-- All operations that neither watch over the silent peers nor hand over the events. -/
theorem paces_step (hs : s.engine.Sound) (walk : Walk) {op : Op} (hreap : ∀ now, op ≠ .reap now)
    (hdrain : op ≠ .drain) :
    s.engine.Paces (s.engine.sign? · op) (s.step walk op).engine := by
  cases op with
  | setHeader key value =>
    rw [step, perform, setHeader]
    split <;> exact .of_own rfl rfl rfl rfl fun _ => rfl
  | join group => exact paces_join hs walk group fun _ => rfl
  | leave group => exact paces_leave hs walk group fun _ => rfl
  | whisper id content => exact .of_quiet (calm_whisper hs id content) fun _ => rfl
  | shout group content => exact .of_quiet (calm_shout hs group content) fun _ => rfl
  | shutdown => exact paces_shutdown s walk fun _ => rfl
  | discover sighting now =>
    cases sighting with
    | found id endpoint => exact paces_found hs walk id endpoint now
    | lost id => exact .of_quiet (s.calm_lost id) fun _ => rfl
  | receive routingId frames now => exact paces_receive hs walk routingId frames now
  | reap now => exact absurd rfl (hreap now)
  | drain => exact absurd rfl hdrain

end Station
end PeerMesh
