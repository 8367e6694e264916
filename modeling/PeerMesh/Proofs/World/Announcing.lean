import PeerMesh.Proofs.World.Speaking

/-!
# What the others notice of an operation

A JOIN or LEAVE goes to all peers. Each of them gets it exactly once, on the channel to it, or is
lost. All else that an operation says is chores.
-/

namespace PeerMesh
set_option autoImplicit false

namespace Station
variable {near : PeerId → String → Prop} {who whom : Party}
  {s t u : Station Recorded Network.Mailbox} {body : Body} {ids : List PeerId}

/-! ### Posting to many -/

theorem settled_post (hs : s.engine.Settled near who) (id : PeerId) (body : Body) :
    (s.post id body).engine.Settled near who := by
  have hsound := (s.posted_post id body fun _ => hs.sound.filed).shifts.sound hs.sound
  exact (uttered_post hs id body).settled hs hsound

theorem settled_posts (hs : s.engine.Settled near who) (body : Body) (ids : List PeerId) :
    (s.posts body ids).engine.Settled near who := by
  induction ids generalizing s with
  | nil => exact hs
  | cons id ids ih => exact ih (settled_post hs id body)

theorem spreads_posts (hs : s.engine.Settled near who) (hb : body.command ≠ .hello)
    (ids : List PeerId) : s.carriage.Spreads who (s.posts body ids).carriage := by
  induction ids generalizing s with
  | nil => exact .refl who _
  | cons id ids ih => exact ((uttered_post hs id body).spreads hs hb).trans (ih (settled_post hs id body))

theorem talk_posts_other (hs : s.engine.Settled near who) (hwhom : whom.Apart near)
    (hid : whom.id ∉ ids) (heard : Option Heard) (told : List Event) :
    (s.posts body ids).talk who whom heard told = s.talk who whom heard told := by
  induction ids generalizing s with
  | nil => rfl
  | cons id ids ih =>
    obtain ⟨hne, hids⟩ := not_or.mp (mt List.mem_cons.mpr hid)
    have hpost := (uttered_post hs id body).talk_other hs hwhom hne heard told
    exact (ih (settled_post hs id body) hids).trans hpost

/-- A peer among many gets the message next, unless it is lost. -/
theorem talk_posts_self (hs : s.engine.Settled near who) (hwhom : whom.Apart near)
    (hn : ids.Nodup) (hid : whom.id ∈ ids) {p : Peer Network.Mailbox}
    (hp : s.engine.roster.get? whom.id = some p)
    (hf : ∃ frames, Wire.encode ⟨p.sent + 1, body⟩ = .ok frames) (heard : Option Heard)
    (told : List Event) :
    (s.posts body ids).talk who whom heard told = { s.talk who whom heard told with
        voice := { (s.talk who whom heard told).voice with sent := none } } ∨
      (s.posts body ids).talk who whom heard told = (s.talk who whom heard told).push
        { (s.talk who whom heard told).voice with sent := some (p.sent + 1) }
        ⟨p.sent + 1, body⟩ := by
  induction ids generalizing s with
  | nil => cases hid
  | cons id ids ih =>
    obtain ⟨hfresh, hn⟩ := List.nodup_cons.mp hn
    have hutter := uttered_post hs id body
    have hpost := settled_post hs id body
    by_cases hself : whom.id = id
    · rw [← hself] at hfresh hutter hpost ⊢
      have hrest : ((s.post whom.id body).posts body ids).talk who whom heard told =
          (s.post whom.id body).talk who whom heard told :=
        talk_posts_other hpost hwhom hfresh heard told
      change ((s.post whom.id body).posts body ids).talk who whom heard told = _ ∨
        ((s.post whom.id body).posts body ids).talk who whom heard told = _
      rw [hrest]
      rcases hutter.talk_self hs hwhom hp heard told with ⟨-, e, he⟩ | hlost | hsaid
      · obtain ⟨frames, hf⟩ := hf
        rw [hf] at he
        cases he
      · exact .inl hlost
      · exact .inr hsaid
    · have hmem : whom.id ∈ ids := (List.mem_cons.mp hid).resolve_left hself
      have hrest := ih hpost hn hmem ((hutter.get?_other hself).trans hp)
      rw [hutter.talk_other hs hwhom hself] at hrest
      exact hrest

/-! ### Announcing -/

/-- Every peer that there is gets an announcement next, unless it is lost. -/
theorem Announced.talk (h : u.Announced body ids t) (hu : u.engine.Settled near who)
    (hf : ∀ n, ∃ frames, Wire.encode ⟨n, body⟩ = .ok frames) (hwhom : whom.Apart near)
    (heard : Option Heard) (told : List Event) :
    t.talk who whom heard told = { u.talk who whom heard told with
        voice := { (u.talk who whom heard told).voice with sent := none } } ∨
      ∃ k, (u.talk who whom heard told).voice.sent = some k ∧
        t.talk who whom heard told = (u.talk who whom heard told).push
          { (u.talk who whom heard told).voice with sent := some (k + 1) } ⟨k + 1, body⟩ := by
  have hmem : whom.id ∈ ids ↔ ∃ p, u.engine.roster.get? whom.id = some p :=
    h.everybody.mem_iff.trans SortedMap.mem_keys
  have htalk : t.talk who whom heard told = (u.posts body ids).talk who whom heard told := by
    rw [Station.talk, Station.talk, h.engine, h.carriage]
  rw [htalk]
  cases hp : u.engine.roster.get? whom.id with
  | none =>
    left
    have habsent : whom.id ∉ ids := by
      intro hid
      obtain ⟨p, hp'⟩ := hmem.mp hid
      rw [hp] at hp'
      cases hp'
    rw [talk_posts_other hu hwhom habsent, Station.talk, Engine.voice, hp]
    rfl
  | some p =>
    have hn : ids.Nodup := h.everybody.nodup_iff.mpr (SortedMap.nodup_keys _)
    have hsent : (u.talk who whom heard told).voice.sent = some p.sent := by
      change (u.engine.roster.get? whom.id).map (·.sent) = some p.sent
      rw [hp]
      rfl
    rcases talk_posts_self hu hwhom hn (hmem.mpr ⟨p, hp⟩) hp (hf _) heard told with hlost | hsaid
    · exact .inl hlost
    · exact .inr ⟨p.sent, hsent, hsaid⟩

theorem Announced.settled (h : u.Announced body ids t) (hu : u.engine.Settled near who) :
    t.engine.Settled near who := by
  rw [h.engine]
  exact settled_posts hu body ids

theorem Announced.spreads (h : u.Announced body ids t) (hu : u.engine.Settled near who)
    (hb : body.command ≠ .hello) : u.carriage.Spreads who t.carriage := by
  rw [h.carriage]
  exact spreads_posts hu hb ids

theorem steps_silenced (l : Talk) (groups : SortedSet String) (status : UInt8) :
    l.Steps who { l with voice := ⟨groups, status, none⟩ } := by
  have hclose : l.Step who { l with voice := { l.voice with sent := none } } := .close
  exact .tail (.single hclose) (.change rfl rfl)

/-- An engine that changed what it says of itself and told everybody. -/
theorem Announced.speaks (h : u.Announced body ids t) (hu : u.engine.Settled near who)
    (hc : u.carriage = s.carriage) (hr : u.engine.roster = s.engine.roster)
    (hb : body.command ≠ .hello) (hf : ∀ n, ∃ frames, Wire.encode ⟨n, body⟩ = .ok frames)
    (hstep : ∀ {l : Talk} {k}, l.voice = ⟨s.engine.joined, s.engine.status, some k⟩ →
      l.Step who (l.push ⟨u.engine.joined, u.engine.status, some (k + 1)⟩ ⟨k + 1, body⟩)) :
    s.Speaks near who t := by
  refine ⟨h.settled hu, hc ▸ h.spreads hu hb, fun {whom} hwhom heard told => ?_⟩
  have htalk : u.talk who whom heard told = { s.talk who whom heard told with
      voice := ⟨u.engine.joined, u.engine.status, (s.talk who whom heard told).voice.sent⟩ } := by
    rw [Station.talk, Engine.voice, hc, hr]
    rfl
  rcases h.talk hu hf hwhom heard told with hlost | ⟨k, hk, hsaid⟩
  · rw [hlost, htalk]
    exact steps_silenced _ _ _
  · rw [htalk] at hk hsaid
    rw [hsaid]
    refine .single (hstep (l := s.talk who whom heard told) ?_)
    rw [← hk]
    rfl

theorem speaks_joined (hs : s.engine.Settled near who) {group : String}
    (hok : checkGroup s.engine.joined.size group = .ok ())
    (he : u.engine = s.engine.enlist group) (hc : u.carriage = s.carriage)
    (h : u.Announced (.join group (s.engine.status + 1)) ids t) : s.Speaks near who t := by
  have hu : u.engine.Settled near who := by
    rw [he]
    exact ⟨hs.id, hs.name, hs.endpoint, hs.sound.enlist hok, hs.placed⟩
  have hsize := (Engine.checkGroup_eq_ok.mp hok).1
  refine h.speaks hu hc (he ▸ rfl) (fun h => by cases h) (fun n => Wire.encode_join hsize n _) ?_
  intro l k hvoice
  have hsent : l.voice.sent = some k := congrArg Voice.sent hvoice
  have hjoin : l.Step who _ := .join group hsent
  rw [hvoice] at hjoin
  rw [he]
  exact hjoin

theorem speaks_left (hs : s.engine.Settled near who) {group : String}
    (hold : s.engine.joined.contains group = true)
    (he : u.engine = s.engine.delist group) (hc : u.carriage = s.carriage)
    (h : u.Announced (.leave group (s.engine.status + 1)) ids t) : s.Speaks near who t := by
  have hu : u.engine.Settled near who := by
    rw [he]
    exact ⟨hs.id, hs.name, hs.endpoint, hs.sound.delist group, hs.placed⟩
  have hsize := hs.sound.presentable.joined_bytes hold
  refine h.speaks hu hc (he ▸ rfl) (fun h => by cases h) (fun n => Wire.encode_leave hsize n _) ?_
  intro l k hvoice
  have hsent : l.voice.sent = some k := congrArg Voice.sent hvoice
  have hleave : l.Step who _ := .leave group hsent
  rw [hvoice] at hleave
  rw [he]
  exact hleave

/-! ### Operations -/

theorem Received.speaks {id : PeerId} {m : Message} (h : s.Received near id m t)
    (hs : s.engine.Settled near who) : s.Speaks near who t := by
  have ht : t.engine.Sound := h.sound hs.sound
  cases h with
  | unheard _ _ he hc => exact (Silent.of_same he hc).speaks hs ht
  | refused _ h => exact h.speaks hs
  | lost h _ he hc =>
    have hu := h.speaks hs
    exact hu.trans ((Silent.of_same he hc).speaks hu.settled ht)
  | @greeted u v p h _ hu hp _ he hc _ hv =>
    have hu := hu.speaks hs
    have hgreet := (Silent.of_greeted hp he hc).speaks hu.settled
      (he ▸ hu.settled.sound.greeted hp h)
    exact (hu.trans hgreet).trans (hv.speaks hgreet.settled)
  | @heeded v p _ hp _ he hc _ hv =>
    obtain ⟨hentry, hready⟩ := Engine.readyPeer?_eq_some.mp hp
    have hheed := (Silent.of_heeded hentry he hc).speaks hs
      (he ▸ hs.sound.heeded hentry hready m.body)
    exact hheed.trans (hv.speaks hheed.settled)

theorem Performed.speaks {op : Op} (h : s.Performed near op t) (hs : s.engine.Settled near who) :
    s.Speaks near who t := by
  have ht : t.engine.Sound := h.sound hs.sound
  cases h with
  | worked h => exact h.speaks hs
  | dressed _ he hc | drained he hc =>
    have hsilent : s.Silent t := by
      refine ⟨he ▸ rfl, he ▸ rfl, he ▸ rfl, he ▸ rfl, he ▸ rfl, hc, fun {id p} hp => ?_⟩
      rw [he] at hp
      exact ⟨p, hp, rfl, rfl, rfl⟩
    exact hsilent.speaks hs ht
  | joined _ hok he hc _ h => exact speaks_joined hs hok he hc h
  | left hold he hc _ h => exact speaks_left hs hold he hc h
  | halted _ he hc =>
    have hsilent : s.Silent t := by
      refine ⟨he ▸ rfl, he ▸ rfl, he ▸ rfl, he ▸ rfl, he ▸ rfl, hc, fun {id p} hp => ?_⟩
      rw [he] at hp
      cases hp
    exact hsilent.speaks hs ht
  | received _ _ _ h => exact h.speaks hs

end Station
end PeerMesh
