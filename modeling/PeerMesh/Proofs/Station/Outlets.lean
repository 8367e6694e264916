import PeerMesh.Proofs.Station.Mailing

/-!
# Where entries send to

The mailbox of an entry and the endpoint that it leads to are settled when the peer is met; nothing
that is done to a peer afterwards changes them. So what is true of every mailbox when it is opened
remains true of the mailboxes of all peers.
-/

namespace PeerMesh
set_option autoImplicit false

/-- The mailbox of a peer, and the endpoint that it was opened to. -/
def Peer.outlet {μ : Type} (p : Peer μ) : Option μ × String := (p.mailbox, p.lastEndpoint)

theorem Peer.endpoint_of_outlet {μ : Type} {p q : Peer μ} (h : q.outlet = p.outlet) :
    q.endpoint = p.endpoint := by
  obtain ⟨hmailbox, hlast⟩ := Prod.mk.inj h
  rw [endpoint, isConnected, hmailbox, hlast]
  rfl

namespace Engine
variable {μ : Type} {fresh fresh' : PeerId → μ → String → Prop} {e e' e'' : Engine μ} {id : PeerId}
  {p q : Peer μ}

/-- Every entry of `e'` has the outlet that it had in `e`, or a fresh one. -/
structure Retains (fresh : PeerId → μ → String → Prop) (e e' : Engine μ) : Prop where
  entry : ∀ {id q}, e'.roster.get? id = some q →
    (∃ p, e.roster.get? id = some p ∧ q.outlet = p.outlet) ∨
      ∃ box, q.mailbox = some box ∧ fresh id box q.lastEndpoint

namespace Retains

theorem of_roster (h : e'.roster = e.roster) : e.Retains fresh e' :=
  ⟨fun hq => .inl ⟨_, h ▸ hq, rfl⟩⟩

theorem refl (fresh : PeerId → μ → String → Prop) (e : Engine μ) : e.Retains fresh e := of_roster rfl

theorem trans (h : e.Retains fresh e') (h' : e'.Retains fresh e'') : e.Retains fresh e'' := by
  refine ⟨fun {id q} hq => ?_⟩
  rcases h'.entry hq with ⟨p, hp, hsame⟩ | hfresh
  · rcases h.entry hp with ⟨p', hp', hsame'⟩ | ⟨box, hbox, hfresh⟩
    · exact .inl ⟨p', hp', hsame.trans hsame'⟩
    · obtain ⟨hmailbox, hlast⟩ := Prod.mk.inj hsame
      exact .inr ⟨box, hmailbox.trans hbox, hlast ▸ hfresh⟩
  · exact .inr hfresh

theorem mono (h : e.Retains fresh e')
    (himp : ∀ {id box endpoint}, fresh id box endpoint → fresh' id box endpoint) :
    e.Retains fresh' e' := by
  refine ⟨fun {id q} hq => ?_⟩
  rcases h.entry hq with hold | ⟨box, hbox, hfresh⟩
  · exact .inl hold
  · exact .inr ⟨box, hbox, himp hfresh⟩

theorem insert (hp : e.roster.get? id = some p) (hsame : q.outlet = p.outlet)
    (hr : e'.roster = e.roster.insert id q) : e.Retains fresh e' := by
  refine ⟨fun {j q'} hq' => ?_⟩
  rw [hr, SortedMap.get?_insert] at hq'
  split at hq'
  · rename_i hj
    obtain rfl := Option.some.inj hq'
    exact .inl ⟨p, hj ▸ hp, hsame⟩
  · exact .inl ⟨q', hq', rfl⟩

theorem drop (e : Engine μ) (id : PeerId) : e.Retains fresh (e.drop id) := by
  refine ⟨fun {j q} hq => ?_⟩
  rw [get?_drop] at hq
  split at hq
  · cases hq
  · exact .inl ⟨q, hq, rfl⟩

theorem putPeer {box : μ} (hbox : p.mailbox = some box) (hfresh : fresh p.id box p.lastEndpoint) :
    e.Retains fresh (e.putPeer p) := by
  refine ⟨fun {j q} hq => ?_⟩
  rw [Engine.putPeer, SortedMap.get?_insert] at hq
  split at hq
  · rename_i hj
    obtain rfl := Option.some.inj hq
    exact .inr ⟨box, hbox, hj ▸ hfresh⟩
  · exact .inl ⟨q, hq, rfl⟩

end Retains
end Engine

namespace Station
variable {κ μ : Type} {fresh : PeerId → μ → String → Prop} {s t : Station κ μ}

theorem Silent.retains (h : s.Silent t) : s.engine.Retains fresh t.engine := by
  refine ⟨fun {id q} hq => ?_⟩
  obtain ⟨p, hp, -, hbox, hlast⟩ := h.entry hq
  exact .inl ⟨p, hp, Prod.ext hbox hlast⟩

section
variable [Carriage κ μ] {near : PeerId → String → Prop} {id : PeerId}

theorem Posted.retains {body : Body} (h : s.Posted id body t) : s.engine.Retains fresh t.engine := by
  cases h with
  | unmoved _ he | rejected _ _ _ _ he => exact .of_roster (congrArg Engine.roster he)
  | taken hp _ _ _ he =>
    refine .insert hp ?_ (congrArg Engine.roster he)
    rfl
  | lost _ _ _ _ he => exact he ▸ .drop s.engine id

theorem retains_posts (hs : s.engine.Sound) (body : Body) (ids : List PeerId) :
    s.engine.Retains fresh (s.posts body ids).engine := by
  induction ids generalizing s with
  | nil => exact .refl fresh s.engine
  | cons id ids ih =>
    have hpost := s.posted_post id body fun _ => hs.filed
    exact hpost.retains.trans (ih (hpost.shifts.sound hs))

theorem Announced.retains {body : Body} {ids : List PeerId} (h : s.Announced body ids t)
    (hs : s.engine.Sound) : s.engine.Retains fresh t.engine := by
  rw [h.engine]
  exact retains_posts hs body ids

theorem Meeting.retains {endpoint : String} {now : Nat} {granted : Bool}
    (h : s.Meeting id endpoint now (granted, t))
    (hfresh : ∀ {box c}, Carriage.connect s.carriage s.engine.id.routingId endpoint = (.ok box, c) →
      granted = true → fresh id box endpoint) : s.engine.Retains fresh t.engine := by
  cases h with
  | unreached _ he | formless _ _ he | shut _ _ he => exact .of_roster (congrArg Engine.roster he)
  | met hc _ _ he => exact he ▸ .putPeer rfl (hfresh hc rfl)

/-- What a mailbox to a peer nearby is like when it is opened. -/
def Opening (near : PeerId → String → Prop) (fresh : PeerId → μ → String → Prop) : Prop :=
  ∀ {id endpoint} {c c' : κ} {routingId : List UInt8} {box : μ}, near id endpoint →
    Carriage.connect c routingId endpoint = (.ok box, c') → fresh id box endpoint

theorem Chores.retains (h : s.Chores near t) (hs : s.engine.Sound)
    (hnew : Opening (κ := κ) near fresh) : s.engine.Retains fresh t.engine := by
  induction h with
  | refl => exact .refl fresh s.engine
  | @tail u t h' h ih =>
    refine ih.trans ?_
    cases h with
    | jot he => exact .of_roster (congrArg Engine.roster he)
    | post id body => exact (u.posted_post id body fun _ => (Chores.sound h' hs).filed).retains
    | evade id => exact (u.silent_evade id).retains
    | remove id => exact (u.silent_remove id).retains
    | meet now _ _ _ _ _ hnear => exact (u.meeting_meet _ _ now).retains fun hc _ => hnew hnear hc
    | refresh id now => exact (u.silent_refresh id now).retains

theorem Received.retains {m : Message} (h : s.Received near id m t) (hs : s.engine.Sound)
    (hnew : Opening (κ := κ) near fresh) : s.engine.Retains fresh t.engine := by
  cases h with
  | unheard _ _ he => exact .of_roster (congrArg Engine.roster he)
  | refused _ h => exact h.retains hs hnew
  | lost h _ he => exact he ▸ h.retains hs hnew
  | greeted _ hu hp _ he hc _ hv =>
    exact ((hu.retains hs hnew).trans (Silent.of_greeted hp he hc).retains).trans
      (hv.retains (he ▸ (hu.sound hs).greeted hp _) hnew)
  | heeded _ hp _ he hc _ hv =>
    obtain ⟨hentry, hready⟩ := Engine.readyPeer?_eq_some.mp hp
    exact (Silent.of_heeded hentry he hc).retains.trans
      (hv.retains (he ▸ hs.heeded hentry hready _) hnew)

theorem Performed.retains {op : Op} (h : s.Performed near op t) (hs : s.engine.Sound)
    (hnew : Opening (κ := κ) near fresh) : s.engine.Retains fresh t.engine := by
  cases h with
  | worked h => exact h.retains hs hnew
  | dressed _ he | drained he => exact .of_roster (congrArg Engine.roster he :)
  | @joined group _ u _ _ hok he _ _ h =>
    have hown : s.engine.Retains fresh u.engine := .of_roster (congrArg Engine.roster he :)
    exact hown.trans (h.retains (he ▸ hs.enlist hok))
  | @left group _ u _ _ he _ _ h =>
    have hown : s.engine.Retains fresh u.engine := .of_roster (congrArg Engine.roster he :)
    exact hown.trans (h.retains (he ▸ hs.delist group))
  | halted _ he =>
    refine ⟨fun {id q} hq => ?_⟩
    rw [he] at hq
    cases hq
  | received _ _ _ h => exact h.retains hs hnew

end
end Station
end PeerMesh
