import PeerMesh.Proofs.Station.Soundness

/-!
# What goes into the mailboxes

Seen from its mailboxes alone, a station takes steps of three kinds: it touches none of them, it
posts one message to a peer, or it meets a peer. Every operation is a row of such steps, and only
who is met is sent a HELLO.
-/

namespace PeerMesh
set_option autoImplicit false

namespace Station
variable {κ μ : Type} {s t u : Station κ μ}

/-! ### Saying nothing -/

/-- Nothing is sent between `s` and `t`, and nobody is met. -/
structure Silent (s t : Station κ μ) : Prop where
  id : t.engine.id = s.engine.id
  name : t.engine.name = s.engine.name
  endpoint : t.engine.endpoint = s.engine.endpoint
  joined : t.engine.joined = s.engine.joined
  status : t.engine.status = s.engine.status
  carriage : t.carriage = s.carriage
  entry : ∀ {id p'}, t.engine.roster.get? id = some p' → ∃ p, s.engine.roster.get? id = some p ∧
    p'.sent = p.sent ∧ p'.mailbox = p.mailbox ∧ p'.lastEndpoint = p.lastEndpoint

namespace Silent

theorem of_same (he : t.engine = s.engine) (hc : t.carriage = s.carriage) : s.Silent t := by
  refine ⟨he ▸ rfl, he ▸ rfl, he ▸ rfl, he ▸ rfl, he ▸ rfl, hc, fun {id p'} hp => ?_⟩
  rw [he] at hp
  exact ⟨p', hp, rfl, rfl, rfl⟩

theorem of_drop {id : PeerId} (he : t.engine = s.engine.drop id) (hc : t.carriage = s.carriage) :
    s.Silent t := by
  refine ⟨?_, ?_, ?_, ?_, ?_, hc, fun {j p'} hp => ?_⟩
  any_goals
    rw [he]
    simp only [Engine.drop_rest]
  rw [he, Engine.get?_drop] at hp
  split at hp
  · cases hp
  · exact ⟨p', hp, rfl, rfl, rfl⟩

/-- One entry is replaced by another that was used as much. -/
theorem of_insert {id : PeerId} {p p' : Peer μ}
    (hp : s.engine.roster.get? id = some p) (hself : s.engine.SameSelf t.engine)
    (hr : t.engine.roster = s.engine.roster.insert id p') (hc : t.carriage = s.carriage)
    (hsent : p'.sent = p.sent) (hbox : p'.mailbox = p.mailbox)
    (hlast : p'.lastEndpoint = p.lastEndpoint) : s.Silent t := by
  refine ⟨hself.id, hself.name, hself.endpoint, hself.joined, hself.status, hc, fun {j q} hq => ?_⟩
  rw [hr, SortedMap.get?_insert] at hq
  split at hq
  · rename_i hj
    obtain rfl := Option.some.inj hq
    exact ⟨p, hj ▸ hp, hsent, hbox, hlast⟩
  · exact ⟨q, hq, rfl, rfl, rfl⟩

theorem of_greeted {id : PeerId} {p : Peer μ} {h : Hello} (hp : s.engine.roster.get? id = some p)
    (he : t.engine = s.engine.greeted id p h) (hc : t.carriage = s.carriage) : s.Silent t :=
  of_insert hp (he ▸ s.engine.sameSelf_greeted id p h)
    ((congrArg Engine.roster he).trans (Engine.roster_greeted _ _ _ _)) hc rfl rfl rfl

theorem of_heeded {id : PeerId} {p : Peer μ} {body : Body} (hp : s.engine.roster.get? id = some p)
    (he : t.engine = s.engine.heeded id p body) (hc : t.carriage = s.carriage) : s.Silent t :=
  of_insert hp (he ▸ s.engine.sameSelf_heeded id p body)
    ((congrArg Engine.roster he).trans (Engine.roster_heeded _ _ _ _)) hc rfl rfl rfl

end Silent

theorem silent_remove (s : Station κ μ) (id : PeerId) : s.Silent (s.remove id) :=
  .of_drop (s.engine_remove id) (s.carriage_remove id)

theorem silent_evade (s : Station κ μ) (id : PeerId) : s.Silent (s.evade id) := by
  cases hp : s.engine.roster.get? id with
  | none => exact .of_same (congrArg Station.engine (evade_of_none hp)) (s.carriage_evade id)
  | some p =>
    exact .of_insert hp (s.shifts_evade id).self (congrArg Engine.roster (engine_evade hp))
      (s.carriage_evade id) rfl rfl rfl

theorem silent_refresh (s : Station κ μ) (id : PeerId) (now : Nat) :
    s.Silent (s.edit (·.refresh id now)) := by
  cases hp : s.engine.roster.get? id with
  | none => exact .of_same (Engine.editPeer_of_none hp _) rfl
  | some p =>
    have hroster := congrArg Engine.roster (Engine.editPeer_of_some hp
      (·.refresh now s.engine.timing.evasive s.engine.timing.expired))
    exact .of_insert hp (s.engine.shifts_refresh id now).self hroster rfl rfl rfl rfl

/-! ### Steps -/

section
variable [Carriage κ μ] {near : PeerId → String → Prop} {body : Body} {ids : List PeerId}

/-- One step, as far as it concerns the mailboxes. -/
inductive Mails (s : Station κ μ) : Station κ μ → Prop
  | idle {t : Station κ μ} (hid : t.engine.id = s.engine.id) (hc : t.carriage = s.carriage)
      (hentry : ∀ {id q}, t.engine.roster.get? id = some q →
        ∃ p, s.engine.roster.get? id = some p ∧ q.sent = p.sent ∧ q.mailbox = p.mailbox) : Mails s t
  | post {t : Station κ μ} {id : PeerId} {body : Body} (hb : body.command ≠ .hello) (h : s.Posted id body t) : Mails s t
  | meet {t : Station κ μ} {id endpoint now result}
      (h : s.Meeting id endpoint now (result, t)) : Mails s t

def Mailed : Station κ μ → Station κ μ → Prop := Relation.ReflTransGen Mails

theorem Silent.mailed (h : s.Silent t) : s.Mailed t := by
  refine .single (.idle h.id h.carriage fun hq => ?_)
  obtain ⟨p, hp, hsent, hbox, -⟩ := h.entry hq
  exact ⟨p, hp, hsent, hbox⟩

theorem Mailed.trans (h : s.Mailed t) (h' : t.Mailed u) : s.Mailed u :=
  Relation.ReflTransGen.trans h h'

/-- The engine changed what it says of itself and nothing else. -/
theorem mailed_of_own (hid : t.engine.id = s.engine.id) (hr : t.engine.roster = s.engine.roster)
    (hc : t.carriage = s.carriage) : s.Mailed t :=
  .single (.idle hid hc fun hq => ⟨_, hr ▸ hq, rfl, rfl⟩)

theorem mailed_post (hs : s.engine.Sound) (id : PeerId) (hb : body.command ≠ .hello) :
    s.Mailed (s.post id body) :=
  .single (.post hb (s.posted_post id body fun _ => hs.filed))

theorem mailed_posts (hs : s.engine.Sound) (hb : body.command ≠ .hello) (ids : List PeerId) :
    s.Mailed (s.posts body ids) := by
  induction ids generalizing s with
  | nil => exact .refl
  | cons id ids ih =>
    have hpost := (s.posted_post id body fun _ => hs.filed).shifts
    exact (mailed_post hs id hb).trans (ih (hpost.sound hs))

theorem Chore.mailed (h : s.Chore near t) (hs : s.engine.Sound) : s.Mailed t := by
  cases h with
  | jot he hc => exact (Silent.of_same he hc).mailed
  | post id body hb =>
    refine mailed_post hs id fun hhello => ?_
    cases body <;> cases hb <;> cases hhello
  | evade id => exact (s.silent_evade id).mailed
  | remove id => exact (s.silent_remove id).mailed
  | meet now => exact .single (.meet (s.meeting_meet _ _ now))
  | refresh id now => exact (s.silent_refresh id now).mailed

theorem Chores.mailed (h : s.Chores near t) (hs : s.engine.Sound) : s.Mailed t := by
  induction h with
  | refl => exact .refl
  | tail h' h ih => exact ih.trans (h.mailed (Chores.sound h' hs))

theorem Announced.mailed (h : u.Announced body ids t) (hu : u.engine.Sound)
    (hb : body.command ≠ .hello) : u.Mailed t :=
  (mailed_posts hu hb ids).trans (Silent.of_same h.engine h.carriage).mailed

theorem Received.mailed {id : PeerId} {m : Message} (h : s.Received near id m t)
    (hs : s.engine.Sound) : s.Mailed t := by
  cases h with
  | unheard _ _ he hc => exact (Silent.of_same he hc).mailed
  | refused _ h => exact h.mailed hs
  | lost h _ he hc => exact (h.mailed hs).trans (Silent.of_same he hc).mailed
  | greeted _ hu hp _ he hc _ hv =>
    have hgreet := Silent.of_greeted hp he hc
    exact ((hu.mailed hs).trans hgreet.mailed).trans (hv.mailed (he ▸ (hu.sound hs).greeted hp _))
  | heeded _ hp _ he hc _ hv =>
    obtain ⟨hentry, hready⟩ := Engine.readyPeer?_eq_some.mp hp
    have hheed := Silent.of_heeded hentry he hc
    exact hheed.mailed.trans (hv.mailed (he ▸ hs.heeded hentry hready _))

theorem Performed.mailed {op : Op} (h : s.Performed near op t) (hs : s.engine.Sound) :
    s.Mailed t := by
  cases h with
  | worked h => exact h.mailed hs
  | dressed _ he hc | drained he hc => exact mailed_of_own (he ▸ rfl) (he ▸ rfl) hc
  | @joined group _ u _ _ hok he hc _ h =>
    have hown : s.Mailed u := mailed_of_own (he ▸ rfl) (he ▸ rfl) hc
    exact hown.trans (h.mailed (he ▸ hs.enlist hok) fun hb => by cases hb)
  | @left group _ u _ _ he hc _ h =>
    have hown : s.Mailed u := mailed_of_own (he ▸ rfl) (he ▸ rfl) hc
    exact hown.trans (h.mailed (he ▸ hs.delist group) fun hb => by cases hb)
  | halted _ he hc =>
    refine .single (.idle (he ▸ rfl) hc fun hq => ?_)
    rw [he] at hq
    cases hq
  | received _ _ _ h => exact h.mailed hs

/-- Nobody changes its own identity. -/
theorem Mailed.id (h : s.Mailed t) : t.engine.id = s.engine.id := by
  induction h with
  | refl => rfl
  | tail _ hstep ih =>
    refine Eq.trans ?_ ih
    cases hstep with
    | idle hid => exact hid
    | post _ hposted =>
      cases hposted with
      | unmoved _ he | taken _ _ _ _ he | rejected _ _ _ _ he => exact he ▸ rfl
      | lost _ _ _ _ he => exact he ▸ (Engine.drop_rest _ _).1
    | meet hmeet =>
      cases hmeet with
      | unreached _ he | formless _ _ he | shut _ _ he | met _ _ _ he => exact he ▸ rfl

theorem mailed_step (hs : s.engine.Sound) (walk : Walk) (op : Op) : s.Mailed (s.step walk op) :=
  (performed_anywhere hs walk op).mailed hs

end
end Station
end PeerMesh
