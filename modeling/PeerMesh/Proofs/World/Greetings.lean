import PeerMesh.Proofs.World.Openness

/-!
# Greetings that are waited for

A node that greets another one waits for a greeting from it: its entry stays unready until one comes.
`awaits` counts this from the entry, and `greetings` counts the greetings on their way. On its own
account a node begins to wait only by sending a greeting (`Covers`).
-/

namespace PeerMesh
set_option autoImplicit false

variable {μ : Type}

namespace Engine
variable {e e' : Engine μ} {id j : PeerId} {p p' : Peer μ}

/-- How many greetings an engine waits for from a peer: one, if it has an entry for the peer and the
peer has not greeted. -/
def awaits (e : Engine μ) (id : PeerId) : Nat :=
  match e.roster.get? id with
  | some p => if p.ready then 0 else 1
  | none => 0

theorem awaits_of_some (h : e.roster.get? id = some p) :
    e.awaits id = if p.ready then 0 else 1 := by
  rw [awaits, h]

theorem awaits_of_none (h : e.roster.get? id = none) : e.awaits id = 0 := by
  rw [awaits, h]

theorem awaits_of_ready (h : e.roster.get? id = some p) (hr : p.ready = true) : e.awaits id = 0 := by
  rw [awaits_of_some h, if_pos hr]

theorem awaits_congr (h : e'.roster.get? id = e.roster.get? id) : e'.awaits id = e.awaits id := by
  rw [awaits, awaits, h]

theorem awaits_drop_le (e : Engine μ) (id j : PeerId) : (e.drop id).awaits j ≤ e.awaits j := by
  by_cases hj : j = id
  · rw [awaits_of_none (by rw [get?_drop, if_pos hj])]
    exact Nat.zero_le _
  · exact Nat.le_of_eq (awaits_congr (by rw [get?_drop, if_neg hj]))

/-- One entry is replaced by another that is as ready. -/
theorem awaits_insert (hp : e.roster.get? id = some p) (he : e'.roster = e.roster.insert id p')
    (hr : p'.ready = p.ready) (j : PeerId) : e'.awaits j = e.awaits j := by
  by_cases hj : j = id
  · subst hj
    have hp' : e'.roster.get? j = some p' := by
      rw [he, SortedMap.get?_insert, if_pos rfl]
    rw [awaits_of_some hp', awaits_of_some hp, hr]
  · exact awaits_congr (by rw [he, SortedMap.get?_insert, if_neg hj])

theorem awaits_other (he : e'.roster = e.roster.insert id p') (hj : j ≠ id) :
    e'.awaits j = e.awaits j :=
  awaits_congr (by rw [he, SortedMap.get?_insert, if_neg hj])

theorem awaits_refresh (e : Engine μ) (id : PeerId) (now : Nat) (j : PeerId) :
    (e.refresh id now).awaits j = e.awaits j := by
  rw [refresh]
  cases hp : e.roster.get? id with
  | none => rw [editPeer_of_none hp]
  | some p =>
    have hroster := congrArg Engine.roster (editPeer_of_some hp
      (·.refresh now e.timing.evasive e.timing.expired))
    exact awaits_insert hp hroster rfl j

end Engine

namespace Recorded
variable {c c' : Recorded} {id : PeerId} {endpoint : String}

/-- How many greetings of one node wait at an endpoint. -/
def greetings (c : Recorded) (id : PeerId) (endpoint : String) : Nat :=
  (c.waitingFrom id endpoint).countP Message.isHello

theorem Spreads.greetings_le {who : Party} (h : Spreads who c c') (id : PeerId) (endpoint : String) :
    c.greetings id endpoint ≤ c'.greetings id endpoint := by
  obtain ⟨new, hnew, -⟩ := h.waiting endpoint
  rw [greetings, greetings, waitingFrom, waitingFrom, hnew, List.filterMap_append, List.countP_append]
  exact Nat.le_add_right _ _

theorem Spreads.greetings_other {who : Party} (h : Spreads who c c') (hid : id ≠ who.id)
    (endpoint : String) : c'.greetings id endpoint = c.greetings id endpoint := by
  have htalk := h.talk_other (a := ⟨id, "", "", .usual⟩) hid ⟨id, "", endpoint, .usual⟩
    ⟨.empty, 0, none⟩ none []
  exact congrArg (List.countP Message.isHello) (congrArg Talk.waiting htalk)

theorem Took.greetings_self {frames : Content} {m : Message}
    (h : c.Took ⟨endpoint, id.routingId⟩ frames c') (hf : Wire.encode m = .ok frames) :
    c'.greetings id endpoint = c.greetings id endpoint + [m].countP Message.isHello := by
  rw [greetings, greetings, h.waitingFrom_self hf, List.countP_append]

end Recorded

namespace Station
variable {near : PeerId → String → Prop} {g : Gathering} {who whom : Party}
  {s t u : Station Recorded Network.Mailbox} {body : Body} {ids : List PeerId}

/-! ### Acting on one's own account -/

/-- Every greeting that `who` waits for at `t`, but not yet at `s`, is one that it sent a greeting
for. -/
def Covers (who whom : Party) (s t : Station Recorded Network.Mailbox) : Prop :=
  t.engine.awaits whom.id + s.carriage.greetings who.id whom.endpoint ≤
    s.engine.awaits whom.id + t.carriage.greetings who.id whom.endpoint

namespace Covers

theorem refl (who whom : Party) (s : Station Recorded Network.Mailbox) : Covers who whom s s :=
  Nat.le_refl _

theorem trans (h : Covers who whom s t) (h' : Covers who whom t u) : Covers who whom s u := by
  unfold Covers at *
  omega

theorem of_le (hc : s.carriage.Spreads who t.carriage)
    (h : t.engine.awaits whom.id ≤ s.engine.awaits whom.id) : Covers who whom s t := by
  have hmore := hc.greetings_le who.id whom.endpoint
  unfold Covers
  omega

theorem of_same (hc : t.carriage = s.carriage)
    (h : t.engine.awaits whom.id ≤ s.engine.awaits whom.id) : Covers who whom s t := by
  refine of_le ?_ h
  rw [hc]
  exact .refl who _

end Covers

theorem Uttered.awaits_le {id : PeerId} (h : Uttered who s id body t) (j : PeerId) :
    t.engine.awaits j ≤ s.engine.awaits j := by
  cases h with
  | kept _ he => exact he ▸ Nat.le_refl _
  | lost he =>
    rw [he]
    exact s.engine.awaits_drop_le id j
  | said hp _ _ he => exact Nat.le_of_eq (Engine.awaits_insert hp (congrArg Engine.roster he) rfl j)

theorem covers_post (hs : s.engine.Settled near who) (id : PeerId) (hb : body.command ≠ .hello) :
    Covers who whom s (s.post id body) := by
  have hutter := uttered_post hs id body
  exact .of_le (hutter.spreads hs hb) (hutter.awaits_le whom.id)

theorem covers_posts (hs : s.engine.Settled near who) (hb : body.command ≠ .hello)
    (ids : List PeerId) : Covers who whom s (s.posts body ids) := by
  induction ids generalizing s with
  | nil => exact .refl who whom s
  | cons id ids ih => exact (covers_post hs id hb).trans (ih (settled_post hs id body))

theorem covers_evade (s : Station Recorded Network.Mailbox) (id : PeerId) :
    Covers who whom s (s.evade id) := by
  refine .of_same (s.carriage_evade id) ?_
  cases hp : s.engine.roster.get? id with
  | none => exact (evade_of_none hp).symm ▸ Nat.le_refl _
  | some p =>
    have hroster := congrArg Engine.roster (engine_evade hp)
    exact Nat.le_of_eq (Engine.awaits_insert hp hroster rfl whom.id)

theorem covers_refresh (s : Station Recorded Network.Mailbox) (id : PeerId) (now : Nat) :
    Covers who whom s (s.edit (·.refresh id now)) :=
  .of_same rfl (Nat.le_of_eq (s.engine.awaits_refresh id now whom.id))

/-- Whoever is met is waited for, and has been sent a greeting. -/
theorem covers_meet (hs : s.engine.Settled near who) (hwhom : whom.Apart near) {id : PeerId}
    {endpoint : String} (now : Nat) (hep : endpoint ≠ s.engine.endpoint) (hnear : near id endpoint)
    (hnew : s.engine.roster.get? id = none)
    (ht : (s.meet id endpoint now).2.engine.Sound) : Covers who whom s (s.meet id endpoint now).2 := by
  have hspreads := (speaks_meet hs now hep hnear ht).spreads
  have hmeet := s.meeting_meet id endpoint now
  generalize s.meet id endpoint now = r at hmeet hspreads ⊢
  cases hmeet with
  | unreached _ he | formless _ _ he | shut _ _ he => exact .of_le hspreads (he ▸ Nat.le_refl _)
  | @met box _ _ t hc hf hsend he =>
    have hroster : t.engine.roster = s.engine.roster.insert id
        (.met id box endpoint now s.engine.timing) := he ▸ rfl
    by_cases hid : id = whom.id
    · obtain ⟨rfl, hbox⟩ := Recorded.eq_of_connect hc
      obtain rfl := hbox rfl
      rw [hs.id, (hwhom hnear).mp hid] at hsend
      have hsent := (Recorded.took_of_send hsend).greetings_self hf
      have hbefore := Engine.awaits_of_none hnew
      have hentry := (congrArg (SortedMap.get? · whom.id) hroster).trans
        ((SortedMap.get?_insert _ _ _ _).trans (if_pos hid.symm))
      have hafter : t.engine.awaits whom.id = 1 := Engine.awaits_of_some hentry
      rw [hid] at hbefore
      rw [Covers, hsent, hbefore, hafter]
      simp [Message.isHello, Body.command, Nat.add_comm]
    · exact .of_le hspreads (Nat.le_of_eq (Engine.awaits_other hroster (Ne.symm hid)))

theorem Chore.covers (h : s.Chore near t) (hs : s.engine.Settled near who) (hwhom : whom.Apart near) :
    Covers who whom s t := by
  have ht : t.engine.Sound := (h.shifts hs.sound).sound hs.sound
  cases h with
  | jot he hc => exact .of_same hc (he ▸ Nat.le_refl _)
  | post id body hb =>
    refine covers_post hs id fun hhello => ?_
    cases body <;> cases hb <;> cases hhello
  | evade id => exact covers_evade s id
  | remove id =>
    refine .of_same (s.carriage_remove id) ?_
    rw [engine_remove]
    exact s.engine.awaits_drop_le id whom.id
  | meet now _ _ hep hnew _ hnear => exact covers_meet hs hwhom now hep hnear hnew ht
  | refresh id now => exact covers_refresh s id now

theorem Chores.covers (h : s.Chores near t) (hs : s.engine.Settled near who)
    (hwhom : whom.Apart near) : Covers who whom s t := by
  induction h with
  | refl => exact .refl who whom s
  | tail h' h ih => exact ih.trans (h.covers (Chores.speaks h' hs).settled hwhom)

theorem Announced.covers (h : u.Announced body ids t) (hu : u.engine.Settled near who)
    (hb : body.command ≠ .hello) : Covers who whom u t := by
  have hposts : Covers who whom u (u.posts body ids) := covers_posts hu hb ids
  rw [Covers, h.engine, h.carriage]
  exact hposts

/-- A message from another node than `whom`. -/
theorem Received.covers {id : PeerId} {m : Message} (h : s.Received near id m t)
    (hs : s.engine.Settled near who) (hwhom : whom.Apart near) (hid : whom.id ≠ id) :
    Covers who whom s t := by
  cases h with
  | unheard _ _ he hc => exact .of_same hc (he ▸ Nat.le_refl _)
  | refused _ h => exact h.covers hs hwhom
  | lost h _ he hc => exact (h.covers hs hwhom).trans (.of_same hc (he ▸ Nat.le_refl _))
  | @greeted u v p h _ hu hp _ he hc _ hv =>
    have hsettled := (hu.speaks hs).settled
    have hroster := (congrArg Engine.roster he).trans (Engine.roster_greeted _ _ _ _)
    have hv' : v.engine.Settled near who := (Silent.of_greeted hp he hc).settled hsettled
      (he ▸ hsettled.sound.greeted hp h)
    have hgreet : Covers who whom u v :=
      .of_same hc (Nat.le_of_eq (Engine.awaits_other hroster hid))
    exact ((hu.covers hs hwhom).trans hgreet).trans (hv.covers hv' hwhom)
  | @heeded v p _ hp _ he hc _ hv =>
    obtain ⟨hentry, hready⟩ := Engine.readyPeer?_eq_some.mp hp
    have hroster := (congrArg Engine.roster he).trans (Engine.roster_heeded _ _ _ _)
    have hv' : v.engine.Settled near who := (Silent.of_heeded hentry he hc).settled hs
      (he ▸ hs.sound.heeded hentry hready m.body)
    have hheed : Covers who whom s v :=
      .of_same hc (Nat.le_of_eq (Engine.awaits_other hroster hid))
    exact hheed.trans (hv.covers hv' hwhom)

theorem Performed.covers {op : Op} (h : s.Performed near op t) (hs : s.engine.Settled near who)
    (hwhom : whom.Apart near)
    (hfrom : ∀ routingId frames now, op = .receive routingId frames now →
      PeerId.ofRoutingId? routingId ≠ some whom.id) : Covers who whom s t := by
  cases h with
  | worked h => exact h.covers hs hwhom
  | dressed _ he hc | drained he hc => exact .of_same hc (he ▸ Nat.le_refl _)
  | @joined group _ u _ _ hok he hc _ h =>
    have hu : u.engine.Settled near who :=
      ⟨he ▸ hs.id, he ▸ hs.name, he ▸ hs.endpoint, he ▸ hs.sound.enlist hok, he ▸ hs.placed⟩
    exact Covers.trans (.of_same hc (he ▸ Nat.le_refl _)) (h.covers hu fun hb => by cases hb)
  | @left group _ u _ _ he hc _ h =>
    have hu : u.engine.Settled near who :=
      ⟨he ▸ hs.id, he ▸ hs.name, he ▸ hs.endpoint, he ▸ hs.sound.delist group, he ▸ hs.placed⟩
    exact Covers.trans (.of_same hc (he ▸ Nat.le_refl _)) (h.covers hu fun hb => by cases hb)
  | halted _ he hc =>
    refine .of_same hc ?_
    rw [Engine.awaits_of_none (he ▸ rfl)]
    exact Nat.zero_le _
  | received _ _ hid h =>
    refine h.covers hs hwhom fun heq => hfrom _ _ _ rfl ?_
    rw [hid, heq]

end Station
end PeerMesh
