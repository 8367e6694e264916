import PeerMesh.Proofs.World.Orderly

/-!
# Agreement

Two nodes that know each other, with nothing on its way from the first to the second, agree on the
first: its groups, its status, its name and the number of its next message.
-/

namespace PeerMesh
set_option autoImplicit false

/-- What `b` has in its entry `p` for `a` is what `a` says of itself and has in its entry `q`
for `b`. -/
structure Engine.Agrees {μ : Type} (a b : Engine μ) (q p : Peer μ) : Prop where
  groups : ∀ group, a.id ∈ b.peersInGroup group ↔ group ∈ a.ownGroups
  status : p.status = a.status
  name : b.peerName? a.id = some a.name
  want : p.want = q.sent

namespace Orderly
variable {g : Gathering} {past : Nat → List Event} {w : World Recorded Network.Mailbox}
  {a b : Engine Network.Mailbox} {p q : Peer Network.Mailbox}

/-- With nothing on its way, a talk that looks ahead sees what is known already. -/
theorem agrees (h : Orderly g past w) (ha : a ∈ w.engines) (hb : b ∈ w.engines)
    (hq : a.roster.get? b.id = some q) (hp : b.roster.get? a.id = some p) (hr : p.ready = true)
    (hw : ∀ d ∈ w.carriage.inner.waiting b.endpoint, d.routingId ≠ a.id.routingId) :
    a.Agrees b q p := by
  obtain ⟨i, hi⟩ := List.mem_iff_getElem?.mp ha
  obtain ⟨j, hj⟩ := List.mem_iff_getElem?.mp hb
  obtain ⟨who, hwho⟩ := h.party hi
  obtain ⟨whom, hwhom⟩ := h.party hj
  have hsa := h.settled hwho hi
  have hsb := h.settled hwhom hj
  have hid : who.id ≠ whom.id := by
    rw [← hsa.id, ← hsb.id]
    exact hsb.sound.foreign_id hp
  have htalk := (h.talks hwho hwhom hid hi hj).coherent
  have hready := Engine.readyPeer?_eq_some.mpr ⟨hp, hr⟩
  have hknown : b.heard a.id = some ⟨p.want, p.status, p.name, b.isMember a.id⟩ := by
    rw [Engine.heard, hready]
    rfl
  have hquiet : w.carriage.waitingFrom a.id b.endpoint = [] :=
    List.filterMap_eq_nil_iff.mpr fun d hd => if_neg (hw d hd)
  have hsent : (a.voice b.id).sent = some q.sent := by
    rw [Engine.voice, hq]
    rfl
  rw [← hsb.id] at htalk
  have hagree : (⟨p.want, p.status, p.name, b.isMember a.id⟩ : Heard) =
      (a.voice b.id).toHeard who q.sent := by
    refine htalk.agrees ?_ hsent
    rw [Recorded.talk, ← hsa.id, ← hsb.endpoint, hquiet]
    exact hknown
  obtain ⟨hwant, hstatus, hname, hmember⟩ := Heard.mk.inj hagree
  constructor
  case groups =>
    intro group
    rw [Engine.mem_peersInGroup, Engine.ownGroups, SortedSet.mem_toList, hmember]
    rfl
  case status => exact hstatus
  case name =>
    rw [Engine.peerName?, hready, Option.map_some, hname, hsa.name]
  case want => exact hwant

end Orderly

namespace Gathering

/-- Whatever moves were made, a node agrees with another on the latter's groups, status, name and
count of messages once it has heard everything that the latter said. -/
theorem agrees_after (g : Gathering) (moves : List Move) {a b : Engine Network.Mailbox}
    {p q : Peer Network.Mailbox} (ha : a ∈ (g.after moves).engines)
    (hb : b ∈ (g.after moves).engines) (hq : a.roster.get? b.id = some q)
    (hp : b.roster.get? a.id = some p) (hr : p.ready = true)
    (hw : ∀ d ∈ (g.after moves).carriage.waiting b.endpoint, d.routingId ≠ a.id.routingId) :
    a.Agrees b q p := by
  obtain ⟨past, horderly, -⟩ := Orderly.recorded g moves
  rw [after_eq_map_recorded] at ha hb hw
  exact horderly.agrees ha hb hq hp hr hw

/-- Two nodes meet, the first joins a group, and the second hears of it. -/
theorem agrees_after_joined :
    let ann : Party := ⟨⟨.replicate 16 1, rfl⟩, "ann", "a", .usual⟩
    let bob : Party := ⟨⟨.replicate 16 2, rfl⟩, "bob", "b", .usual⟩
    let g : Gathering := .bound [ann, bob] (by decide) (by decide)
    let moves : List Move := [.find 0 1 .ascending 0, .deliver 1 .ascending 0,
      .deliver 0 .ascending 0, .act 0 .ascending (.join "g") rfl, .deliver 1 .ascending 0]
    ∃ a ∈ (g.after moves).engines, ∃ b ∈ (g.after moves).engines, ∃ q p,
      a.roster.get? b.id = some q ∧ b.roster.get? a.id = some p ∧ p.ready = true ∧
      (∀ d ∈ (g.after moves).carriage.waiting b.endpoint, d.routingId ≠ a.id.routingId) ∧
      a.ownGroups = ["g"] ∧ a.Agrees b q p := by
  intro ann bob g moves
  let a := ((g.after moves).engines[0]?).get (by decide +kernel)
  let b := ((g.after moves).engines[1]?).get (by decide +kernel)
  let q := (a.roster.get? b.id).get (by decide +kernel)
  let p := (b.roster.get? a.id).get (by decide +kernel)
  have ha : a ∈ (g.after moves).engines := List.mem_of_getElem? (Option.some_get _).symm
  have hb : b ∈ (g.after moves).engines := List.mem_of_getElem? (Option.some_get _).symm
  have hq : a.roster.get? b.id = some q := (Option.some_get _).symm
  have hp : b.roster.get? a.id = some p := (Option.some_get _).symm
  have hr : p.ready = true := by decide +kernel
  have hw : ∀ d ∈ (g.after moves).carriage.waiting b.endpoint, d.routingId ≠ a.id.routingId := by
    decide +kernel
  exact ⟨a, ha, b, hb, q, p, hq, hp, hr, hw, by decide +kernel,
    agrees_after g moves ha hb hq hp hr hw⟩

end Gathering
end PeerMesh
