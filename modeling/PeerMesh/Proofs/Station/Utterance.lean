import PeerMesh.Proofs.Station.Soundness
import PeerMesh.Proofs.Wire.Grammar
import PeerMesh.Proofs.Wire.Spelling

/-!
# Names that can be said

An engine knows the groups of its peers from what they said of them, so the name of such a group fits
into a message. What an engine sends to a group of peers therefore always has a wire form.
-/

namespace PeerMesh
set_option autoImplicit false

variable {κ μ : Type}

/-- What was read fits into a message. -/
theorem Wire.withinLimits_of_decode {frames : Content} {m : Message} (h : decode frames = .ok m) :
    ∃ entries, m.body.WithinLimits entries := by
  cases frames with
  | nil => cases h
  | cons head content =>
    obtain ⟨front, trailing, -, hform⟩ := decodeHead_eq_ok.mp h
    obtain ⟨-, entries, hlimits, -⟩ := headForm_iff.mp hform
    exact ⟨entries, hlimits⟩

namespace Engine
variable {e e' : Engine μ} {id : PeerId} {p : Peer μ} {body : Body} {h : Hello}
  {entries : List (String × String)}

/-- The names of all groups that peers are in fit into a message. -/
def Utterable (e : Engine μ) : Prop :=
  ∀ id group, e.isMember id group = true → group.utf8ByteSize ≤ Wire.limit

theorem Utterable.congr (hu : e.Utterable) (h : e'.peerGroups = e.peerGroups) : e'.Utterable :=
  fun id group hg => hu id group (isMember_congr h id group ▸ hg)

theorem Shift.utterable (h : e.Shift e') (hu : e.Utterable) : e'.Utterable := by
  cases h with
  | touch | report | acquaint => exact hu.congr rfl
  | drop id =>
    cases hp : e.roster.get? id with
    | none => rwa [drop_of_none hp]
    | some p =>
      intro j group hg
      rw [isMember_drop hp, Bool.and_eq_true] at hg
      exact hu j group hg.2

theorem Shifts.utterable (h : e.Shifts e') (hu : e.Utterable) : e'.Utterable := by
  induction h with
  | refl => exact hu
  | tail _ h ih => exact h.utterable ih

theorem Utterable.greeted (hu : e.Utterable) (id : PeerId) (p : Peer μ)
    (hlimits : h.WithinLimits entries) : (e.greeted id p h).Utterable := by
  intro j group hg
  rw [isMember_greeted, Bool.or_eq_true, Bool.and_eq_true] at hg
  rcases hg with ⟨-, hmem⟩ | hg
  · exact hlimits.group group (of_decide_eq_true hmem)
  · exact hu j group hg

theorem Utterable.heeded (hu : e.Utterable) (id : PeerId) (p : Peer μ)
    (hlimits : body.WithinLimits entries) : (e.heeded id p body).Utterable := by
  have hedited : Utterable { e with roster := e.roster.insert id (p.followed body) } := hu.congr rfl
  suffices Utterable (regroup { e with roster := e.roster.insert id (p.followed body) } id body) from
    this.congr rfl
  cases body with
  | join group status =>
    intro j name hg
    rw [regroup, isMember_enrol, Bool.or_eq_true, Bool.and_eq_true] at hg
    rcases hg with ⟨-, hname⟩ | hg
    · exact of_decide_eq_true hname ▸ hlimits
    · exact hedited j name hg
  | leave group status =>
    intro j name hg
    rw [regroup, isMember_withdraw, Bool.and_eq_true] at hg
    exact hedited j name hg.2
  | hello | whisper | shout | ping | pingOk => exact hedited

end Engine

namespace Station
variable [Carriage κ μ] {near : PeerId → String → Prop} {s t : Station κ μ} {id : PeerId}
  {m : Message} {op : Op}

theorem Received.utterable (h : s.Received near id m t) (hs : s.engine.Sound)
    (hu : s.engine.Utterable) {entries : List (String × String)}
    (hlimits : m.body.WithinLimits entries) : t.engine.Utterable := by
  cases h with
  | unheard _ _ he => exact he ▸ hu
  | refused _ h => exact (h.shifts hs).utterable hu
  | lost h _ he => exact he ▸ (h.shifts hs).utterable hu
  | @greeted u v p hello hm hmet hp hr he _ _ hv =>
    have hgreeted := ((hmet.shifts hs).utterable hu).greeted id p (hm ▸ hlimits)
    have hsound := (hmet.sound hs).greeted hp hello
    rw [← he] at hgreeted hsound
    exact (hv.shifts hsound).utterable hgreeted
  | @heeded v p hm hp hn he _ _ hv =>
    obtain ⟨hentry, hready⟩ := Engine.readyPeer?_eq_some.mp hp
    have hheeded := hu.heeded id p hlimits
    have hsound := hs.heeded hentry hready m.body
    rw [← he] at hheeded hsound
    exact (hv.shifts hsound).utterable hheeded

theorem Performed.utterable (h : s.Performed near op t) (hs : s.engine.Sound)
    (hu : s.engine.Utterable) : t.engine.Utterable := by
  cases h with
  | worked h => exact (h.shifts hs).utterable hu
  | dressed _ he => exact hu.congr (congrArg Engine.peerGroups he :)
  | joined _ hok he _ _ h =>
    exact (h.shifts (he ▸ hs.enlist hok)).utterable (hu.congr (congrArg Engine.peerGroups he :))
  | @left group _ _ _ _ he _ _ h =>
    exact (h.shifts (he ▸ hs.delist group)).utterable (hu.congr (congrArg Engine.peerGroups he :))
  | halted _ he =>
    intro j group hg
    rw [he] at hg
    cases hg
  | drained he => exact hu.congr (congrArg Engine.peerGroups he :)
  | received _ hm _ h =>
    obtain ⟨entries, hlimits⟩ := Wire.withinLimits_of_decode hm
    exact h.utterable hs hu hlimits

theorem utterable_run (hs : s.engine.Sound) (hu : s.engine.Utterable) (turns : List (Turn κ)) :
    (s.run turns).engine.Utterable := by
  induction turns generalizing s with
  | nil => exact hu
  | cons x turns ih => exact ih (sound_turn hs x) ((performed_turn hs x).utterable hs hu)

theorem utterable_run_new (id : PeerId) (name endpoint : String) (timing : Timing) (carriage : κ)
    (turns : List (Turn κ)) :
    ((new (Engine.new id name endpoint timing : Engine μ) carriage).run turns).engine.Utterable :=
  utterable_run (Engine.sound_new id name endpoint timing) (fun _ _ hg => by cases hg) turns

end Station
end PeerMesh
