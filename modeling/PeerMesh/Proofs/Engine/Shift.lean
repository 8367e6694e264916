import Mathlib.Logic.Relation
import PeerMesh.Proofs.Engine.Sound

/-!
# Shifts

A shift is the least that an engine does to its tables on its own account, without having heard
anything: an entry is touched where no query looks, a peer is reported as evasive, a peer is
dropped, or a peer is added that has not greeted. Sending and meeting are made of shifts, so
what holds through every shift is shown here once.
-/

namespace PeerMesh
set_option autoImplicit false

variable {μ : Type}

/-- The entry `p'` is `p` up to what was sent and when the peer was last heard of. -/
structure Peer.Resumes (p p' : Peer μ) : Prop where
  id : p'.id = p.id
  mailbox : p'.mailbox = p.mailbox
  lastEndpoint : p'.lastEndpoint = p.lastEndpoint
  declaredName : p'.declaredName = p.declaredName
  headers : p'.headers = p.headers
  status : p'.status = p.status
  want : p'.want = p.want
  ready : p'.ready = p.ready

namespace Peer.Resumes
variable {p p' p'' : Peer μ}

theorem refl (p : Peer μ) : p.Resumes p := ⟨rfl, rfl, rfl, rfl, rfl, rfl, rfl, rfl⟩

theorem trans (h : p.Resumes p') (h' : p'.Resumes p'') : p.Resumes p'' where
  id := h'.id.trans h.id
  mailbox := h'.mailbox.trans h.mailbox
  lastEndpoint := h'.lastEndpoint.trans h.lastEndpoint
  declaredName := h'.declaredName.trans h.declaredName
  headers := h'.headers.trans h.headers
  status := h'.status.trans h.status
  want := h'.want.trans h.want
  ready := h'.ready.trans h.ready

theorem name (h : p.Resumes p') : p'.name = p.name := by rw [Peer.name, h.declaredName]; rfl

theorem isConnected (h : p.Resumes p') : p'.isConnected = p.isConnected := by
  rw [Peer.isConnected, h.mailbox]
  rfl

theorem endpoint (h : p.Resumes p') : p'.endpoint = p.endpoint := by
  rw [Peer.endpoint, h.isConnected, h.lastEndpoint]
  rfl

theorem hasEntered (h : p.Resumes p') : p'.hasEntered = p.hasEntered := by
  rw [Peer.hasEntered, h.declaredName]
  rfl

end Peer.Resumes

namespace Engine

/-- The engines `e` and `e'` say the same of themselves. -/
structure SameSelf (e e' : Engine μ) : Prop where
  id : e'.id = e.id
  name : e'.name = e.name
  endpoint : e'.endpoint = e.endpoint
  timing : e'.timing = e.timing
  headers : e'.headers = e.headers
  status : e'.status = e.status
  joined : e'.joined = e.joined
  stopped : e'.stopped = e.stopped

namespace SameSelf
variable {e e' e'' : Engine μ}

theorem refl (e : Engine μ) : e.SameSelf e := ⟨rfl, rfl, rfl, rfl, rfl, rfl, rfl, rfl⟩

theorem trans (h : e.SameSelf e') (h' : e'.SameSelf e'') : e.SameSelf e'' where
  id := h'.id.trans h.id
  name := h'.name.trans h.name
  endpoint := h'.endpoint.trans h.endpoint
  timing := h'.timing.trans h.timing
  headers := h'.headers.trans h.headers
  status := h'.status.trans h.status
  joined := h'.joined.trans h.joined
  stopped := h'.stopped.trans h.stopped

theorem symm (h : e.SameSelf e') : e'.SameSelf e :=
  ⟨h.id.symm, h.name.symm, h.endpoint.symm, h.timing.symm, h.headers.symm, h.status.symm,
    h.joined.symm, h.stopped.symm⟩

theorem hello (h : e.SameSelf e') : e'.hello = e.hello := by
  rw [Engine.hello, h.endpoint, h.joined, h.status, h.name, h.headers]
  rfl

end SameSelf

inductive Shift (e : Engine μ) : Engine μ → Prop
  | touch {id p p'} (hp : e.roster.get? id = some p) (h : p.Resumes p') :
    Shift e { e with roster := e.roster.insert id p' }
  | report {id p name} (hp : e.roster.get? id = some p) (hn : p.declaredName = some name) :
    Shift e { e with events := e.events ++ [.evasive id name] }
  | drop (id) : Shift e (e.drop id)
  | acquaint {p} (hs : e.stopped = false) (hnew : e.roster.get? p.id = none) (hid : p.id ≠ e.id)
    (hep : p.endpoint ≠ e.endpoint)
    (hfree : ∀ {j q}, e.roster.get? j = some q → q.endpoint ≠ p.endpoint)
    (hconn : p.isConnected = true) (hout : p.ready = false) (hname : p.declaredName = none) :
    Shift e (e.putPeer p)

def Shifts : Engine μ → Engine μ → Prop := Relation.ReflTransGen Shift

namespace Shift
variable {e e' : Engine μ}

theorem self (h : e.Shift e') : e.SameSelf e' := by
  cases h with
  | touch | report | acquaint => exact ⟨rfl, rfl, rfl, rfl, rfl, rfl, rfl, rfl⟩
  | drop id => constructor <;> simp only [drop_rest]

theorem sound (h : e.Shift e') (hs : e.Sound) : e'.Sound := by
  cases h with
  | touch hp h =>
    refine hs.insert hp ⟨h.id, h.isConnected.trans (hs.connected hp), h.endpoint, ?_, ?_⟩
    · rw [h.ready, h.hasEntered, hs.entered hp]
    · intro hr
      rw [h.ready, hr]
  | report => exact hs.withEvents _
  | drop id => exact hs.drop id
  | acquaint hrun hnew hid hep hfree hconn hout hname =>
    refine hs.putPeer hrun hnew hid hep hfree hconn ?_
    rw [hout, Peer.hasEntered, hname]
    rfl

/-- An entry after a shift was there before, or belongs to a peer that has not greeted. -/
theorem entry (h : e.Shift e') {j : PeerId} {q' : Peer μ} (hq : e'.roster.get? j = some q') :
    (∃ q, e.roster.get? j = some q ∧ q.Resumes q') ∨ q'.ready = false := by
  cases h with
  | touch hp h =>
    change (e.roster.insert _ _).get? j = some q' at hq
    rw [SortedMap.get?_insert] at hq
    split at hq
    · rename_i hj
      subst hj
      obtain rfl := Option.some.inj hq
      exact .inl ⟨_, hp, h⟩
    · exact .inl ⟨q', hq, .refl q'⟩
  | report => exact .inl ⟨q', hq, .refl q'⟩
  | drop id =>
    rw [get?_drop] at hq
    split at hq
    · cases hq
    · exact .inl ⟨q', hq, .refl q'⟩
  | acquaint _ _ _ _ _ _ hout =>
    rw [putPeer, SortedMap.get?_insert] at hq
    split at hq
    · obtain rfl := Option.some.inj hq
      exact .inr hout
    · exact .inl ⟨q', hq, .refl q'⟩

end Shift

namespace Shifts
variable {e e' e'' : Engine μ}

theorem refl (e : Engine μ) : e.Shifts e := Relation.ReflTransGen.refl

theorem trans (h : e.Shifts e') (h' : e'.Shifts e'') : e.Shifts e'' := Relation.ReflTransGen.trans h h'

theorem single (h : e.Shift e') : e.Shifts e' := Relation.ReflTransGen.single h

theorem self (h : e.Shifts e') : e.SameSelf e' := by
  induction h with
  | refl => exact .refl e
  | tail _ h ih => exact ih.trans h.self

theorem sound (h : e.Shifts e') (hs : e.Sound) : e'.Sound := by
  induction h with
  | refl => exact hs
  | tail _ h ih => exact h.sound ih

theorem entry (h : e.Shifts e') {j : PeerId} {q' : Peer μ} (hq : e'.roster.get? j = some q') :
    (∃ q, e.roster.get? j = some q ∧ q.Resumes q') ∨ q'.ready = false := by
  induction h generalizing q' with
  | refl => exact .inl ⟨q', hq, .refl q'⟩
  | tail _ h ih =>
    rcases h.entry hq with ⟨q₁, hq₁, h₁⟩ | hout
    · rcases ih hq₁ with ⟨q₀, hq₀, h₀⟩ | hout
      · exact .inl ⟨q₀, hq₀, h₀.trans h₁⟩
      · exact .inr (h₁.ready.trans hout)
    · exact .inr hout

/-- Nobody becomes ready without a greeting. -/
theorem readyPeer?_eq_none (h : e.Shifts e') {j : PeerId} (hj : e.readyPeer? j = none) :
    e'.readyPeer? j = none := by
  cases hq : e'.readyPeer? j with
  | none => rfl
  | some q' =>
    obtain ⟨hq, hr⟩ := readyPeer?_eq_some.mp hq
    rcases h.entry hq with ⟨q, hq₀, h₀⟩ | hout
    · rw [readyPeer?_eq_some.mpr ⟨hq₀, h₀.ready.symm.trans hr⟩] at hj
      cases hj
    · rw [hr] at hout
      cases hout

end Shifts

theorem shifts_refresh (e : Engine μ) (id : PeerId) (now : Nat) : e.Shifts (e.refresh id now) := by
  rw [refresh]
  cases hp : e.roster.get? id with
  | none =>
    rw [editPeer_of_none hp]
    exact .refl _
  | some p =>
    rw [editPeer_of_some hp]
    exact .single (.touch hp ⟨rfl, rfl, rfl, rfl, rfl, rfl, rfl, rfl⟩)

end Engine
end PeerMesh
