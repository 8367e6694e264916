import PeerMesh.Proofs.Station.Abiding

/-!
# Signs of life

What an engine remembers of the silence of a peer is the pulse of its entry. It is set anew by a sign
of life of the peer: a sighting, or a message that was listened to. `Calm` is about all the rest. An
operation, the watch over silent peers apart, reports nobody as evasive and leaves the pulse of
every peer as it was that gave no sign of life.
-/

namespace PeerMesh
set_option autoImplicit false

variable {κ μ : Type}

/-- What an engine remembers of the silence of a peer. -/
structure Pulse where
  evasiveAt : Nat
  expiredAt : Nat
  evasive : Bool

/-- The pulse of a peer that gave a sign of life at `now`. -/
def Timing.pulse (timing : Timing) (now : Nat) : Pulse :=
  ⟨now + timing.evasive, now + timing.expired, false⟩

def Peer.pulse (p : Peer μ) : Pulse := ⟨p.evasiveAt, p.expiredAt, p.evasive⟩

namespace Engine
variable {e e' e'' : Engine μ} {but : PeerId → Prop} {id : PeerId} {p p' : Peer μ}

/-- The silences that were reported and not yet taken by the application. -/
def evasions (e : Engine μ) : List Event := e.events.filter Event.isEvasive

theorem evasions_of_loud {new : List Event} (he : e'.events = e.events ++ new)
    (hloud : ∀ ev ∈ new, ev.isEvasive = false) : e'.evasions = e.evasions := by
  have hnew : new.filter Event.isEvasive = [] :=
    List.filter_eq_nil_iff.mpr fun ev hev => Bool.eq_false_iff.mp (hloud ev hev)
  rw [evasions, he, List.filter_append, hnew, List.append_nil]
  rfl

theorem evasions_drop (e : Engine μ) (id : PeerId) : (e.drop id).evasions = e.evasions := by
  cases hp : e.roster.get? id with
  | none => rw [drop_of_none hp]
  | some p =>
    cases hn : p.declaredName with
    | none => exact congrArg (List.filter _) (events_drop_of_unnamed hp hn)
    | some name =>
      refine evasions_of_loud (events_drop_of_named hp hn) ?_
      simp [Event.isEvasive]

/-! ### Calm -/

/-- Nobody was reported as evasive, and whoever is known is as silent as before. Nothing is said of
the peers of `but`. -/
structure Calm (but : PeerId → Prop) (e e' : Engine μ) : Prop where
  self : e.SameSelf e'
  evasions : e'.evasions = e.evasions
  entry : ∀ {id q}, e'.roster.get? id = some q →
    but id ∨ ∃ p, e.roster.get? id = some p ∧ q.pulse = p.pulse

namespace Calm

theorem refl (but : PeerId → Prop) (e : Engine μ) : e.Calm but e :=
  ⟨.refl e, rfl, fun hq => .inr ⟨_, hq, rfl⟩⟩

theorem trans (h : e.Calm but e') (h' : e'.Calm but e'') : e.Calm but e'' where
  self := h.self.trans h'.self
  evasions := h'.evasions.trans h.evasions
  entry := by
    intro id q hq
    rcases h'.entry hq with hbut | ⟨p, hp, hpulse⟩
    · exact .inl hbut
    · refine (h.entry hp).imp_right ?_
      rintro ⟨p₀, hp₀, hpulse₀⟩
      exact ⟨p₀, hp₀, hpulse.trans hpulse₀⟩

theorem of_insert (hself : e.SameSelf e') (hv : e'.evasions = e.evasions)
    (hp : e.roster.get? id = some p) (hr : e'.roster = e.roster.insert id p')
    (hpulse : p'.pulse = p.pulse) : e.Calm but e' := by
  refine ⟨hself, hv, fun {j q} hq => .inr ?_⟩
  rw [hr, SortedMap.get?_insert] at hq
  split at hq
  · obtain rfl := Option.some.inj hq
    exact ⟨p, ‹j = id› ▸ hp, hpulse⟩
  · exact ⟨q, hq, rfl⟩

/-- Something new is known of one peer only. -/
theorem of_put (hself : e.SameSelf e') (hv : e'.evasions = e.evasions)
    (hr : e'.roster = e.roster.insert id p') : e.Calm (· = id) e' := by
  refine ⟨hself, hv, fun {j q} hq => ?_⟩
  rw [hr, SortedMap.get?_insert] at hq
  split at hq
  · exact .inl ‹j = id›
  · exact .inr ⟨q, hq, rfl⟩

end Calm

theorem calm_drop (e : Engine μ) (id : PeerId) : e.Calm but (e.drop id) := by
  refine ⟨⟨?_, ?_, ?_, ?_, ?_, ?_, ?_, ?_⟩, e.evasions_drop id, fun {j q} hq => .inr ?_⟩
  any_goals simp only [drop_rest]
  rw [get?_drop] at hq
  split at hq
  · cases hq
  · exact ⟨q, hq, rfl⟩

theorem calm_foldl_drop (ids : List PeerId) (e : Engine μ) : e.Calm but (ids.foldl drop e) := by
  induction ids generalizing e with
  | nil => exact .refl but e
  | cons id ids ih => exact (e.calm_drop id).trans (ih (e.drop id))

theorem calm_editPeer (e : Engine μ) (id : PeerId) {f : Peer μ → Peer μ}
    (hf : ∀ p, (f p).pulse = p.pulse) : e.Calm but (e.editPeer id f) := by
  cases hp : e.roster.get? id with
  | none =>
    rw [editPeer_of_none hp]
    exact .refl but e
  | some p =>
    rw [editPeer_of_some hp]
    exact .of_insert ⟨rfl, rfl, rfl, rfl, rfl, rfl, rfl, rfl⟩ rfl hp rfl (hf p)

theorem calm_refresh (e : Engine μ) (id : PeerId) (now : Nat) :
    e.Calm (· = id) (e.refresh id now) := by
  rw [refresh]
  cases hp : e.roster.get? id with
  | none =>
    rw [editPeer_of_none hp]
    exact .refl _ e
  | some p =>
    rw [editPeer_of_some hp]
    exact .of_put ⟨rfl, rfl, rfl, rfl, rfl, rfl, rfl, rfl⟩ rfl rfl

/-- Whoever is there after a sign of life has a fresh pulse. -/
theorem pulse_refresh {now : Nat} {q : Peer μ}
    (hq : (e.refresh id now).roster.get? id = some q) : q.pulse = e.timing.pulse now := by
  rw [refresh] at hq
  cases hp : e.roster.get? id with
  | none =>
    rw [editPeer_of_none hp, hp] at hq
    cases hq
  | some p =>
    rw [get?_editPeer hp] at hq
    obtain rfl := Option.some.inj hq
    rfl

theorem calm_greeted (hp : e.roster.get? id = some p) (h : Hello) :
    e.Calm but (e.greeted id p h) := by
  refine .of_insert (e.sameSelf_greeted id p h) (evasions_of_loud rfl ?_) hp
    (e.roster_greeted id p h) rfl
  simp [Event.isEvasive]

theorem calm_heeded (hp : e.roster.get? id = some p) (body : Body) :
    e.Calm but (e.heeded id p body) :=
  .of_insert (e.sameSelf_heeded id p body)
    (evasions_of_loud rfl (body.isEvasive_reports id p.name)) hp (e.roster_heeded id p body) rfl

/-! ### Signs of life -/

/-- Whether the engine would listen to a message: a first HELLO from elsewhere, or the next message
of a peer that has greeted. -/
def listens (e : Engine μ) (id : PeerId) (m : Message) : Bool :=
  match m.body with
  | .hello h => decide (h.endpoint ≠ e.endpoint) && decide (m.sequence = 1)
  | _ => (e.readyPeer? id).any fun p => decide (m.sequence = p.want + 1)

/-- When an operation lets a peer give a sign of life, if it does. -/
def sign? (e : Engine μ) (id : PeerId) : Op → Option Nat
  | .discover (.found peer endpoint) now =>
    if peer = id ∧ endpoint ≠ e.endpoint then some now else none
  | .receive routingId frames now =>
    match (Op.receive routingId frames now).message? id with
    | some m => if e.listens id m then some now else none
    | none => none
  | _ => none

theorem listens_hello (e : Engine μ) (id : PeerId) {m : Message} {h : Hello} (hm : m.body = .hello h) :
    e.listens id m = true ↔ h.endpoint ≠ e.endpoint ∧ m.sequence = 1 := by
  rw [listens, hm]
  simp

theorem listens_of_not_hello (e : Engine μ) (id : PeerId) {m : Message} (hm : m.isHello = false) :
    e.listens id m = true ↔ ∃ p, e.readyPeer? id = some p ∧ m.sequence = p.want + 1 := by
  unfold listens
  split
  · rename_i hb
    rw [Message.isHello, hb] at hm
    cases hm
  · simp [Option.any_eq_true]

end Engine
end PeerMesh
