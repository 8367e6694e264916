import PeerMesh.Proofs.Station.Performed

/-!
# Engines stay sound

Every operation keeps an engine sound, whatever the carriage answers. Between two operations of an
engine the carriage may change in any way, since others use it too.
-/

namespace PeerMesh
set_option autoImplicit false

/-- One operation, with the carriage as the engine finds it. -/
structure Turn (κ : Type) where
  walk : Walk
  carriage : κ
  op : Op

namespace Station
variable {κ μ : Type} [Carriage κ μ] {near : PeerId → String → Prop} {s t : Station κ μ}

def turn (s : Station κ μ) (x : Turn κ) : Station κ μ :=
  ({ s with carriage := x.carriage } : Station κ μ).step x.walk x.op

def run (s : Station κ μ) (turns : List (Turn κ)) : Station κ μ := turns.foldl turn s

theorem engine_turn_drain (s : Station κ μ) {x : Turn κ} (hop : x.op = .drain) :
    (s.turn x).engine = { s.engine with events := [] } := by
  rw [turn, step, hop]
  rfl

theorem shifts_posts (hs : s.engine.Sound) (body : Body) (ids : List PeerId) :
    s.engine.Shifts (s.posts body ids).engine := by
  induction ids generalizing s with
  | nil => exact .refl _
  | cons id ids ih =>
    have hpost := (s.posted_post id body fun _ => hs.filed).shifts
    exact hpost.trans (ih (hpost.sound hs))

theorem Announced.shifts {body : Body} {ids : List PeerId} (h : s.Announced body ids t)
    (hs : s.engine.Sound) : s.engine.Shifts t.engine := by
  rw [h.engine]
  exact shifts_posts hs body ids

theorem Received.sound {id : PeerId} {m : Message} (h : s.Received near id m t)
    (hs : s.engine.Sound) : t.engine.Sound := by
  cases h with
  | unheard _ _ he => exact he ▸ hs
  | refused _ h => exact h.sound hs
  | lost h _ he => exact he ▸ h.sound hs
  | greeted _ hu hp _ he _ _ hv => exact hv.sound (he ▸ (hu.sound hs).greeted hp _)
  | heeded _ hp _ he _ _ hv =>
    obtain ⟨hentry, hready⟩ := Engine.readyPeer?_eq_some.mp hp
    exact hv.sound (he ▸ hs.heeded hentry hready _)

theorem Performed.sound {op : Op} (h : s.Performed near op t) (hs : s.engine.Sound) :
    t.engine.Sound := by
  cases h with
  | worked h => exact h.sound hs
  | dressed hok he =>
    rw [he]
    exact hs.withOwn (hs.presentable.dress hok) rfl rfl rfl rfl rfl
  | joined _ hok he _ _ h =>
    have hu := hs.enlist hok
    rw [← he] at hu
    exact (h.shifts hu).sound hu
  | @left group _ u _ _ he _ _ h =>
    have hu := hs.delist group
    rw [← he] at hu
    exact (h.shifts hu).sound hu
  | halted _ he =>
    rw [he]
    exact hs.halt
  | drained he =>
    rw [he]
    exact hs.withEvents []
  | received _ _ _ h => exact h.sound hs

theorem Received.self {id : PeerId} {m : Message} (h : s.Received near id m t)
    (hs : s.engine.Sound) : s.engine.SameSelf t.engine := by
  cases h with
  | unheard _ _ he => exact he ▸ .refl _
  | refused _ h => exact (h.shifts hs).self
  | lost h _ he => exact he ▸ (h.shifts hs).self
  | @greeted u v p h _ hu hp _ he _ _ hv =>
    have hsound := (hu.sound hs).greeted hp h
    rw [← he] at hsound
    have hself := u.engine.sameSelf_greeted id p h
    rw [← he] at hself
    exact ((hu.shifts hs).self.trans hself).trans (hv.shifts hsound).self
  | @heeded v p _ hp _ he _ _ hv =>
    obtain ⟨hentry, hready⟩ := Engine.readyPeer?_eq_some.mp hp
    have hsound := hs.heeded hentry hready m.body
    rw [← he] at hsound
    have hself := s.engine.sameSelf_heeded id p m.body
    rw [← he] at hself
    exact hself.trans (hv.shifts hsound).self

/-- Only a shutdown stops an engine, and nothing starts it again. -/
theorem Performed.stopped {op : Op} (h : s.Performed near op t) (hs : s.engine.Sound)
    (hop : op ≠ .shutdown) : t.engine.stopped = s.engine.stopped := by
  cases h with
  | worked h => exact (h.shifts hs).self.stopped
  | dressed _ he => exact (congrArg Engine.stopped he :)
  | @joined group _ u _ _ hok he _ _ h =>
    have hown : u.engine.stopped = s.engine.stopped := he ▸ rfl
    exact (h.shifts (he ▸ hs.enlist hok)).self.stopped.trans hown
  | @left group _ u _ _ he _ _ h =>
    have hown : u.engine.stopped = s.engine.stopped := he ▸ rfl
    exact (h.shifts (he ▸ hs.delist group)).self.stopped.trans hown
  | halted => exact absurd rfl hop
  | drained he => exact (congrArg Engine.stopped he :)
  | received _ _ _ h => exact (h.self hs).stopped

/-- No operation starts a stopped engine again. -/
theorem Performed.running {op : Op} (h : s.Performed near op t) (hs : s.engine.Sound)
    (hrun : t.engine.stopped = false) : s.engine.stopped = false := by
  by_cases hop : op = .shutdown
  · subst hop
    cases h with
    | worked h => exact (h.shifts hs).self.stopped.symm.trans hrun
    | halted hrun => exact hrun
  · exact (h.stopped hs hop).symm.trans hrun

/-- What an operation does, wherever other engines are. -/
theorem performed_anywhere (hs : s.engine.Sound) (walk : Walk) (op : Op) :
    s.Performed (fun _ _ => True) op (s.step walk op) :=
  performed_step hs walk op fun _ => trivial

theorem sound_step (hs : s.engine.Sound) (walk : Walk) (op : Op) : (s.step walk op).engine.Sound :=
  (performed_anywhere hs walk op).sound hs

theorem performed_turn (hs : s.engine.Sound) (x : Turn κ) :
    ({ s with carriage := x.carriage } : Station κ μ).Performed (fun _ _ => True) x.op (s.turn x) :=
  performed_anywhere (s := { s with carriage := x.carriage }) hs x.walk x.op

theorem sound_turn (hs : s.engine.Sound) (x : Turn κ) : (s.turn x).engine.Sound :=
  sound_step (s := { s with carriage := x.carriage }) hs x.walk x.op

theorem sound_run (hs : s.engine.Sound) (turns : List (Turn κ)) : (s.run turns).engine.Sound := by
  induction turns generalizing s with
  | nil => exact hs
  | cons x turns ih => exact ih (sound_turn hs x)

/-- An engine is sound after every run of operations that starts with it being new. -/
theorem sound_run_new (id : PeerId) (name endpoint : String) (timing : Timing) (carriage : κ)
    (turns : List (Turn κ)) :
    ((new (Engine.new id name endpoint timing : Engine μ) carriage).run turns).engine.Sound :=
  sound_run (Engine.sound_new id name endpoint timing) turns

end Station
end PeerMesh
