import PeerMesh.Proofs.Station.Reaping

/-!
# Deadlines

The deadlines of a peer are counted from its last sign of life, whatever else is done to the engine in
between.
-/

namespace PeerMesh
set_option autoImplicit false

variable {κ μ : Type}

namespace Station
variable [Carriage κ μ] {s t : Station κ μ} {id : PeerId} {last : Option Nat}

/-- The signs of life that a peer gives in many turns, oldest first. -/
def signs (s : Station κ μ) (id : PeerId) : List (Turn κ) → List Nat
  | [] => []
  | x :: turns => (s.engine.sign? id x.op).toList ++ (s.turn x).signs id turns

/-- The deadlines of a peer are those of its last sign of life. -/
def Dated (s : Station κ μ) (id : PeerId) (last : Option Nat) : Prop :=
  ∀ p, s.engine.roster.get? id = some p → ∃ now, last = some now ∧
    p.evasiveAt = now + s.engine.timing.evasive ∧ p.expiredAt = now + s.engine.timing.expired

/-- Looking at the peers moves no deadline. -/
structure Undelayed (s t : Station κ μ) : Prop where
  timing : t.engine.timing = s.engine.timing
  entry : ∀ {id q}, t.engine.roster.get? id = some q → ∃ p, s.engine.roster.get? id = some p ∧
    q.evasiveAt = p.evasiveAt ∧ q.expiredAt = p.expiredAt

omit [Carriage κ μ] in
theorem Undelayed.refl (s : Station κ μ) : s.Undelayed s := ⟨rfl, fun hq => ⟨_, hq, rfl, rfl⟩⟩

omit [Carriage κ μ] in
theorem Undelayed.trans {u : Station κ μ} (h : s.Undelayed t) (h' : t.Undelayed u) :
    s.Undelayed u := by
  refine ⟨h'.timing.trans h.timing, fun hr => ?_⟩
  obtain ⟨q, hq, hev, hex⟩ := h'.entry hr
  obtain ⟨p, hp, hev', hex'⟩ := h.entry hq
  exact ⟨p, hp, hev.trans hev', hex.trans hex'⟩

omit [Carriage κ μ] in
theorem Undelayed.of_calm (h : s.engine.Calm (fun _ => False) t.engine) : s.Undelayed t := by
  refine ⟨h.self.timing, fun hq => ?_⟩
  obtain ⟨p, hp, hpulse⟩ := (h.entry hq).resolve_left not_false
  exact ⟨p, hp, congrArg Pulse.evasiveAt hpulse, congrArg Pulse.expiredAt hpulse⟩

omit [Carriage κ μ] in
theorem undelayed_evade (s : Station κ μ) (id : PeerId) : s.Undelayed (s.evade id) := by
  refine ⟨(s.shifts_evade id).self.timing, fun {j q} hq => ?_⟩
  cases hp : s.engine.roster.get? id with
  | none =>
    rw [evade_of_none hp] at hq
    exact ⟨q, hq, rfl, rfl⟩
  | some p =>
    rw [engine_evade hp, SortedMap.get?_insert] at hq
    split at hq
    · obtain rfl := Option.some.inj hq
      exact ⟨p, ‹j = id› ▸ hp, rfl, rfl⟩
    · exact ⟨q, hq, rfl, rfl⟩

theorem Reaped.undelayed {now : Nat} (h : s.Reaped now id t) : s.Undelayed t := by
  cases h with
  | absent _ ht | left _ _ _ ht =>
    rw [ht]
    exact .refl s
  | expired _ _ he => exact .of_calm (he ▸ s.engine.calm_drop id)
  | pinged _ _ _ _ h => exact (s.undelayed_evade id).trans (.of_calm h.calm)

theorem undelayed_reap (hs : s.engine.Sound) (walk : Walk) (now : Nat) :
    s.Undelayed (s.reap walk now) :=
  reap_induction (R := Undelayed) .refl Undelayed.trans (fun _ h => h.undelayed) hs walk

theorem timing_step (hs : s.engine.Sound) (walk : Walk) (op : Op) :
    (s.step walk op).engine.timing = s.engine.timing := by
  cases op with
  | reap now => exact (undelayed_reap hs walk now).timing
  | drain => rfl
  | _ => exact (paces_step hs walk (fun _ => Op.noConfusion) Op.noConfusion).timing

theorem timing_run (hs : s.engine.Sound) (turns : List (Turn κ)) :
    (s.run turns).engine.timing = s.engine.timing := by
  induction turns generalizing s with
  | nil => rfl
  | cons x turns ih =>
    exact (ih (sound_turn hs x)).trans
      (timing_step (s := { s with carriage := x.carriage }) hs x.walk x.op)

theorem Dated.step (h : s.Dated id last) (hs : s.engine.Sound) (walk : Walk) (op : Op) :
    (s.step walk op).Dated id ((s.engine.sign? id op).or last) := by
  intro q hq
  rw [timing_step hs walk op]
  by_cases hreap : ∃ now, op = .reap now
  · obtain ⟨now, rfl⟩ := hreap
    obtain ⟨p, hp, hev, hex⟩ := (undelayed_reap hs walk now).entry hq
    rw [hev, hex]
    exact h p hp
  · by_cases hdrain : op = .drain
    · subst hdrain
      exact h q hq
    · have hentry := (paces_step hs walk (fun now hop => hreap ⟨now, hop⟩) hdrain).entry hq
      cases hsign : s.engine.sign? id op with
      | some now =>
        rw [hsign] at hentry
        exact ⟨now, rfl, congrArg Pulse.evasiveAt hentry, congrArg Pulse.expiredAt hentry⟩
      | none =>
        rw [hsign] at hentry
        obtain ⟨p, hp, hpulse⟩ := hentry
        have hev : q.evasiveAt = p.evasiveAt := congrArg Pulse.evasiveAt hpulse
        have hex : q.expiredAt = p.expiredAt := congrArg Pulse.expiredAt hpulse
        rw [hev, hex]
        exact h p hp

theorem dated_run (hs : s.engine.Sound) (turns : List (Turn κ)) (before : List Nat)
    (h : s.Dated id before.getLast?) :
    (s.run turns).Dated id (before ++ s.signs id turns).getLast? := by
  induction turns generalizing s before with
  | nil =>
    rw [signs, List.append_nil]
    exact h
  | cons x turns ih =>
    rw [signs, ← List.append_assoc]
    refine ih (sound_turn hs x) _ ?_
    have hstep := Dated.step (s := { s with carriage := x.carriage }) h hs x.walk x.op
    rw [List.getLast?_append]
    have hlast : ((s.engine.sign? id x.op).toList.getLast?.or before.getLast?) =
        (s.engine.sign? id x.op).or before.getLast? := by
      cases s.engine.sign? id x.op <;> rfl
    rw [hlast]
    exact hstep

end Station
end PeerMesh
