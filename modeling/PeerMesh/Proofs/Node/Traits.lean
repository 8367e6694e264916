import PeerMesh.Node
import PeerMesh.Proofs.Actor.Jobs

/-!
# What requests change

Of all that an engine tells of itself, requests change its headers and its groups. Nothing else that
a running engine does changes them, so it can be told beforehand whether requests that wait will be
granted, and what will have come of them.
-/

namespace PeerMesh
set_option autoImplicit false

/-- What the application decides of an engine. -/
structure Traits where
  name : String
  headers : Headers
  joined : SortedSet String

def Engine.traits {μ : Type} (e : Engine μ) : Traits := ⟨e.name, e.headers, e.joined⟩

namespace Traits

/-- What is answered to a request. -/
def check (t : Traits) : Request → Except CommandError Unit
  | .setHeader key value => checkHeader t.headers key value
  | .join group => if t.joined.contains group then .ok () else checkGroup t.joined.size group
  | _ => .ok ()

/-- What comes of a request that is granted. -/
def after (t : Traits) : Request → Traits
  | .setHeader key value => { t with headers := t.headers.insert key value }
  | .join group => { t with joined := t.joined.insert group }
  | .leave group => { t with joined := t.joined.erase group }
  | _ => t

/-- Requests that will all be granted, one after the other. -/
def Grants : Traits → List Request → Prop
  | _, [] => True
  | t, r :: rest => t.check r = .ok () ∧ (t.after r).Grants rest

theorem grants_snoc {t : Traits} {requests : List Request} {r : Request} :
    t.Grants (requests ++ [r]) ↔
      t.Grants requests ∧ (requests.foldl after t).check r = .ok () := by
  induction requests generalizing t with
  | nil => exact ⟨fun h => ⟨trivial, h.1⟩, fun h => ⟨h.2, trivial⟩⟩
  | cons q requests ih =>
    rw [List.cons_append, Grants, ih, Grants, List.foldl_cons, and_assoc]

end Traits

theorem Engine.SameSelf.traits {μ : Type} {e e' : Engine μ} (h : e.SameSelf e') :
    e'.traits = e.traits := by
  rw [Engine.traits, h.name, h.headers, h.joined]
  rfl

namespace Station
variable {κ μ : Type} [Carriage κ μ] {s t : Station κ μ} {r : Request} {now : Nat} {op : Op}

theorem traits_broadcast (hs : s.engine.Sound) (walk : Walk) (body : Body) :
    (s.broadcast walk body).engine.traits = s.engine.traits :=
  ((announced_broadcast hs walk body).shifts hs).self.traits

/-- An operation that is no command of the application changes nothing of what it decides. -/
theorem Performed.traits {near : PeerId → String → Prop} (h : s.Performed near op t)
    (hs : s.engine.Sound) (hheader : ∀ key value, op ≠ .setHeader key value)
    (hjoin : ∀ group, op ≠ .join group) (hleave : ∀ group, op ≠ .leave group) :
    t.engine.traits = s.engine.traits := by
  cases h with
  | worked h => exact (h.shifts hs).self.traits
  | dressed => exact absurd rfl (hheader _ _)
  | joined => exact absurd rfl (hjoin _)
  | left => exact absurd rfl (hleave _)
  | halted _ he => exact (congrArg Engine.traits he :)
  | drained he => exact (congrArg Engine.traits he :)
  | received _ _ _ h => exact (h.self hs).traits

/-- What the engine answers to a request. -/
theorem perform_request (s : Station κ μ) (walk : Walk) (hop : r.op? now = some op) :
    (s.perform walk op).1 = s.engine.traits.check r := by
  cases r with
  | query => cases hop
  | setHeader key value =>
    obtain rfl := Option.some.inj hop
    change (s.setHeader key value).1 = checkHeader s.engine.headers key value
    unfold setHeader
    cases checkHeader s.engine.headers key value <;> rfl
  | join group =>
    obtain rfl := Option.some.inj hop
    change (s.join walk group).1 = if s.engine.joined.contains group then .ok () else
      checkGroup s.engine.joined.size group
    unfold join
    split
    · rfl
    · cases checkGroup s.engine.joined.size group <;> rfl
  | leave | whisper | shout | requirePeer =>
    obtain rfl := Option.some.inj hop
    rfl

theorem traits_join (hs : s.engine.Sound) (walk : Walk) {group : String}
    (hok : s.engine.traits.check (.join group) = .ok ()) :
    (s.join walk group).2.engine.traits = s.engine.traits.after (.join group) := by
  unfold Traits.check at hok
  unfold join
  split
  · rename_i hold
    exact (congrArg (Traits.mk s.engine.name s.engine.headers)
      (SortedSet.insert_of_contains hold).symm :)
  · rename_i hnew
    have hroom : checkGroup s.engine.joined.size group = .ok () := (if_neg hnew).symm.trans hok
    rw [hroom]
    exact traits_broadcast (s := (s.edit (·.enlist group)).note _) (hs.enlist hroom) walk _

theorem traits_leave (hs : s.engine.Sound) (walk : Walk) (group : String) :
    (s.leave walk group).engine.traits = s.engine.traits.after (.leave group) := by
  unfold leave
  split
  · exact traits_broadcast (s := (s.edit (·.delist group)).note _) (hs.delist group) walk _
  · rename_i hnew
    exact (congrArg (Traits.mk s.engine.name s.engine.headers)
      (SortedSet.erase_of_not_contains (Bool.eq_false_iff.mpr hnew)).symm :)

/-- What comes of a request that the engine grants. -/
theorem traits_step_request (hs : s.engine.Sound) (walk : Walk) (hop : r.op? now = some op)
    (hok : s.engine.traits.check r = .ok ()) :
    (s.step walk op).engine.traits = s.engine.traits.after r := by
  cases r with
  | query => cases hop
  | setHeader key value =>
    obtain rfl := Option.some.inj hop
    change (s.setHeader key value).2.engine.traits = _
    have hheader : checkHeader s.engine.headers key value = .ok () := hok
    rw [setHeader, hheader]
    rfl
  | join group =>
    obtain rfl := Option.some.inj hop
    exact traits_join hs walk hok
  | leave group =>
    obtain rfl := Option.some.inj hop
    exact traits_leave hs walk group
  | whisper | shout | requirePeer =>
    obtain rfl := Option.some.inj hop
    exact (performed_anywhere hs walk _).traits hs nofun nofun nofun

theorem perform_of_check (hs : s.engine.Sound) (walk : Walk) (hop : r.op? now = some op)
    (hok : s.engine.traits.check r = .ok ()) :
    ∃ t, s.perform walk op = (.ok (), t) ∧ t.engine.Sound ∧
      t.engine.traits = s.engine.traits.after r :=
  ⟨s.step walk op, Prod.ext ((s.perform_request walk hop).trans hok) rfl, sound_step hs walk op,
    traits_step_request hs walk hop hok⟩

/-- What comes of a job, if it does not stand for a request that is refused. -/
theorem traits_run_turns (hs : s.engine.Sound) {j : Job κ}
    (hok : ∀ r, j.task.request? = some r → s.engine.traits.check r = .ok ()) :
    (s.run j.turns).engine.traits = j.task.request?.elim s.engine.traits s.engine.traits.after := by
  cases hop : j.task.op? j.now with
  | none =>
    rw [Job.turns_of_none hop]
    cases htask : j.task with
    | request r =>
      rw [htask] at hop
      cases r <;> cases hop
      rfl
    | message | sighting | sweep | shutdown =>
      rw [htask] at hop
      cases hop
  | some op =>
    let s' : Station κ μ := { s with carriage := j.carriage }
    have hdrain : (s.run j.turns).engine.traits = (s'.step j.walk op).engine.traits := by
      rw [Job.turns_of_some hop]
      rfl
    rw [hdrain]
    cases htask : j.task with
    | request r =>
      rw [htask] at hop hok
      exact traits_step_request (s := s') hs j.walk hop (hok r rfl)
    | message | sighting | sweep | shutdown =>
      rw [htask] at hop
      obtain rfl := Option.some.inj hop
      exact (performed_anywhere (s := s') hs j.walk _).traits hs nofun nofun nofun

end Station
end PeerMesh
