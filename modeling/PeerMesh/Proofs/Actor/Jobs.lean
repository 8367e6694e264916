import PeerMesh.Actor
import PeerMesh.Proofs.Station.Reporting

/-!
# What the task does

Whenever the task is woken up it does one job, or it finds nothing to do. A job is one thing that
waited, a sweep over the peers, or the end. For the engine a job is one operation, or none, and
after it the events are taken. The carriage may change in any way between two moves.
-/

namespace PeerMesh
set_option autoImplicit false

/-- What the task takes from a queue, or does by itself. -/
inductive Task
  | request (request : Request)
  | message (delivery : Delivery)
  | sighting (sighting : Sighting)
  | sweep
  | shutdown
  deriving DecidableEq

def Request.query? : Request → Option Query
  | .query q => some q
  | _ => none

namespace Task

def op? (now : Nat) : Task → Option Op
  | request r => r.op? now
  | message d => some (.receive d.routingId d.content now)
  | sighting s => some (.discover s now)
  | sweep => some (.reap now)
  | shutdown => some .shutdown

def request? : Task → Option Request
  | request r => some r
  | _ => none

def message? : Task → Option Delivery
  | message d => some d
  | _ => none

def sighting? : Task → Option Sighting
  | sighting s => some s
  | _ => none

def query? (t : Task) : Option Query := t.request?.bind Request.query?

end Task

/-- A task at its time, with the carriage as the engine finds it. -/
structure Job (κ : Type) where
  walk : Walk
  carriage : κ
  now : Nat
  task : Task

namespace Job
variable {κ : Type}

/-- The turns of the engine in a job. -/
def turns (j : Job κ) : List (Turn κ) :=
  (j.task.op? j.now).toList.map (fun op => ⟨j.walk, j.carriage, op⟩) ++
    [⟨j.walk, j.carriage, .drain⟩]

def turnsOf (jobs : List (Job κ)) : List (Turn κ) := jobs.flatMap turns

theorem turnsOf_snoc (jobs : List (Job κ)) (j : Job κ) :
    turnsOf (jobs ++ [j]) = turnsOf jobs ++ j.turns := by
  rw [turnsOf, List.flatMap_append, List.flatMap_singleton]
  rfl

theorem turns_of_none {j : Job κ} (h : j.task.op? j.now = none) :
    j.turns = [⟨j.walk, j.carriage, .drain⟩] := by
  rw [turns, h]
  rfl

theorem turns_of_some {j : Job κ} {op : Op} (h : j.task.op? j.now = some op) :
    j.turns = [⟨j.walk, j.carriage, op⟩, ⟨j.walk, j.carriage, .drain⟩] := by
  rw [turns, h]
  rfl

theorem task_of_shutdown {j : Job κ} {x : Turn κ} (hx : x ∈ j.turns)
    (hop : x.op = .shutdown) : j.task = .shutdown := by
  unfold turns at hx
  rcases List.mem_append.mp hx with hx | hx
  · obtain ⟨op, hmem, rfl⟩ := List.mem_map.mp hx
    have hsome : j.task.op? j.now = some .shutdown := hop ▸ Option.mem_toList.mp hmem
    cases ht : j.task with
    | shutdown => rfl
    | request r =>
      rw [ht] at hsome
      cases r <;> cases hsome
    | message | sighting | sweep =>
      rw [ht] at hsome
      cases hsome
  · rw [List.mem_singleton.mp hx] at hop
    cases hop

theorem turnsOf_ne_shutdown {jobs : List (Job κ)}
    (h : ∀ j ∈ jobs, j.task ≠ .shutdown) : ∀ x ∈ turnsOf jobs, x.op ≠ .shutdown := by
  intro x hx hop
  obtain ⟨j, hj, hx⟩ := List.mem_flatMap.mp hx
  exact h j hj (task_of_shutdown hx hop)

end Job

namespace Station
variable {κ μ : Type}

/-- All of a station but its carriage. -/
def record (s : Station κ μ) : Engine μ × Array Note := (s.engine, s.journal)

theorem engine_of_record {s t : Station κ μ} (h : s.record = t.record) : s.engine = t.engine :=
  congrArg Prod.fst h

section
variable [Carriage κ μ] {s t : Station κ μ}

theorem turn_of_record (h : s.record = t.record) (x : Turn κ) : s.turn x = t.turn x := by
  obtain ⟨e, c, notes⟩ := s
  obtain ⟨e', c', notes'⟩ := t
  obtain ⟨rfl, rfl⟩ := Prod.mk.inj h
  rfl

theorem record_run (h : s.record = t.record) (turns : List (Turn κ)) :
    (s.run turns).record = (t.run turns).record := by
  cases turns with
  | nil => exact h
  | cons x turns =>
    have hsame : s.run (x :: turns) = t.run (x :: turns) := by
      change (s.turn x).run turns = (t.turn x).run turns
      rw [turn_of_record h]
    rw [hsame]

theorem handedBy_of_record (h : s.record = t.record) (turns : List (Turn κ)) :
    s.handedBy turns = t.handedBy turns := by
  cases turns with
  | nil => rfl
  | cons x turns =>
    have hhanded : s.handed x.op = t.handed x.op := by
      cases hop : x.op with
      | drain => exact congrArg Engine.events (engine_of_record h)
      | _ => rfl
    rw [handedBy, handedBy, hhanded, turn_of_record h]

theorem run_append (s : Station κ μ) (before after : List (Turn κ)) :
    s.run (before ++ after) = (s.run before).run after :=
  List.foldl_append

theorem handedBy_append (s : Station κ μ) (before after : List (Turn κ)) :
    s.handedBy (before ++ after) = s.handedBy before ++ (s.run before).handedBy after := by
  induction before generalizing s with
  | nil => rfl
  | cons x before ih =>
    rw [List.cons_append, handedBy, ih, handedBy, List.append_assoc]
    rfl

end
end Station

namespace Actor
variable {κ μ : Type}

def withCarriage (a : Actor κ μ) (c : κ) : Actor κ μ :=
  { a with station := { a.station with carriage := c } }

/-- What the task would take from a source. -/
def task? (a : Actor κ μ) (source : Source) : Option Task :=
  if a.ended then none
  else
    match source with
    | .requests =>
      match a.requests with
      | r :: _ => some (.request r)
      | [] => if a.closed then some .shutdown else none
    | .inbox => a.inbox.head?.map .message
    | .discovery => a.sightings.head?.map .sighting
    | .clock => some .sweep

/-- What the task needs for a job has been taken from its queue, if it was in one. -/
structure Takes (a : Actor κ μ) (t : Task) (b : Actor κ μ) : Prop where
  rest : b = { a with requests := b.requests, inbox := b.inbox, sightings := b.sightings }
  requests : a.requests = t.request?.toList ++ b.requests
  inbox : a.inbox = t.message?.toList ++ b.inbox
  sightings : a.sightings = t.sighting?.toList ++ b.sightings

variable [Carriage κ μ]

/-- The task did a job. -/
structure Works (a : Actor κ μ) (j : Job κ) (b : Actor κ μ) : Prop where
  station : b.station.record = (a.station.run j.turns).record
  events : b.events = a.events ++ a.station.handedBy j.turns
  answers : b.answers = a.answers ++ (j.task.query?.map a.station.engine.answer).toList
  requests : a.requests = j.task.request?.toList ++ b.requests
  inbox : a.inbox = j.task.message?.toList ++ b.inbox
  sightings : a.sightings = j.task.sighting?.toList ++ b.sightings
  closed : b.closed = a.closed
  going : a.ended = false
  ended : b.ended = decide (j.task = .shutdown)
  last : j.task = .shutdown → a.requests = [] ∧ a.closed = true

variable {a : Actor κ μ} {walk : Walk} {now : Nat} {source : Source} {task : Task}

theorem record_perform (a : Actor κ μ) (walk : Walk) (op : Op) (c : κ) :
    (a.perform walk op).station.record =
      (a.station.run [⟨walk, a.station.carriage, op⟩, ⟨walk, c, .drain⟩]).record := rfl

theorem events_perform (a : Actor κ μ) (walk : Walk) {op : Op} (hop : op ≠ .drain) (c : κ) :
    (a.perform walk op).events = a.events ++
      a.station.handedBy [⟨walk, a.station.carriage, op⟩, ⟨walk, c, .drain⟩] := by
  rw [Station.handedBy, Station.handed_of_ne _ hop, List.nil_append, Station.handedBy,
    Station.handedBy, List.append_nil]
  rfl

theorem Task.op?_ne_drain {task : Task} {now : Nat} {op : Op} (h : task.op? now = some op) :
    op ≠ .drain := by
  rintro rfl
  cases task with
  | request r => cases r <;> cases h
  | message | sighting | sweep | shutdown => cases h

/-- A job that is one operation of the engine. -/
theorem Takes.works {b : Actor κ μ} {op : Op} (h : a.Takes task b) (hgoing : a.ended = false)
    (hop : task.op? now = some op) (hquery : task.query? = none)
    (hlast : task = .shutdown → a.requests = [] ∧ a.closed = true) {ended : Bool}
    (hended : ended = decide (task = .shutdown)) :
    a.Works ⟨walk, a.station.carriage, now, task⟩ { b.perform walk op with ended } := by
  have hturns := Job.turns_of_some (j := ⟨walk, a.station.carriage, now, task⟩) hop
  have hstation : b.station = a.station := (congrArg station h.rest :)
  have hevents : b.events = a.events := (congrArg events h.rest :)
  have hanswers : b.answers = a.answers := (congrArg answers h.rest :)
  have hclosed : b.closed = a.closed := (congrArg closed h.rest :)
  refine ⟨?_, ?_, ?_, h.requests, h.inbox, h.sightings, hclosed, hgoing, hended, hlast⟩
  · rw [hturns, ← hstation]
    exact b.record_perform walk op b.station.carriage
  · rw [hturns, ← hstation, ← hevents]
    exact b.events_perform walk (Task.op?_ne_drain hop) b.station.carriage
  · dsimp only
    rw [hquery]
    exact hanswers.trans (List.append_nil _).symm

theorem works_query (hgoing : a.ended = false) {q : Query} {rest : List Request}
    (hrequests : a.requests = .query q :: rest) :
    a.Works ⟨walk, a.station.carriage, now, .request (.query q)⟩
      ({ a with requests := rest }.handle walk now (.query q)) := by
  have hturns := Job.turns_of_none (j := ⟨walk, a.station.carriage, now, .request (.query q)⟩) rfl
  refine ⟨?_, ?_, rfl, hrequests, rfl, rfl, rfl, hgoing, hgoing, fun h => by cases h⟩
  · rw [hturns]
    rfl
  · rw [hturns]
    exact congrArg (a.events ++ ·) (List.append_nil _).symm

theorem works_request (hgoing : a.ended = false) {r : Request} {rest : List Request}
    (hrequests : a.requests = r :: rest) :
    a.Works ⟨walk, a.station.carriage, now, .request r⟩
      ({ a with requests := rest }.handle walk now r) := by
  have htakes : a.Takes (.request r) { a with requests := rest } := ⟨rfl, hrequests, rfl, rfl⟩
  cases r with
  | query q => exact works_query hgoing hrequests
  | setHeader | join | leave | whisper | shout | requirePeer =>
    exact htakes.works hgoing rfl rfl Task.noConfusion hgoing

/-- Waking up the task makes it do the job that is there, or nothing. -/
theorem poll_cases (a : Actor κ μ) (walk : Walk) (now : Nat) (source : Source) :
    match a.task? source with
    | some task => a.Works ⟨walk, a.station.carriage, now, task⟩ (a.poll walk now source)
    | none => a.poll walk now source = a := by
  unfold task? poll
  by_cases hrun : a.ended
  · rw [if_pos hrun, if_pos hrun]
  · have hgoing := Bool.eq_false_iff.mpr hrun
    rw [if_neg hrun, if_neg hrun]
    cases source with
    | requests =>
      dsimp only
      cases hin : a.requests with
      | nil =>
        dsimp only
        by_cases hclosed : a.closed
        · have htakes : a.Takes .shutdown a := ⟨rfl, rfl, rfl, rfl⟩
          rw [if_pos hclosed, if_pos hclosed]
          exact htakes.works hgoing rfl rfl (fun _ => ⟨hin, hclosed⟩) rfl
        · rw [if_neg hclosed, if_neg hclosed]
      | cons r rest => exact works_request hgoing hin
    | inbox =>
      dsimp only
      cases hin : a.inbox with
      | nil => rfl
      | cons d rest =>
        have htakes : a.Takes (.message d) { a with inbox := rest } := ⟨rfl, rfl, hin, rfl⟩
        exact htakes.works hgoing rfl rfl Task.noConfusion hgoing
    | discovery =>
      dsimp only
      cases hin : a.sightings with
      | nil => rfl
      | cons d rest =>
        have htakes : a.Takes (.sighting d) { a with sightings := rest } := ⟨rfl, rfl, rfl, hin⟩
        exact htakes.works hgoing rfl rfl Task.noConfusion hgoing
    | clock =>
      have htakes : a.Takes .sweep a := ⟨rfl, rfl, rfl, rfl⟩
      exact htakes.works hgoing rfl rfl Task.noConfusion hgoing

theorem works_poll (h : a.task? source = some task) :
    a.Works ⟨walk, a.station.carriage, now, task⟩ (a.poll walk now source) := by
  have hcases := a.poll_cases walk now source
  rw [h] at hcases
  exact hcases

theorem poll_of_none (h : a.task? source = none) : a.poll walk now source = a := by
  have hcases := a.poll_cases walk now source
  rw [h] at hcases
  exact hcases

end Actor
end PeerMesh
