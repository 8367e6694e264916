import Mathlib.Data.List.Induction
import PeerMesh.Proofs.Actor.Jobs

/-!
# The account of what the task does

Requests, messages, reports of discovery and the clock compete for the task, and any of them may win
each time. `Accounts` is the invariant: it holds the state of the task against the jobs that it has
done so far and against what was put into the queues.
-/

namespace PeerMesh
set_option autoImplicit false

namespace Station
variable {κ μ : Type} [Carriage κ μ]

/-- What the queries among many jobs are answered. -/
def replies (s : Station κ μ) : List (Job κ) → List Answer
  | [] => []
  | j :: jobs => (j.task.query?.map s.engine.answer).toList ++ (s.run j.turns).replies jobs

theorem replies_append (s : Station κ μ) (before after : List (Job κ)) :
    s.replies (before ++ after) =
      s.replies before ++ (s.run (Job.turnsOf before)).replies after := by
  induction before generalizing s with
  | nil => rfl
  | cons j before ih =>
    have hturns : Job.turnsOf (j :: before) = j.turns ++ Job.turnsOf before := rfl
    rw [List.cons_append, replies, ih, replies, List.append_assoc, hturns, run_append]

theorem length_replies (s : Station κ μ) (jobs : List (Job κ)) :
    (s.replies jobs).length = (jobs.filterMap (·.task.query?)).length := by
  induction jobs generalizing s with
  | nil => rfl
  | cons j jobs ih =>
    rw [replies, List.length_append, ih, List.filterMap_cons]
    cases j.task.query? with
    | none => exact Nat.zero_add _
    | some q => exact Nat.add_comm ..

end Station

namespace Actor

/-- A move, with the carriage as the engine finds it. -/
structure Beat (κ : Type) where
  walk : Walk
  carriage : κ
  move : Move

namespace Move

def request? : Move → Option Request
  | post r => some r
  | _ => none

def delivery? : Move → Option Delivery
  | deliver d => some d
  | _ => none

def sighting? : Move → Option Sighting
  | sight s => some s
  | _ => none

end Move

section
variable {κ : Type}

/-- The requests that were sent before there were to be no more. -/
def posted (beats : List (Beat κ)) : List Request :=
  (beats.takeWhile fun x => x.move ≠ .close).filterMap (·.move.request?)

def isClosed (beats : List (Beat κ)) : Bool := beats.any fun x => x.move = .close

def delivered (beats : List (Beat κ)) : List Delivery := beats.filterMap (·.move.delivery?)

def sighted (beats : List (Beat κ)) : List Sighting := beats.filterMap (·.move.sighting?)

theorem posted_cons (x : Beat κ) (beats : List (Beat κ)) : posted (x :: beats) =
    if x.move = .close then [] else x.move.request?.toList ++ posted beats := by
  split
  · rename_i hx
    simp [posted, hx]
  · rename_i hx
    rw [posted, List.takeWhile_cons_of_pos (by simpa using hx), List.filterMap_cons]
    cases x.move.request? <;> rfl

theorem posted_snoc (beats : List (Beat κ)) (x : Beat κ) : posted (beats ++ [x]) =
    posted beats ++ if isClosed beats then [] else x.move.request?.toList := by
  induction beats with
  | nil =>
    rw [List.nil_append, posted_cons]
    split
    · rename_i hx
      rw [hx]
      rfl
    · exact List.append_nil _
  | cons y beats ih =>
    rw [List.cons_append, posted_cons, posted_cons, isClosed, List.any_cons]
    by_cases hy : y.move = .close
    · simp [hy]
    · rw [if_neg hy, if_neg hy, ih, decide_eq_false hy, Bool.false_or, List.append_assoc]
      rfl

end

section
variable {κ μ : Type} [Carriage κ μ]

def beat (a : Actor κ μ) (x : Beat κ) : Actor κ μ := (a.withCarriage x.carriage).move x.walk x.move

def run (a : Actor κ μ) (beats : List (Beat κ)) : Actor κ μ := beats.foldl beat a

omit [Carriage κ μ] in
/-- The job that the task does in a move. -/
def job? (a : Actor κ μ) (x : Beat κ) : Option (Job κ) :=
  match x.move with
  | .poll source now => (a.task? source).map fun task => ⟨x.walk, x.carriage, now, task⟩
  | _ => none

/-- The jobs that the task does in many moves. -/
def jobs (a : Actor κ μ) : List (Beat κ) → List (Job κ)
  | [] => []
  | x :: beats => (a.job? x).toList ++ (a.beat x).jobs beats

theorem run_snoc (a : Actor κ μ) (beats : List (Beat κ)) (x : Beat κ) :
    a.run (beats ++ [x]) = (a.run beats).beat x := by
  rw [run, List.foldl_append]
  rfl

theorem jobs_snoc (a : Actor κ μ) (beats : List (Beat κ)) (x : Beat κ) :
    a.jobs (beats ++ [x]) = a.jobs beats ++ ((a.run beats).job? x).toList := by
  induction beats generalizing a with
  | nil => exact List.append_nil _
  | cons y beats ih =>
    rw [List.cons_append, jobs, ih, jobs, List.append_assoc]
    rfl

omit [Carriage κ μ] in
/-- All that a move does if it leads to no job: it puts something into a queue that is still read,
or says that there will be no more requests. -/
def queue (a : Actor κ μ) (m : Move) : Actor κ μ :=
  { a with
    requests := a.requests ++ if a.closed then [] else m.request?.toList
    closed := a.closed || decide (m = .close)
    inbox := a.inbox ++ if a.ended then [] else m.delivery?.toList
    sightings := a.sightings ++ if a.ended then [] else m.sighting?.toList }

variable {a : Actor κ μ} {x : Beat κ} {j : Job κ}

/-- What the carriage was before a job does not matter, since the job brings its own. -/
theorem Works.of_withCarriage {b : Actor κ μ} {c : κ} (h : (a.withCarriage c).Works j b) :
    a.Works j b := by
  have hrecord : (a.withCarriage c).station.record = a.station.record := rfl
  refine ⟨?_, ?_, h.answers, h.requests, h.inbox, h.sightings, h.closed, h.going, h.ended, h.last⟩
  · rw [h.station, Station.record_run hrecord]
  · rw [h.events, Station.handedBy_of_record hrecord]
    rfl

theorem works_beat (h : a.job? x = some j) : a.Works j (a.beat x) := by
  unfold job? at h
  unfold beat
  split at h
  · rename_i source now hmove
    obtain ⟨task, htask, rfl⟩ := Option.map_eq_some_iff.mp h
    rw [hmove, move]
    exact (works_poll (a := a.withCarriage x.carriage) htask).of_withCarriage
  · cases h

theorem move_of_none (walk : Walk) {m : Move} (h : ∀ source now, m = .poll source now →
    a.task? source = none) : a.move walk m = a.queue m := by
  cases m with
  | poll source now =>
    rw [move, poll_of_none (h source now rfl)]
    simp [queue, Move.request?, Move.delivery?, Move.sighting?]
  | post | close | deliver | sight =>
    obtain ⟨station, requests, closed, inbox, sightings, answers, events, ended⟩ := a
    cases closed <;> cases ended <;> simp [move, post, close, deliver, sight, queue, Move.request?,
      Move.delivery?, Move.sighting?]

theorem beat_of_no_job (h : a.job? x = none) :
    a.beat x = (a.withCarriage x.carriage).queue x.move := by
  refine move_of_none x.walk fun source now hmove => ?_
  rw [job?, hmove] at h
  exact Option.map_eq_none_iff.mp h

/-! ### The account of a run -/

/-- `jobs` is what the task has done after the moves `beats`, when it started with `s`. -/
structure Accounts (s : Station κ μ) (beats : List (Beat κ)) (jobs : List (Job κ))
    (a : Actor κ μ) : Prop where
  station : a.station.record = (s.run (Job.turnsOf jobs)).record
  events : a.events = s.handedBy (Job.turnsOf jobs)
  answers : a.answers = s.replies jobs
  requests : jobs.filterMap (·.task.request?) ++ a.requests = posted beats
  closed : a.closed = isClosed beats
  inbox : jobs.filterMap (·.task.message?) ++ a.inbox <+: delivered beats
  sightings : jobs.filterMap (·.task.sighting?) ++ a.sightings <+: sighted beats
  going : a.ended = false → (∀ j ∈ jobs, j.task ≠ .shutdown) ∧
    jobs.filterMap (·.task.message?) ++ a.inbox = delivered beats ∧
    jobs.filterMap (·.task.sighting?) ++ a.sightings = sighted beats
  finished : a.ended = true → a.requests = [] ∧ a.closed = true ∧ ∃ before j, jobs = before ++ [j] ∧
    j.task = .shutdown ∧ ∀ i ∈ before, i.task ≠ .shutdown

variable {s : Station κ μ} {beats : List (Beat κ)} {done : List (Job κ)} {b : Actor κ μ}

theorem accounts_new (s : Station κ μ) : Accounts s [] [] (new s) where
  station := rfl
  events := rfl
  answers := rfl
  requests := rfl
  closed := rfl
  inbox := List.prefix_rfl
  sightings := List.prefix_rfl
  going _ := ⟨fun _ h => absurd h List.not_mem_nil, rfl, rfl⟩
  finished h := by cases h

theorem isClosed_snoc (beats : List (Beat κ)) (x : Beat κ) :
    isClosed (beats ++ [x]) = (isClosed beats || decide (x.move = .close)) := by
  rw [isClosed, List.any_append]
  simp [isClosed]

theorem filterMap_snoc {α β : Type} (f : α → Option β) (l : List α) (x : α) :
    (l ++ [x]).filterMap f = l.filterMap f ++ (f x).toList := by
  rw [List.filterMap_append, List.filterMap_cons]
  cases f x <;> rfl

/-- Whatever comes after the end is lost, but until then nothing is. -/
theorem prefix_put {α : Type} {l all : List α} {ended : Bool} (h : l <+: all)
    (hall : ended = false → l = all) (new : List α) : (l ++ if ended then [] else new) <+: all ++ new := by
  cases ended with
  | true =>
    rw [if_pos rfl, List.append_nil]
    exact h.trans (List.prefix_append ..)
  | false =>
    obtain rfl := hall rfl
    exact List.prefix_rfl

theorem Accounts.queue (h : Accounts s beats done a) (x : Beat κ) :
    Accounts s (beats ++ [x]) done ((a.withCarriage x.carriage).queue x.move) where
  station := h.station
  events := h.events
  answers := h.answers
  requests := by
    rw [posted_snoc, ← h.requests, ← h.closed, List.append_assoc]
    rfl
  closed := by
    rw [isClosed_snoc, ← h.closed]
    rfl
  inbox := by
    rw [delivered, filterMap_snoc]
    have hput := prefix_put h.inbox (fun hg => (h.going hg).2.1) x.move.delivery?.toList
    rw [List.append_assoc] at hput
    exact hput
  sightings := by
    rw [sighted, filterMap_snoc]
    have hput := prefix_put h.sightings (fun hg => (h.going hg).2.2) x.move.sighting?.toList
    rw [List.append_assoc] at hput
    exact hput
  going hgoing := by
    have hgoing' : a.ended = false := hgoing
    obtain ⟨hrun, hinbox, hsightings⟩ := h.going hgoing'
    refine ⟨hrun, ?_, ?_⟩
    · rw [delivered, filterMap_snoc, ← delivered, ← hinbox, List.append_assoc]
      change _ ++ (a.inbox ++ if a.ended then [] else _) = _
      rw [hgoing']
      rfl
    · rw [sighted, filterMap_snoc, ← sighted, ← hsightings, List.append_assoc]
      change _ ++ (a.sightings ++ if a.ended then [] else _) = _
      rw [hgoing']
      rfl
  finished hover := by
    obtain ⟨hempty, hclosed, hlast⟩ := h.finished hover
    refine ⟨?_, ?_, hlast⟩
    · change a.requests ++ (if a.closed then [] else _) = []
      rw [hempty, hclosed]
      rfl
    · change (a.closed || _) = true
      rw [hclosed]
      rfl

theorem Accounts.works (h : Accounts s beats done a) (hw : a.Works j b) {source : Source}
    {now : Nat} (hx : x.move = .poll source now) : Accounts s (beats ++ [x]) (done ++ [j]) b := by
  obtain ⟨hgoing, hinbox, hsightings⟩ := h.going hw.going
  have hturns := Job.turnsOf_snoc done j
  have hposted : posted (beats ++ [x]) = posted beats := by
    rw [posted_snoc, hx]
    simp [Move.request?]
  have hdelivered : delivered (beats ++ [x]) = delivered beats := by
    rw [delivered, filterMap_snoc, hx]
    exact List.append_nil _
  have hsighted : sighted (beats ++ [x]) = sighted beats := by
    rw [sighted, filterMap_snoc, hx]
    exact List.append_nil _
  have hinbox' :
      (done ++ [j]).filterMap (·.task.message?) ++ b.inbox = delivered (beats ++ [x]) := by
    rw [filterMap_snoc, List.append_assoc, ← hw.inbox, hinbox, hdelivered]
  have hsightings' :
      (done ++ [j]).filterMap (·.task.sighting?) ++ b.sightings = sighted (beats ++ [x]) := by
    rw [filterMap_snoc, List.append_assoc, ← hw.sightings, hsightings, hsighted]
  refine ⟨?_, ?_, ?_, ?_, ?_, hinbox' ▸ List.prefix_rfl, hsightings' ▸ List.prefix_rfl,
    fun hg => ⟨?_, hinbox', hsightings'⟩, fun hend => ?_⟩
  -- The carriage that the earlier jobs left behind is lost, but the new job brings its own.
  · rw [hw.station, Station.record_run h.station, hturns, Station.run_append]
  · rw [hw.events, h.events, Station.handedBy_of_record h.station, hturns, Station.handedBy_append]
  · have hengine := Station.engine_of_record h.station
    rw [hw.answers, h.answers, hengine, Station.replies_append, Station.replies, Station.replies,
      List.append_nil]
  · rw [filterMap_snoc, List.append_assoc, ← hw.requests, h.requests, hposted]
  · rw [hw.closed, h.closed, isClosed_snoc, hx]
    simp
  · intro i hi
    rw [hw.ended, decide_eq_false_iff_not] at hg
    rcases List.mem_append.mp hi with hi | hi
    · exact hgoing i hi
    · rw [List.mem_singleton.mp hi]
      exact hg
  · rw [hw.ended, decide_eq_true_eq] at hend
    obtain ⟨hempty, hclosed⟩ := hw.last hend
    have hnone : b.requests = [] := by
      have hrequests := hw.requests
      rw [hend, hempty] at hrequests
      exact hrequests.symm
    exact ⟨hnone, hw.closed.trans hclosed, done, j, rfl, hend, hgoing⟩

/-- Every move keeps the account in order. -/
theorem Accounts.beat (h : Accounts s beats done a) (x : Beat κ) :
    Accounts s (beats ++ [x]) (done ++ (a.job? x).toList) (a.beat x) := by
  cases hj : a.job? x with
  | none =>
    rw [beat_of_no_job hj, Option.toList_none, List.append_nil]
    exact h.queue x
  | some j =>
    have hworks := works_beat hj
    rw [job?] at hj
    split at hj
    · rename_i source now hmove
      exact h.works hworks hmove
    · cases hj

theorem accounts_run (s : Station κ μ) (beats : List (Beat κ)) :
    Accounts s beats ((new s).jobs beats) ((new s).run beats) := by
  -- From the end: whether a move leads to a job depends on all the moves before it.
  induction beats using List.reverseRecOn with
  | nil => exact accounts_new s
  | append_singleton beats x ih =>
    rw [jobs_snoc, run_snoc]
    exact ih.beat x

/-! ### The end -/

theorem poll_of_ended (h : a.ended = true) (walk : Walk) (now : Nat) (source : Source) :
    a.poll walk now source = a := by
  unfold poll
  rw [if_pos h]

theorem takeRequests_of_ended (h : a.ended = true) (walk : Walk) (now : Nat) :
    a.takeRequests walk now = a := by
  unfold takeRequests
  generalize a.requests = waiting
  induction waiting with
  | nil => rfl
  | cons r waiting ih => rw [List.foldl_cons, poll_of_ended h, ih]

/-- As long as the task has not ended it takes whatever requests there are. -/
theorem takes_all (walk : Walk) (now : Nat) (hgoing : a.ended = false) :
    (a.takeRequests walk now).requests = [] ∧
      (a.takeRequests walk now).closed = a.closed ∧ (a.takeRequests walk now).ended = false := by
  unfold takeRequests
  generalize hwaiting : a.requests = waiting
  induction waiting generalizing a with
  | nil => exact ⟨hwaiting, rfl, hgoing⟩
  | cons r waiting ih =>
    have htask : a.task? .requests = some (.request r) := by
      rw [task?, hgoing, hwaiting]
      rfl
    have hw : a.Works ⟨walk, a.station.carriage, now, .request r⟩ (a.poll walk now .requests) :=
      works_poll htask
    have hrest : (a.poll walk now .requests).requests = waiting := by
      have hrequests := hw.requests
      rw [hwaiting] at hrequests
      exact (List.cons.inj hrequests).2.symm
    obtain ⟨hempty, hclosed, hgoing'⟩ := ih hw.ended hrest
    exact ⟨hempty, hclosed.trans hw.closed, hgoing'⟩

theorem ended_finish (a : Actor κ μ) (walk : Walk) (now : Nat) :
    (a.finish walk now).ended = true := by
  cases hend : a.ended with
  | true =>
    have hclose : a.close.ended = true := hend
    rw [finish, takeRequests_of_ended hclose, poll_of_ended hclose]
    exact hclose
  | false =>
    obtain ⟨hempty, hclosed, hgoing⟩ := takes_all (a := a.close) walk now hend
    have htask : (a.close.takeRequests walk now).task? .requests = some .shutdown := by
      rw [task?, hgoing, hempty, hclosed]
      rfl
    exact (works_poll htask).ended

theorem takeRequests_eq_run (a : Actor κ μ) (walk : Walk) (now : Nat) :
    ∃ more, a.takeRequests walk now = a.run more ∧ ∀ x ∈ more, x.move = .poll .requests now := by
  unfold takeRequests
  generalize a.requests = waiting
  induction waiting generalizing a with
  | nil => exact ⟨[], rfl, fun _ h => absurd h List.not_mem_nil⟩
  | cons r waiting ih =>
    obtain ⟨more, hmore, hpolls⟩ := ih (a.poll walk now .requests)
    refine ⟨⟨walk, a.station.carriage, .poll .requests now⟩ :: more, hmore, ?_⟩
    exact List.forall_mem_cons.mpr ⟨rfl, hpolls⟩

/-- The way to the end is made of moves like any other. -/
theorem finish_eq_run (a : Actor κ μ) (walk : Walk) (now : Nat) :
    ∃ more, a.finish walk now = a.run more ∧
      ∀ x ∈ more, x.move = .close ∨ x.move = .poll .requests now := by
  obtain ⟨more, hmore, hpolls⟩ := a.close.takeRequests_eq_run walk now
  let b := a.close.takeRequests walk now
  refine ⟨⟨walk, a.station.carriage, .close⟩ :: more ++
    [⟨walk, b.station.carriage, .poll .requests now⟩], ?_, ?_⟩
  · have hrun : a.run (⟨walk, a.station.carriage, .close⟩ :: more) = b := hmore.symm
    rw [run_snoc, hrun]
    rfl
  · intro x hx
    rcases List.mem_append.mp hx with hx | hx
    · rcases List.mem_cons.mp hx with rfl | hx
      · exact .inl rfl
      · exact .inr (hpolls x hx)
    · rw [List.mem_singleton.mp hx]
      exact .inr rfl

end

end Actor

end PeerMesh
