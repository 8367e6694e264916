import PeerMesh.Proofs.Actor.Accounts

/-!
# The task puts everything in order

What comes of all that waits for the task is one sequence of jobs, in which each queue keeps its own
order. The engine goes through the jobs one by one, so that every query is answered between two of
them, and all that the engine reports is handed on as it comes, up to the end.
-/

namespace PeerMesh
set_option autoImplicit false

namespace Station
variable {κ μ : Type} [Carriage κ μ] {s : Station κ μ}

/-- What many turns add to the queued events, each turn for itself. A drain adds nothing. -/
def emitted (s : Station κ μ) : List (Turn κ) → List Event
  | [] => []
  | x :: turns =>
    (s.turn x).engine.events.drop s.engine.events.length ++ (s.turn x).emitted turns

/-- Operations do not take back what was reported. -/
theorem events_turn (hs : s.engine.Sound) {x : Turn κ} (hop : x.op ≠ .drain) :
    s.engine.events <+: (s.turn x).engine.events := by
  cases hhalt : (s.turn x).engine.stopped with
  | false =>
    obtain ⟨new, hnew, -⟩ := (performed_turn hs x).narrates hs hhalt hop
    exact ⟨new, hnew.symm⟩
  | true =>
    cases hstop : s.engine.stopped with
    | true => exact ((performed_turn hs x).still hs hstop).2 hop ▸ List.prefix_rfl
    | false =>
      have hlast : x.op = .shutdown := by
        by_contra hne
        rw [stopped_turn hs hne, hstop] at hhalt
        cases hhalt
      rw [engine_turn_shutdown hstop hlast]
      exact List.prefix_append s.engine.events [.stop]

/-- However often the queue is drained, every event is reported once, in the order in which the
engine emitted it. -/
theorem told_eq_emitted (hs : s.engine.Sound) (turns : List (Turn κ)) :
    s.told turns = s.engine.events ++ s.emitted turns := by
  induction turns generalizing s with
  | nil => exact (List.append_nil _).symm
  | cons x turns ih =>
    rw [told_cons, ih (sound_turn hs x), emitted]
    -- A drain moves events from one side to the other; any other turn adds some at the end.
    by_cases hop : x.op = .drain
    · have hdrained : (s.turn x).engine.events = [] := by
        rw [s.engine_turn_drain hop]
      rw [hop, hdrained, List.drop_nil]
      rfl
    · obtain ⟨new, hnew⟩ := events_turn hs hop
      rw [s.handed_of_ne hop, ← hnew, List.drop_left, List.nil_append, List.append_assoc]

theorem events_run_turns (s : Station κ μ) (j : Job κ) : (s.run j.turns).engine.events = [] := by
  have hdrain := (s.run ((j.task.op? j.now).toList.map
    (fun op => ⟨j.walk, j.carriage, op⟩))).engine_turn_drain (x := ⟨j.walk, j.carriage, .drain⟩) rfl
  rw [Job.turns, run_append]
  exact congrArg Engine.events hdrain

/-- Without a shutdown the engine does not report that it stopped. -/
theorem stop_notMem_told (self : PeerId) (name endpoint : String) (timing : Timing) (first : κ)
    {setup turns : List (Turn κ)} (hsetup : ∀ x ∈ setup, x.op ≠ .shutdown)
    (hturns : ∀ x ∈ turns, x.op ≠ .shutdown) : Event.stop ∉
      ((new (Engine.new self name endpoint timing : Engine μ) first).run setup).told turns := by
  let s : Station κ μ := new (Engine.new self name endpoint timing) first
  have hs : s.engine.Sound := Engine.sound_new self name endpoint timing
  have hblank :
      Story ([] ++ s.engine.events) ∧ (Picture.of ([] ++ s.engine.events)).Shows s.engine :=
    ⟨.nil, fun _ => rfl, fun _ _ => rfl⟩
  have hrun : (s.run (setup ++ turns)).engine.stopped = false :=
    stopped_run hs fun x hx => (List.mem_append.mp hx).elim (hsetup x) (hturns x)
  have hstop := (story_told hs hrun hblank).1.stop_not_mem
  rw [List.nil_append, told_append] at hstop
  exact fun hmem => hstop (List.mem_append_right _ hmem)

/-- All that is reported ends with the shutdown. -/
theorem told_snoc_shutdown {jobs : List (Job κ)} {j : Job κ} (hs : s.engine.Sound)
    (hrun : (s.run (Job.turnsOf jobs)).engine.stopped = false) (hj : j.task = .shutdown) :
    s.told (Job.turnsOf (jobs ++ [j])) = s.told (Job.turnsOf jobs) ++ [.stop] := by
  have hop : j.task.op? j.now = some .shutdown := by
    rw [hj]
    rfl
  rw [Job.turnsOf_snoc, Job.turns_of_some hop, told_append,
    told_shutdown (sound_run hs _) hrun rfl, ← List.append_assoc]
  rfl

end Station

namespace Actor
variable {κ μ : Type} [Carriage κ μ]

/-- The task did the jobs one by one, after the moves `beats`. -/
structure Linear (s : Station κ μ) (beats : List (Beat κ)) (jobs : List (Job κ))
    (a : Actor κ μ) : Prop where
  engine : a.station.engine = (s.run (Job.turnsOf jobs)).engine
  requests : jobs.filterMap (·.task.request?) ++ a.requests = posted beats
  inbox : jobs.filterMap (·.task.message?) ++ a.inbox <+: delivered beats
  sightings : jobs.filterMap (·.task.sighting?) ++ a.sightings <+: sighted beats
  events : a.events ++ a.station.engine.events = s.engine.events ++ s.emitted (Job.turnsOf jobs)
  handed : jobs ≠ [] → a.station.engine.events = []
  /-- A query is answered after all requests that were sent before it, and no others. -/
  answered : ∀ {earlier q later}, posted beats = earlier ++ .query q :: later →
    earlier.length < (jobs.filterMap (·.task.request?)).length →
    ∃ before j after, jobs = before ++ j :: after ∧ j.task = .request (.query q) ∧
      before.filterMap (·.task.request?) = earlier ∧
      a.answers[(earlier.filterMap Request.query?).length]? =
        some ((s.run (Job.turnsOf before)).engine.answer q)
  going : a.ended = false → (∀ j ∈ jobs, j.task ≠ .shutdown) ∧ .stop ∉ a.events ∧
    jobs.filterMap (·.task.message?) ++ a.inbox = delivered beats ∧
    jobs.filterMap (·.task.sighting?) ++ a.sightings = sighted beats
  /-- The end comes when there will be no more requests and all of them are done. -/
  finished : a.ended = true → isClosed beats = true ∧ ∃ before last, jobs = before ++ [last] ∧
    (∀ j ∈ before, j.task ≠ .shutdown) ∧ last.task = .shutdown ∧
    before.filterMap (·.task.request?) = posted beats ∧
    ∃ said, a.events = said ++ [.stop] ∧ .stop ∉ said
  /-- The end can be brought about at any time, by moves like any other. -/
  ends : ∀ walk now, (a.finish walk now).ended = true ∧ ∃ more, a.finish walk now = a.run more ∧
    ∀ x ∈ more, x.move = .close ∨ x.move = .poll .requests now

variable {s : Station κ μ} {beats : List (Beat κ)} {done : List (Job κ)} {a : Actor κ μ}

theorem Accounts.told (h : Accounts s beats done a) :
    a.events ++ a.station.engine.events = s.told (Job.turnsOf done) := by
  rw [h.events, Station.engine_of_record h.station]
  rfl

theorem Accounts.handed (h : Accounts s beats done a) (hdone : done ≠ []) :
    a.station.engine.events = [] := by
  obtain ⟨before, j, rfl⟩ := List.eq_nil_or_concat done |>.resolve_left hdone
  rw [Station.engine_of_record h.station, List.concat_eq_append, Job.turnsOf_snoc,
    Station.run_append]
  exact Station.events_run_turns _ j

/-- Where a query stands among the jobs. -/
theorem Accounts.answered (h : Accounts s beats done a) {earlier later : List Request} {q : Query}
    (hposted : posted beats = earlier ++ .query q :: later)
    (hlen : earlier.length < (done.filterMap (·.task.request?)).length) :
    ∃ before j after, done = before ++ j :: after ∧ j.task = .request (.query q) ∧
      before.filterMap (·.task.request?) = earlier ∧
      a.answers[(earlier.filterMap Request.query?).length]? =
        some ((s.run (Job.turnsOf before)).engine.answer q) := by
  -- The requests that were taken are a prefix of those that were sent, and a long enough one.
  have hprefix : earlier ++ [.query q] <+: done.filterMap (·.task.request?) := by
    have hfront : earlier ++ [.query q] <+: posted beats := by
      refine ⟨later, ?_⟩
      rw [hposted, List.append_assoc]
      rfl
    refine List.prefix_of_prefix_length_le hfront ⟨_, h.requests⟩ ?_
    rw [List.length_append]
    exact hlen
  obtain ⟨later', htaken⟩ := hprefix
  rw [List.append_assoc] at htaken
  obtain ⟨front, back, rfl, hfront, hback⟩ := List.filterMap_eq_append_iff.mp htaken.symm
  -- Jobs from other sources may stand between the last of the earlier requests and the query.
  obtain ⟨quiet, j, after, rfl, hquiet, hj, -⟩ := List.filterMap_eq_cons_iff.mp hback
  have hearlier : (front ++ quiet).filterMap (·.task.request?) = earlier := by
    rw [List.filterMap_append, hfront, List.filterMap_eq_nil_iff.mpr hquiet, List.append_nil]
  have htask : j.task = .request (.query q) := by
    cases ht : j.task <;> rw [ht] at hj <;> cases hj
    rfl
  have hcount : (s.replies (front ++ quiet)).length =
      (earlier.filterMap Request.query?).length := by
    rw [Station.length_replies, ← hearlier, List.filterMap_filterMap]
    rfl
  refine ⟨front ++ quiet, j, after, (List.append_assoc ..).symm, htask, hearlier, ?_⟩
  rw [h.answers, ← List.append_assoc, Station.replies_append, ← hcount,
    List.getElem?_append_right (Nat.le_refl _), Nat.sub_self, Station.replies, htask]
  rfl

/-- Whatever was done to a new engine before, and however its task is woken up after that. -/
theorem linear_run_new (self : PeerId) (name endpoint : String) (timing : Timing) (first : κ)
    (setup : List (Turn κ)) (hsetup : ∀ x ∈ setup, x.op ≠ .shutdown) (beats : List (Beat κ)) :
    let s : Station κ μ := (Station.new (Engine.new self name endpoint timing) first).run setup
    Linear s beats ((new s).jobs beats) ((new s).run beats) := by
  intro s
  have hs : s.engine.Sound := Station.sound_run (Engine.sound_new self name endpoint timing) setup
  have hquiet : ∀ {jobs : List (Job κ)}, (∀ j ∈ jobs, j.task ≠ .shutdown) →
      .stop ∉ s.told (Job.turnsOf jobs) := fun hjobs =>
    Station.stop_notMem_told self name endpoint timing first hsetup (Job.turnsOf_ne_shutdown hjobs)
  have h := accounts_run s beats
  constructor
  case engine => exact Station.engine_of_record h.station
  case requests => exact h.requests
  case inbox => exact h.inbox
  case sightings => exact h.sightings
  case events => exact h.told.trans (Station.told_eq_emitted hs _)
  case handed => exact h.handed
  case answered => exact h.answered
  case ends => exact fun walk now => ⟨ended_finish _ walk now, finish_eq_run _ walk now⟩
  case going =>
    intro hgoing
    obtain ⟨hjobs, hinbox, hsightings⟩ := h.going hgoing
    refine ⟨hjobs, ?_, hinbox, hsightings⟩
    intro hmem
    exact hquiet hjobs (h.told ▸ List.mem_append_left _ hmem)
  case finished =>
    intro hover
    obtain ⟨hempty, hclosed, before, last, hjobs, hlast, hbefore⟩ := h.finished hover
    refine ⟨h.closed ▸ hclosed, before, last, hjobs, hbefore, hlast, ?_,
      s.told (Job.turnsOf before), ?_, hquiet hbefore⟩
    · have hrequests := h.requests
      rw [hempty, List.append_nil, hjobs, filterMap_snoc, hlast] at hrequests
      exact (List.append_nil _).symm.trans hrequests
    · have hrun : (s.run (Job.turnsOf before)).engine.stopped = false := by
        have hrun' := Station.stopped_run hs (Job.turnsOf_ne_shutdown hbefore)
        exact hrun'.trans (Station.stopped_run (Engine.sound_new self name endpoint timing) hsetup)
      have hhanded := h.handed (hjobs ▸ List.append_ne_nil_of_right_ne_nil before (by simp))
      have htold := h.told
      rw [hhanded, List.append_nil, hjobs] at htold
      exact htold.trans (Station.told_snoc_shutdown hs hrun hlast)

/-- Bob greets while requests wait, and the last request is sent too late. -/
theorem linear_run_crowded :
    let ann : PeerId := ⟨.replicate 16 1, rfl⟩
    let bob : PeerId := ⟨.replicate 16 2, rfl⟩
    let net := Network.empty.bind "b"
    let greeting := (Wire.encode ⟨1, .hello ⟨"b", ["g"], 1, "bob", .empty⟩⟩).toOption.getD []
    let setup : List (Turn Network) := [⟨.ascending, net, .join "f"⟩]
    let beats : List (Beat Network) :=
      [.post (.query .ownGroups), .post (.join "g"), .post (.query .ownGroups), .post (.leave "f"),
        .deliver ⟨bob.routingId, greeting⟩, .poll .requests 0, .poll .requests 0, .close,
        .post (.join "h"), .poll .inbox 1, .poll .inbox 1, .poll .requests 2, .poll .clock 2,
        .poll .requests 3, .poll .requests 3, .poll .clock 4].map fun m => ⟨.ascending, net, m⟩
    let s : Station Network Network.Mailbox :=
      (Station.new (.new ann "ann" "a" .usual) net).run setup
    (∀ x ∈ setup, x.op ≠ .shutdown) ∧
      posted beats = [.query .ownGroups, .join "g", .query .ownGroups, .leave "f"] ∧
      ((new s).jobs beats).map (·.task) =
        [.request (.query .ownGroups), .request (.join "g"), .message ⟨bob.routingId, greeting⟩,
          .request (.query .ownGroups), .sweep, .request (.leave "f"), .shutdown] ∧
      ((new s).run beats).answers = [.groups ["f"], .groups ["f", "g"]] ∧
      ((new s).run beats).events = [.enter bob "bob" .empty "b", .join bob "bob" "g", .stop] ∧
      Linear s beats ((new s).jobs beats) ((new s).run beats) := by
  intro ann bob net greeting setup beats s
  have hsetup : ∀ x ∈ setup, x.op ≠ .shutdown := by
    intro x hx
    rw [List.mem_singleton.mp hx]
    exact Op.noConfusion
  exact ⟨hsetup, by decide +kernel, by decide +kernel, by decide +kernel, by decide +kernel,
    linear_run_new ann "ann" "a" .usual net setup hsetup beats⟩

end Actor
end PeerMesh
