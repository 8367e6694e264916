import PeerMesh.Proofs.Station.Story

/-!
# All that an engine reports

Until its first shutdown an engine tells a story. The shutdown adds that the engine has stopped, and
that is the end: a stopped engine knows nobody, so whatever is asked of it, it neither reports
nor sends anything more.
-/

namespace PeerMesh
set_option autoImplicit false

variable {κ μ : Type}

theorem Engine.Sound.get?_of_stopped {e : Engine μ} (hs : e.Sound) (hstop : e.stopped = true)
    (id : PeerId) : e.roster.get? id = none := by
  rw [(hs.halted hstop).1, SortedMap.get?_empty]

namespace Station
variable [Carriage κ μ] {near : PeerId → String → Prop} {s t : Station κ μ}

/-! ### After the end -/

theorem Chore.still (h : s.Chore near t) (hs : s.engine.Sound) (hstop : s.engine.stopped = true) :
    t.engine = s.engine ∧ t.carriage = s.carriage := by
  have hnone := hs.get?_of_stopped hstop
  cases h with
  | jot he hc => exact ⟨he, hc⟩
  | post id body =>
    rw [post_of_none (hnone id)]
    exact ⟨rfl, rfl⟩
  | evade id =>
    rw [evade_of_none (hnone id)]
    exact ⟨rfl, rfl⟩
  | remove id =>
    rw [engine_remove, Engine.drop_of_none (hnone id)]
    exact ⟨rfl, s.carriage_remove id⟩
  | meet now hrun =>
    rw [hstop] at hrun
    cases hrun
  | refresh id now => exact ⟨Engine.editPeer_of_none (hnone id) _, rfl⟩

theorem Chores.still (h : s.Chores near t) (hs : s.engine.Sound) (hstop : s.engine.stopped = true) :
    t.engine = s.engine ∧ t.carriage = s.carriage := by
  induction h with
  | refl => exact ⟨rfl, rfl⟩
  | tail _ h ih =>
    obtain ⟨he, hc⟩ := ih
    have hstill := h.still (he ▸ hs) (he ▸ hstop)
    exact ⟨hstill.1.trans he, hstill.2.trans hc⟩

/-- Nobody is left who could be told. -/
theorem Announced.still {body : Body} {ids : List PeerId} (h : s.Announced body ids t)
    (hs : s.engine.Sound) (hstop : s.engine.stopped = true) :
    t.engine = s.engine ∧ t.carriage = s.carriage := by
  have hnobody : ids = [] := by
    have heverybody := h.everybody
    rw [(hs.halted hstop).1] at heverybody
    exact heverybody.eq_nil
  subst hnobody
  exact ⟨h.engine, h.carriage⟩

/-- A stopped engine reports nothing and leaves the carriage alone. -/
theorem Performed.still {op : Op} (h : s.Performed near op t) (hs : s.engine.Sound)
    (hstop : s.engine.stopped = true) :
    t.carriage = s.carriage ∧ (op ≠ .drain → t.engine.events = s.engine.events) := by
  cases h with
  | worked h =>
    obtain ⟨he, hc⟩ := h.still hs hstop
    exact ⟨hc, fun _ => he ▸ rfl⟩
  | dressed _ he hc => exact ⟨hc, fun _ => he ▸ rfl⟩
  | joined _ hok he hc _ h =>
    obtain ⟨he', hc'⟩ := h.still (he ▸ hs.enlist hok) (he ▸ hstop)
    exact ⟨hc'.trans hc, fun _ => he' ▸ he ▸ rfl⟩
  | @left group _ _ _ _ he hc _ h =>
    obtain ⟨he', hc'⟩ := h.still (he ▸ hs.delist group) (he ▸ hstop)
    exact ⟨hc'.trans hc, fun _ => he' ▸ he ▸ rfl⟩
  | halted hrun | received hrun =>
    rw [hstop] at hrun
    cases hrun
  | drained _ hc => exact ⟨hc, fun hop => absurd rfl hop⟩

/-! ### Turns -/

omit [Carriage κ μ] in
theorem handed_of_ne (s : Station κ μ) {op : Op} (h : op ≠ .drain) : s.handed op = [] := by
  cases op <;> first | rfl | exact absurd rfl h

theorem stopped_turn (hs : s.engine.Sound) {x : Turn κ} (hop : x.op ≠ .shutdown) :
    (s.turn x).engine.stopped = s.engine.stopped :=
  (performed_turn hs x).stopped hs hop

theorem stopped_run (hs : s.engine.Sound) {turns : List (Turn κ)}
    (h : ∀ x ∈ turns, x.op ≠ .shutdown) : (s.run turns).engine.stopped = s.engine.stopped := by
  induction turns generalizing s with
  | nil => rfl
  | cons x turns ih =>
    have hrest := ih (sound_turn hs x) fun y hy => h y (List.mem_cons_of_mem x hy)
    exact hrest.trans (stopped_turn hs (h x List.mem_cons_self))

theorem stopped_turn_of_stopped (hs : s.engine.Sound) (hstop : s.engine.stopped = true)
    (x : Turn κ) : (s.turn x).engine.stopped = true := by
  cases hrun : (s.turn x).engine.stopped with
  | true => rfl
  | false => exact ((performed_turn hs x).running hs hrun).symm.trans hstop

theorem stopped_run_of_stopped (hs : s.engine.Sound) (hstop : s.engine.stopped = true)
    (turns : List (Turn κ)) : (s.run turns).engine.stopped = true := by
  induction turns generalizing s with
  | nil => exact hstop
  | cons x turns ih => exact ih (sound_turn hs x) (stopped_turn_of_stopped hs hstop x)

theorem engine_turn_shutdown (hrun : s.engine.stopped = false) {x : Turn κ}
    (hop : x.op = .shutdown) : (s.turn x).engine = s.engine.halt := by
  rw [turn, step, hop, perform]
  dsimp only
  rw [shutdown, if_neg (Bool.eq_false_iff.mp hrun)]
  rfl

theorem stopped_turn_shutdown (hs : s.engine.Sound) {x : Turn κ} (hop : x.op = .shutdown) :
    (s.turn x).engine.stopped = true := by
  cases hrun : s.engine.stopped with
  | true => exact stopped_turn_of_stopped hs hrun x
  | false =>
    rw [engine_turn_shutdown hrun hop]
    rfl

/-! ### All that is reported -/

/-- The events that an engine reports in many turns: those that it handed over on the way, and then
those that are still queued. -/
def told (s : Station κ μ) (turns : List (Turn κ)) : List Event :=
  s.handedBy turns ++ (s.run turns).engine.events

theorem told_cons (s : Station κ μ) (x : Turn κ) (turns : List (Turn κ)) :
    s.told (x :: turns) = s.handed x.op ++ (s.turn x).told turns :=
  List.append_assoc ..

theorem told_append (s : Station κ μ) (before after : List (Turn κ)) :
    s.told (before ++ after) = s.handedBy before ++ (s.run before).told after := by
  induction before generalizing s with
  | nil => rfl
  | cons x before ih =>
    rw [List.cons_append, told_cons, ih, handedBy, List.append_assoc]
    rfl

theorem told_of_stopped (hs : s.engine.Sound) (hstop : s.engine.stopped = true)
    (turns : List (Turn κ)) : s.told turns = s.engine.events := by
  induction turns generalizing s with
  | nil => rfl
  | cons x turns ih =>
    rw [told_cons, ih (sound_turn hs x) (stopped_turn_of_stopped hs hstop x)]
    by_cases hop : x.op = .drain
    · rw [s.engine_turn_drain hop, hop]
      exact List.append_nil _
    · rw [s.handed_of_ne hop]
      exact ((performed_turn hs x).still hs hstop).2 hop

/-- The first shutdown is reported, and nothing after it. -/
theorem told_shutdown (hs : s.engine.Sound) (hrun : s.engine.stopped = false) {x : Turn κ}
    (hop : x.op = .shutdown) (after : List (Turn κ)) :
    s.told (x :: after) = s.engine.events ++ [.stop] := by
  have hhanded : s.handed x.op = [] := by
    rw [hop]
    rfl
  rw [told_cons, hhanded, told_of_stopped (sound_turn hs x) (stopped_turn_shutdown hs hop),
    engine_turn_shutdown hrun hop]
  rfl

/-- As long as nobody shuts the engine down, all that it reports is a story, and the picture that
the story gives is the true one. -/
theorem story_told (hs : s.engine.Sound) {turns : List (Turn κ)}
    (hrun : (s.run turns).engine.stopped = false) {before : List Event}
    (hv : Story (before ++ s.engine.events) ∧ (Picture.of (before ++ s.engine.events)).Shows s.engine) :
    Story (before ++ s.told turns) ∧
      (Picture.of (before ++ s.told turns)).Shows (s.run turns).engine := by
  induction turns generalizing s before with
  | nil => exact hv
  | cons x turns ih =>
    have hmid : (s.turn x).engine.stopped = false := by
      cases hstop : (s.turn x).engine.stopped with
      | false => rfl
      | true => exact (stopped_run_of_stopped (sound_turn hs x) hstop turns).symm.trans hrun
    rw [told_cons, ← List.append_assoc]
    refine ih (sound_turn hs x) hrun ?_
    by_cases hop : x.op = .drain
    · rw [s.engine_turn_drain hop, hop, List.append_nil]
      exact ⟨hv.1, hv.2.profile, hv.2.paired⟩
    · obtain ⟨new, hnew, hstory⟩ := (performed_turn hs x).narrates hs hmid hop
      rw [s.handed_of_ne hop, List.append_nil, hnew, ← List.append_assoc]
      exact hstory hv.1 hv.2

end Station

/-! ### The shape of it -/

/-- The shape of all that an engine reports. -/
structure WellTold (events : List Event) : Prop where
  periods : ∀ id, ∃ x, Periods id x (Event.concerning id events)
  /-- An exit and the groups that are left by it stand together. -/
  together : ∀ {before after id name}, events = before ++ .exit id name :: after →
    ∃ (groups : List String) (rest : List Event),
      after = (groups.map fun group => .leave id name group) ++ rest ∧
      groups.Pairwise (· < ·) ∧
      ∀ group, group ∈ groups ↔ (Picture.of before).paired id group = true
  last : ∀ {before after}, events = before ++ .stop :: after → after = []

theorem Story.wellTold {l : List Event} (h : Story l) : WellTold l where
  periods id := ⟨_, h.periods id⟩
  together hl := h.together hl
  last hl := by
    refine absurd ?_ h.stop_not_mem
    rw [hl]
    exact List.mem_append_right _ List.mem_cons_self

theorem Story.wellTold_stop {l : List Event} (h : Story l) : WellTold (l ++ [.stop]) where
  periods id := by
    have hstop : Event.concerning id [.stop] = [] := rfl
    rw [Event.concerning_append, hstop, List.append_nil]
    exact ⟨_, h.periods id⟩
  together := by
    intro before after id name hl
    rcases List.append_eq_append_iff.mp hl with ⟨front, -, hfront⟩ | ⟨tail, hbefore, htail⟩
    · have hexit : Event.exit id name ∈ [Event.stop] := by
        rw [hfront]
        exact List.mem_append_right _ List.mem_cons_self
      cases List.mem_singleton.mp hexit
    · cases tail with
      | nil => cases htail
      | cons ev tail =>
        obtain ⟨rfl, hafter⟩ := List.cons.inj htail
        obtain ⟨groups, rest, htail, ha, hg⟩ := h.together hbefore
        refine ⟨groups, rest ++ [.stop], hafter.trans ?_, ha, hg⟩
        rw [htail]
        exact List.append_assoc ..
  last := by
    intro before after hl
    rcases List.append_eq_append_iff.mp hl with ⟨front, -, hfront⟩ | ⟨tail, hbefore, htail⟩
    · cases front with
      | nil => exact (List.cons.inj hfront).2.symm
      | cons ev front => simp at hfront
    · cases tail with
      | nil => exact (List.cons.inj htail).2
      | cons ev tail =>
        obtain ⟨rfl, -⟩ := List.cons.inj htail
        refine absurd ?_ h.stop_not_mem
        rw [hbefore]
        exact List.mem_append_right _ List.mem_cons_self

namespace Station
variable [Carriage κ μ]

/-- What is known of the reports of an engine that starts at `s`. -/
structure Reports (s : Station κ μ) (turns : List (Turn κ)) : Prop where
  shape : WellTold (s.told turns)
  /-- As long as the engine runs, the periods that are open are those of its peers. -/
  present : (s.run turns).engine.stopped = false → ∀ id, ∃ x,
    Periods id x (Event.concerning id (s.told turns)) ∧
      (s.run turns).engine.peerName? id = x.map (·.name)
  going : (∀ x ∈ turns, x.op ≠ .shutdown) → .stop ∉ s.told turns
  /-- The first shutdown is the last that is reported. -/
  stop : ∀ {before x after}, turns = before ++ x :: after → (∀ y ∈ before, y.op ≠ .shutdown) →
    x.op = .shutdown → s.told turns = s.told before ++ [.stop]
  /-- After a shutdown nothing is sent, nor is anybody connected to. -/
  silence : ∀ {before x between y after}, turns = before ++ x :: between ++ y :: after →
    x.op = .shutdown → ((s.run (before ++ x :: between)).turn y).carriage = y.carriage

/-- Whatever is done to an engine that is new, and whatever the carriage answers. -/
theorem reports_run_new (id : PeerId) (name endpoint : String) (timing : Timing) (carriage : κ)
    (turns : List (Turn κ)) :
    (new (Engine.new id name endpoint timing : Engine μ) carriage).Reports turns := by
  let s : Station κ μ := new (Engine.new id name endpoint timing) carriage
  have hs : s.engine.Sound := Engine.sound_new id name endpoint timing
  have hblank : Story ([] ++ s.engine.events) ∧ (Picture.of ([] ++ s.engine.events)).Shows s.engine :=
    ⟨.nil, fun _ => rfl, fun _ _ => rfl⟩
  have hstory : ∀ {turns : List (Turn κ)}, (s.run turns).engine.stopped = false →
      Story (s.told turns) ∧ (Picture.of (s.told turns)).Shows (s.run turns).engine :=
    fun hrun => story_told hs hrun hblank
  have hrunning : ∀ {turns : List (Turn κ)}, (∀ x ∈ turns, x.op ≠ .shutdown) →
      (s.run turns).engine.stopped = false := fun hops => stopped_run hs hops
  have hstop : ∀ {before x after}, (∀ y ∈ before, y.op ≠ .shutdown) → x.op = .shutdown →
      s.told (before ++ x :: after) = s.told before ++ [.stop] := by
    intro before x after hops hop
    rw [told_append, told_shutdown (sound_run hs before) (hrunning hops) hop, told, List.append_assoc]
  constructor
  case shape =>
    cases hfirst : turns.find? (fun x => decide (x.op = .shutdown)) with
    | none =>
      have hops : ∀ x ∈ turns, x.op ≠ .shutdown := by simpa using hfirst
      exact (hstory (hrunning hops)).1.wellTold
    | some x =>
      obtain ⟨hop, before, after, rfl, hops⟩ := List.find?_eq_some_iff_append.mp hfirst
      have hops' : ∀ y ∈ before, y.op ≠ .shutdown := by simpa using hops
      change WellTold (s.told (before ++ x :: after))
      rw [hstop hops' (of_decide_eq_true hop)]
      exact (hstory (hrunning hops')).1.wellTold_stop
  case present =>
    intro hrun peer
    obtain ⟨htold, hshow⟩ := hstory hrun
    refine ⟨_, htold.periods peer, ?_⟩
    rw [hshow.profile, Engine.peerName?, Option.map_map]
    rfl
  case going =>
    intro hops
    exact (hstory (hrunning hops)).1.stop_not_mem
  case stop =>
    rintro before x after rfl hops hop
    exact hstop hops hop
  case silence =>
    intro before x between y after _ hop
    have hsound := sound_run hs before
    have hend : (s.run (before ++ x :: between)).engine.stopped = true := by
      rw [run, List.foldl_append]
      exact stopped_run_of_stopped (sound_turn hsound x) (stopped_turn_shutdown hsound hop) between
    have hsound' := sound_run hs (before ++ x :: between)
    exact ((performed_turn hsound' y).still hsound' hend).1

end Station
end PeerMesh
