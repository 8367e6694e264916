import PeerMesh.Proofs.Node.Calls

/-!
# A node and its engine stay in step

Whatever an application asks of a node, and whatever else happens to it, the node stays in step with
its engine from its start until its stop, as long as its task does not break down.
-/

namespace PeerMesh
set_option autoImplicit false

theorem Actor.closed_post {κ μ : Type} (a : Actor κ μ) (q : Request) :
    (a.post q).closed = a.closed := by
  unfold post
  split <;> rfl

namespace Node

/-- What happens to a node. -/
inductive Move (κ : Type)
  | call (call : Call κ)
  | deliver (delivery : Delivery)
  | sight (sighting : Sighting)
  | poll (walk : Walk) (carriage : κ) (source : Actor.Source) (now : Nat)
  /-- The task breaks down. -/
  | fail
  | stop (walk : Walk) (now : Nat)

section
variable {κ μ : Type} {r : Record} {a b : Actor κ μ} {l m n n' : Node κ μ} {q : Request}

/-- The task is in step with a record, unless it broke down. -/
def Steady (r : Record) (a : Actor κ μ) : Prop := a.closed = false ∧ (a.ended = false → InStep r a)

/-- The task of a node is in step with its record, and a node that has no task yet can make one. -/
structure Consistent (n : Node κ μ) : Prop where
  steady : ∀ x, n.phase = .running x → Steady n.record x.actor
  outlet : n.phase = .idle → n.outlet = true

theorem consistent_new (settings : Settings) (id : PeerId) :
    (new settings id : Node κ μ).Consistent :=
  ⟨nofun, fun _ => rfl⟩

/-- A request that fits the record is passed on. The record is changed before or after that. -/
theorem Consistent.passes (h : n.Consistent) (hp : l.Passes q m) (hl : l.phase = n.phase)
    (hm : n'.phase = m.phase) (hout : l.outlet = n.outlet ∧ n'.outlet = m.outlet)
    (hcheck : ∀ t, n.record.Depicts t → t.check q = .ok ())
    (hafter : ∀ t, n.record.Depicts t → n'.record.Depicts (t.after q)) : n'.Consistent := by
  constructor
  case outlet =>
    rw [hm, hout.2]
    cases hp with
    | posted => exact nofun
    | kept => exact fun hidle => hout.1.trans (h.outlet (hl.symm.trans hidle))
  case steady =>
    intro y hy
    rw [hm] at hy
    cases hp with
    | posted hx hgoing =>
      obtain rfl := Phase.running.inj hy
      obtain ⟨hopen, hstep⟩ := h.steady _ (hl.symm.trans hx)
      have hclosed : (Actor.post _ q).closed = false := (Actor.closed_post _ q).trans hopen
      exact ⟨hclosed, fun _ => (hstep hgoing).post hopen hcheck hafter⟩
    | kept hover =>
      -- Nothing was passed on, so there is no task that could have fallen behind.
      obtain ⟨hopen, -⟩ := h.steady y (hl.symm.trans hy)
      refine ⟨hopen, fun hgoing => ?_⟩
      rw [hover y hy] at hgoing
      cases hgoing

/-! ### The task -/

theorem Consistent.editActor (h : n.Consistent) {f : Actor κ μ → Actor κ μ}
    (hf : ∀ a, Steady n.record a → Steady n.record (f a)) : (n.editActor f).Consistent := by
  unfold Node.editActor
  cases hphase : n.phase with
  | idle => exact ⟨nofun, fun _ => h.outlet hphase⟩
  | running x =>
    refine ⟨fun y hy => ?_, nofun⟩
    obtain rfl := Phase.running.inj hy
    exact hf _ (h.steady x hphase)
  | stopped a => exact ⟨nofun, nofun⟩

theorem Steady.deliver (h : Steady r a) (d : Delivery) : Steady r (a.deliver d) := by
  unfold Actor.deliver
  split
  · exact h
  · exact ⟨h.1, fun hgoing => (h.2 hgoing).congr rfl rfl⟩

theorem Steady.sight (h : Steady r a) (s : Sighting) : Steady r (a.sight s) := by
  unfold Actor.sight
  split
  · exact h
  · exact ⟨h.1, fun hgoing => (h.2 hgoing).congr rfl rfl⟩

theorem Steady.fail (h : Steady r a) : Steady r a.fail := ⟨h.1, fun hgoing => by cases hgoing⟩

variable [Carriage κ μ]

/-- A job takes at most one request, which is granted, and does what it asks for. -/
theorem InStep.works {j : Job κ} (h : InStep r a) (hw : a.Works j b) : InStep r b := by
  have hengine := Station.engine_of_record hw.station
  have hsound := Station.sound_run h.sound j.turns
  rw [← hengine] at hsound
  have hrequests := hw.requests
  have hgrants := h.grants
  have hdepicts := h.depicts
  rw [hrequests] at hgrants hdepicts
  -- What is predicted for the requests that wait stays true, whether one of them is taken or not.
  cases hq : j.task.request? with
  | none =>
    rw [hq] at hgrants hdepicts
    have htraits := Station.traits_run_turns h.sound (j := j) (by rw [hq]; nofun)
    rw [hq, ← hengine] at htraits
    have hsame : b.station.engine.traits = a.station.engine.traits := htraits
    rw [← hsame] at hgrants hdepicts
    exact ⟨hsound, hgrants, hdepicts⟩
  | some q =>
    rw [hq] at hgrants hdepicts
    obtain ⟨hcheck, hgrants⟩ : _ ∧ _ := hgrants
    have htraits := Station.traits_run_turns h.sound (j := j)
      fun q' hq' => Option.some.inj (hq.symm.trans hq') ▸ hcheck
    rw [hq, ← hengine] at htraits
    have hdone : b.station.engine.traits = a.station.engine.traits.after q := htraits
    rw [← hdone] at hgrants
    refine ⟨hsound, hgrants, ?_⟩
    rw [hdone]
    exact hdepicts

theorem Steady.poll (h : Steady r a) (walk : Walk) (carriage : κ) (source : Actor.Source)
    (now : Nat) : Steady r ((a.withCarriage carriage).poll walk now source) := by
  let a' := a.withCarriage carriage
  have h' : Steady r a' := ⟨h.1, fun hgoing => (h.2 hgoing).congr rfl rfl⟩
  change Steady r (a'.poll walk now source)
  cases htask : a'.task? source with
  | none =>
    rw [Actor.poll_of_none htask]
    exact h'
  | some task =>
    have hw : a'.Works ⟨walk, a'.station.carriage, now, task⟩ (a'.poll walk now source) :=
      Actor.works_poll htask
    exact ⟨hw.closed.trans h'.1, fun _ => (h'.2 hw.going).works hw⟩

/-! ### Calls -/

/-- What comes of a call that is granted: it is recorded, and whatever the node had to pass on for
it will be granted too. -/
def Follows (n : Node κ μ) (c : Call κ) (n' : Node κ μ) : Prop :=
  n'.record = n.record.told c ∧ n'.Consistent

omit [Carriage κ μ] in
theorem Consistent.setName (h : n.Consistent) {name : String}
    (hc : (Act.setName name).outcome n = (.ok (), n')) : n.Follows (.setName name) n' := by
  obtain ⟨hidle, -, rfl⟩ := setName_eq_ok.mp hc
  refine ⟨rfl, fun x hx => ?_, h.outlet⟩
  change n.phase = .running x at hx
  rw [hidle] at hx
  cases hx

omit [Carriage κ μ] in
theorem Consistent.setHeader (h : n.Consistent) {key value : String}
    (hc : (Act.setHeader key value).outcome n = (.ok (), n')) :
    n.Follows (.setHeader key value) n' := by
  obtain ⟨hok, hp⟩ := passes_setHeader hc
  refine ⟨hp.record, h.passes hp rfl rfl ⟨rfl, rfl⟩ (fun t ht => ht.check_setHeader hok)
    fun t ht => ?_⟩
  rw [hp.record]
  exact ht.setHeader (κ := κ) key value

omit [Carriage κ μ] in
theorem Consistent.join (h : n.Consistent) {group : String}
    (hc : (Act.join group).outcome n = (.ok (), n')) : n.Follows (.join group) n' := by
  obtain ⟨-, ⟨hmem, rfl⟩ | ⟨hnew, hok, m, hm, rfl⟩⟩ := join_eq_ok.mp hc
  · exact ⟨(if_pos (List.contains_iff_mem.mpr hmem)).symm, h⟩
  · have hp := passes_requestIfRunning hm
    have hrecord : ({ m with groups := m.groups ++ [group] } : Node κ μ).record =
        { n.record with groups := n.record.groups ++ [group] } := by
      rw [← hp.record]
      rfl
    refine ⟨hrecord.trans (if_neg fun hin => hnew (List.contains_iff_mem.mp hin)).symm,
      h.passes hp rfl rfl ⟨rfl, rfl⟩ (fun t ht => ht.check_join hok) fun t ht => ?_⟩
    rw [hrecord]
    exact ht.append group

omit [Carriage κ μ] in
theorem Consistent.leave (h : n.Consistent) {group : String}
    (hc : (Act.leave group).outcome n = (.ok (), n')) : n.Follows (.leave group) n' := by
  obtain ⟨-, m, hm, rfl⟩ := leave_eq_ok.mp hc
  have hp := passes_requestIfRunning hm
  have hrecord : ({ m with groups := m.groups.filter (· ≠ group) } : Node κ μ).record =
      n.record.told (.leave group : Call κ) := by
    rw [← hp.record]
    rfl
  refine ⟨hrecord, h.passes hp rfl rfl ⟨rfl, rfl⟩ (fun _ _ => rfl) fun t ht => ?_⟩
  rw [hrecord]
  exact ht.leave group

theorem follows_start {walk : Walk} {bound : Except Tcp.BindError Tcp.SocketAddress}
    {outward : Option Tcp.IpAddress} {published : Except Tcp.BindError Unit} {carriage : κ}
    (hc : (Act.start walk bound outward published carriage).outcome n = (.ok (), n')) :
    n.Follows (.start walk bound outward published carriage) n' := by
  obtain ⟨x, rfl, hnew, hstep⟩ := running_of_start hc
  refine ⟨rfl, fun y hy => ?_, nofun⟩
  obtain rfl := Phase.running.inj hy
  exact ⟨congrArg Actor.closed hnew, fun _ => hstep⟩

theorem Consistent.call (h : n.Consistent) {c : Call κ} (hc : c.act.outcome n = (.ok (), n')) :
    n.Follows c n' := by
  cases c with
  | setName name => exact h.setName hc
  | setHeader key value => exact h.setHeader hc
  | join group => exact h.join hc
  | leave group => exact h.leave hc
  | start walk bound outward published carriage => exact follows_start hc
  | whisper | shout | requirePeer | query =>
    have hp := passes_request hc
    refine ⟨hp.record, h.passes hp rfl rfl ⟨rfl, rfl⟩ (fun _ _ => rfl) fun t ht => ?_⟩
    rw [hp.record]
    exact ht

/-! ### Runs -/

def move (n : Node κ μ) : Move κ → Node κ μ
  | .call c => (c.act.outcome n).2
  | .deliver d => n.editActor (·.deliver d)
  | .sight s => n.editActor (·.sight s)
  | .poll walk carriage source now =>
    n.editActor fun a => (a.withCarriage carriage).poll walk now source
  | .fail => n.editActor Actor.fail
  | .stop walk now => n.stop walk now

def run (n : Node κ μ) (moves : List (Move κ)) : Node κ μ := moves.foldl move n

/-- The call that is granted in a move. -/
def grant? (n : Node κ μ) : Move κ → Option (Call κ)
  | .call c => if (c.act.outcome n).1.isOk then some c else none
  | _ => none

/-- The calls that are granted in many moves. -/
def granted (n : Node κ μ) : List (Move κ) → List (Call κ)
  | [] => []
  | m :: moves => (n.grant? m).toList ++ (n.move m).granted moves

/-- Every move keeps a node in step, and only calls that are granted change its record. -/
theorem Consistent.move (h : n.Consistent) (m : Move κ) :
    (n.move m).record = (n.grant? m).toList.foldl Record.told n.record ∧ (n.move m).Consistent := by
  cases m with
  | call c =>
    rw [Node.move, grant?]
    rcases hc : c.act.outcome n with ⟨e | _, n'⟩
    · obtain rfl := c.atomic hc
      exact ⟨rfl, h⟩
    · exact h.call hc
  | deliver d => exact ⟨rfl, h.editActor fun _ ha => ha.deliver d⟩
  | sight s => exact ⟨rfl, h.editActor fun _ ha => ha.sight s⟩
  | poll walk carriage source now =>
    exact ⟨rfl, h.editActor fun _ ha => ha.poll walk carriage source now⟩
  | fail => exact ⟨rfl, h.editActor fun _ ha => ha.fail⟩
  | stop walk now =>
    unfold Node.move stop
    dsimp only
    split
    · exact ⟨rfl, nofun, nofun⟩
    · exact ⟨rfl, h⟩

theorem Consistent.run (h : n.Consistent) (moves : List (Move κ)) :
    (n.run moves).record = (n.granted moves).foldl Record.told n.record ∧
      (n.run moves).Consistent := by
  induction moves generalizing n with
  | nil => exact ⟨rfl, h⟩
  | cons m moves ih =>
    obtain ⟨hrecord, hnext⟩ := h.move m
    obtain ⟨hrest, hend⟩ := ih hnext
    refine ⟨?_, hend⟩
    rw [granted, List.foldl_append, ← hrecord]
    exact hrest

/-- What can be relied on after the moves `moves`, which began with `first`. -/
structure Reliable (first : Node κ μ) (moves : List (Move κ)) (n : Node κ μ) : Prop where
  record : n.record = (first.granted moves).foldl Record.told first.record
  refused : ∀ {c : Call κ} {e m}, c.act.outcome n = (.error e, m) → m = n
  /-- So a start that failed is granted as soon as nothing stands in its way. -/
  permitted : ∀ {c : Call κ}, (∃ m, c.act.outcome n = (.ok (), m)) ↔ n.Permits c
  /-- A start that is granted sets a task to work for which no request waits yet, and whose engine is
  as the record says. -/
  started : ∀ {walk bound outward published carriage} {m : Node κ μ},
    (Act.start walk bound outward published carriage).outcome n = (.ok (), m) →
      m.record = n.record ∧ ∃ x, m.phase = .running x ∧ x.actor.ended = false ∧
        x.actor.requests = [] ∧ n.record.Depicts x.actor.station.engine.traits
  /-- When no request waits, the engine is as the record says. -/
  settled : ∀ {x}, n.phase = .running x → x.actor.ended = false → x.actor.requests = [] →
    x.actor.station.engine.name = n.name ∧ x.actor.station.engine.headers = n.headers ∧
      ∀ group, group ∈ x.actor.station.engine.ownGroups ↔ group ∈ n.groups
  /-- When a request is taken, the engine does not refuse it. -/
  unrefused : ∀ {x q rest now op}, n.phase = .running x → x.actor.ended = false →
    x.actor.requests = q :: rest → q.op? now = some op → ∀ (walk : Walk) (carriage : κ),
      (({ x.actor.station with carriage } : Station κ μ).perform walk op).1 = .ok ()

/-- Whatever the settings of a node are, and whatever happens to it. -/
theorem reliable_run_new (settings : Settings) (id : PeerId) (moves : List (Move κ)) :
    Reliable (new settings id : Node κ μ) moves ((new settings id).run moves) := by
  obtain ⟨hrecord, hend⟩ := (consistent_new settings id).run moves
  constructor
  case record => exact hrecord
  case refused => exact fun {c _ _} hc => c.atomic hc
  case permitted => exact exists_act hend.outlet
  case started =>
    intro walk bound outward published carriage m hm
    obtain ⟨x, rfl, hnew, hstep⟩ := running_of_start hm
    have hnone : x.actor.requests = [] := congrArg Actor.requests hnew
    have hdepicts := hstep.depicts
    rw [hnone] at hdepicts
    exact ⟨rfl, x, rfl, congrArg Actor.ended hnew, hnone, hdepicts⟩
  case settled =>
    intro x hx hgoing hnone
    have hdepicts := ((hend.steady x hx).2 hgoing).depicts
    rw [hnone] at hdepicts
    refine ⟨hdepicts.name, hdepicts.headers, fun group => ?_⟩
    exact SortedSet.mem_toList.trans (hdepicts.joined group)
  case unrefused =>
    intro x q rest now op hx hgoing hq hop walk carriage
    have hgrants := ((hend.steady x hx).2 hgoing).grants
    rw [hq] at hgrants
    exact (Station.perform_request _ walk hop).trans hgrants.1

/-- A group that is set twice is joined once, and is left at once. -/
theorem reliable_run_started :
    let settings : Settings := { Settings.usual with groups := ["f", "g", "f"] }
    let net : Network := .empty
    let first : Node Network Network.Mailbox := new settings ⟨.replicate 16 1, rfl⟩
    let start : Call Network :=
      .start .ascending (.ok ⟨Tcp.localhost, 0, 4000⟩) none (.ok ()) net
    let n := first.run [.call start, .call (.leave "f"), .call (.setHeader "k" "v"),
      .poll .ascending net .requests 0, .poll .ascending net .requests 0]
    (∃ x, (first.move (.call start)).phase = .running x ∧ x.actor.ended = false ∧
      x.actor.requests = [] ∧ first.record.Depicts x.actor.station.engine.traits) ∧
    n.groups = ["g"] ∧ n.headers.entries = [("k", "v")] ∧ ∃ x, n.phase = .running x ∧
      x.actor.station.engine.headers = n.headers ∧
      ∀ group, group ∈ x.actor.station.engine.ownGroups ↔ group ∈ n.groups := by
  intro settings net first start n
  have hfirst := reliable_run_new (κ := Network) (μ := Network.Mailbox) settings
    ⟨.replicate 16 1, rfl⟩ []
  have hn := reliable_run_new (κ := Network) (μ := Network.Mailbox) settings
    ⟨.replicate 16 1, rfl⟩ [.call start, .call (.leave "f"), .call (.setHeader "k" "v"),
      .poll .ascending net .requests 0, .poll .ascending net .requests 0]
  have hstart : start.act.outcome first = (.ok (), first.move (.call start)) :=
    Prod.ext (by decide +kernel) rfl
  have hrunning : n.endpoint?.isSome = true := by decide +kernel
  have hactor : n.actor?.map (fun a => (a.ended, a.requests.isEmpty)) = some (false, true) := by
    decide +kernel
  refine ⟨(hfirst.started hstart).2, by decide +kernel, by decide +kernel, ?_⟩
  cases hphase : n.phase with
  | running x =>
    rw [actor?, hphase] at hactor
    obtain ⟨hgoing, hnone⟩ := Prod.mk.inj (Option.some.inj hactor)
    obtain ⟨-, hheaders, hgroups⟩ := hn.settled hphase hgoing (List.isEmpty_iff.mp hnone)
    exact ⟨x, rfl, hheaders, hgroups⟩
  | _ =>
    rw [endpoint?, hphase] at hrunning
    cases hrunning

end
end Node
end PeerMesh
