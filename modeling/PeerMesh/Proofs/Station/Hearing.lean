import PeerMesh.Network
import PeerMesh.Proofs.Station.Answers
import PeerMesh.Proofs.Station.Reporting

/-!
# What becomes of a session

A peer greets, and goes on talking; other things happen in between. As long as the peer is not
removed, the engine knows of it and reports of it what the messages say, in their order, and answers
every PING. The steps are described from their end, as in `Abides`: whoever is ready afterwards was
there before, and its messages account for all that changed.
-/

namespace PeerMesh
set_option autoImplicit false

variable {κ μ : Type}

/-- The entry `q` is what became of `p` in the same session. -/
structure Peer.Remains (p q : Peer μ) : Prop where
  mailbox : q.mailbox = p.mailbox
  lastEndpoint : q.lastEndpoint = p.lastEndpoint
  declaredName : q.declaredName = p.declaredName
  headers : q.headers = p.headers

namespace Peer.Remains
variable {p q r : Peer μ}

theorem refl (p : Peer μ) : p.Remains p := ⟨rfl, rfl, rfl, rfl⟩

theorem trans (h : p.Remains q) (h' : q.Remains r) : p.Remains r where
  mailbox := h'.mailbox.trans h.mailbox
  lastEndpoint := h'.lastEndpoint.trans h.lastEndpoint
  declaredName := h'.declaredName.trans h.declaredName
  headers := h'.headers.trans h.headers

theorem of_resumes (h : p.Resumes q) : p.Remains q :=
  ⟨h.mailbox, h.lastEndpoint, h.declaredName, h.headers⟩

theorem name (h : p.Remains q) : q.name = p.name := by rw [Peer.name, h.declaredName]; rfl

theorem endpoint (h : p.Remains q) : q.endpoint = p.endpoint := by
  rw [Peer.endpoint, Peer.isConnected, h.mailbox, h.lastEndpoint]
  rfl

end Peer.Remains

namespace Engine
variable {e e' e'' : Engine μ} {id : PeerId} {ms ms' : List Message}

/-- Between `e` and `e'` the peer said `ms`, and that is all that was made of it. -/
def Attends (e e' : Engine μ) (id : PeerId) (ms : List Message) : Prop :=
  ∀ q, e'.readyPeer? id = some q → ∃ p new, e.readyPeer? id = some p ∧ p.Remains q ∧
    e'.heard id = replay (e.heard id) ms ∧ e'.events = e.events ++ new ∧
    Event.about id new = ms.flatMap fun m => m.body.reports id p.name

theorem heard_of_resumes {p q : Peer μ} (hp : e.readyPeer? id = some p)
    (hq : e'.readyPeer? id = some q) (h : p.Resumes q)
    (hg : ∀ group, e'.isMember id group = e.isMember id group) : e'.heard id = e.heard id := by
  have hmember : e'.isMember id = e.isMember id := funext hg
  rw [heard_of_ready hp, heard_of_ready hq, h.want, h.status, h.name, hmember]

namespace Attends

theorem of_abides (h : e.Abides e' id) : e.Attends e' id [] := by
  intro q hq
  obtain ⟨p, new, hp, hpq, hgroups, hnew, habout⟩ := h q hq
  exact ⟨p, new, hp, .of_resumes hpq, heard_of_resumes hp hq hpq hgroups, hnew, habout⟩

theorem trans (h : e.Attends e' id ms) (h' : e'.Attends e'' id ms') :
    e.Attends e'' id (ms ++ ms') := by
  intro r hr
  obtain ⟨q, new', hq, hqr, hheard', hnew', habout'⟩ := h' r hr
  obtain ⟨p, new, hp, hpq, hheard, hnew, habout⟩ := h q hq
  refine ⟨p, new ++ new', hp, hpq.trans hqr, ?_, ?_, ?_⟩
  · rw [hheard', hheard, replay_append]
  · rw [hnew', hnew, List.append_assoc]
  · rw [Event.about_append, habout, habout', hpq.name, List.flatMap_append]

theorem of_gone (h : e'.readyPeer? id = none) : e.Attends e' id ms := by
  intro q hq
  rw [h] at hq
  cases hq

end Attends

theorem attends_heeded {p : Peer μ} {m : Message} (hp : e.readyPeer? id = some p)
    (hm : m.isHello = false) : e.Attends (e.heeded id p m.body) id [m] := by
  intro q hq
  obtain rfl := eq_of_readyPeer?_insert (roster_heeded e id p m.body) hq
  refine ⟨p, m.body.reports id p.name, hp, ⟨rfl, rfl, rfl, rfl⟩, ?_, rfl, ?_⟩
  · rw [heard_heeded hp]
    exact (hear_of_not_hello hm _).symm
  · rw [Event.about_of_loud (peer?_reports m.body id p.name) (m.body.isEvasive_reports id p.name),
      List.flatMap_singleton]

end Engine

/-- The messages that a row of turns brings from a peer. -/
def brought (id : PeerId) (turns : List (Turn κ)) : List Message :=
  turns.filterMap fun x => x.op.message? id

theorem brought_cons (id : PeerId) (x : Turn κ) (turns : List (Turn κ)) :
    brought id (x :: turns) = (x.op.message? id).toList ++ brought id turns := by
  rw [brought]
  cases h : x.op.message? id with
  | none => exact List.filterMap_cons_none h
  | some m => exact List.filterMap_cons_some h

namespace Station

section
variable [Carriage κ μ] {near : PeerId → String → Prop} {s t : Station κ μ} {id : PeerId}
  {m : Message} {op : Op}

theorem Received.attends (h : s.Received near id m t) (hs : s.engine.Sound)
    (hm : m.isHello = false) : s.engine.Attends t.engine id [m] := by
  cases h with
  | unheard _ hr he => exact .of_gone (he ▸ hr)
  | refused hhello =>
    rw [hm] at hhello
    cases hhello
  | lost _ hr he => exact .of_gone (he ▸ hr)
  | greeted hhello =>
    rw [hhello] at hm
    cases hm
  | @heeded v p _ hp _ he _ _ hv =>
    obtain ⟨hentry, hready⟩ := Engine.readyPeer?_eq_some.mp hp
    have hsound : v.engine.Sound := he ▸ hs.heeded hentry hready m.body
    have hheed : s.engine.Attends v.engine id [m] := he ▸ Engine.attends_heeded hp hm
    exact hheed.trans (.of_abides ((hv.shifts hsound).abides id))

omit [Carriage κ μ] in
theorem readyPeer?_of_stopped (hs : s.engine.Sound) (hstop : s.engine.stopped = true)
    (id : PeerId) : s.engine.readyPeer? id = none := by
  rw [Engine.readyPeer?, hs.get?_of_stopped hstop]
  rfl

theorem attends_step (hs : s.engine.Sound) (walk : Walk)
    (hm : ∀ m ∈ op.message? id, m.isHello = false) (hd : op ≠ .drain) :
    s.engine.Attends (s.step walk op).engine id (op.message? id).toList := by
  cases hmessage : op.message? id with
  | none => exact .of_abides ((performed_anywhere hs walk op).abides hs hmessage hd)
  | some m =>
    have hhello := hm m hmessage
    cases hrun : s.engine.stopped with
    | true =>
      rw [step_of_stopped hrun walk hmessage]
      exact .of_gone (readyPeer?_of_stopped hs hrun id)
    | false =>
      obtain ⟨now, haccept⟩ := accept_of_message hrun walk hmessage hhello
      have hreceived : s.Received (fun _ _ => True) id m (s.accept id m now) :=
        received_accept hhello now
      rw [haccept]
      exact hreceived.attends hs hhello

/-- What an engine makes of a peer in many turns, from the end backwards. -/
theorem attends_run (hs : s.engine.Sound) {turns : List (Turn κ)}
    (hm : ∀ m ∈ brought id turns, m.isHello = false) {q : Peer μ}
    (hq : (s.run turns).engine.readyPeer? id = some q) :
    ∃ p new, s.engine.readyPeer? id = some p ∧ p.Remains q ∧
      (s.run turns).engine.heard id = replay (s.engine.heard id) (brought id turns) ∧
      s.told turns = s.engine.events ++ new ∧
      Event.about id new = (brought id turns).flatMap fun m => m.body.reports id p.name := by
  induction turns generalizing s with
  | nil => exact ⟨q, [], hq, .refl q, rfl, (List.append_nil _).symm, rfl⟩
  | cons x turns ih =>
    rw [brought_cons] at hm ⊢
    have hfirst : ∀ m ∈ x.op.message? id, m.isHello = false :=
      fun m h => hm m (List.mem_append_left _ (Option.mem_toList.mpr h))
    have hlater : ∀ m ∈ brought id turns, m.isHello = false :=
      fun m h => hm m (List.mem_append_right _ h)
    obtain ⟨p', new', hp', hremains', hheard', htold', habout'⟩ := ih (sound_turn hs x) hlater hq
    rw [told_cons, htold']
    by_cases hd : x.op = .drain
    · rw [s.engine_turn_drain hd] at hp' hheard' ⊢
      rw [hd]
      exact ⟨p', new', hp', hremains', hheard', rfl, habout'⟩
    · have hattends := attends_step (s := { s with carriage := x.carriage }) hs x.walk hfirst hd
      obtain ⟨p, new, hp, hremains, hheard, hevents, habout⟩ := hattends p' hp'
      refine ⟨p, new ++ new', hp, hremains.trans hremains', ?_, ?_, ?_⟩
      · rw [replay_append, ← hheard]
        exact hheard'
      · rw [s.handed_of_ne hd, List.nil_append, ← List.append_assoc]
        exact congrArg (· ++ new') hevents
      · rw [Event.about_append, habout, habout', hremains.name, List.flatMap_append]

/-! ### The greeting -/

/-- What a HELLO leaves, if its sender counts as ready then. -/
structure Welcomes (s : Station κ μ) (id : PeerId) (h : Hello) (t : Station κ μ) (q : Peer μ) :
    Prop where
  declaredName : q.declaredName = some h.name
  headers : q.headers = h.headers
  heard : t.engine.heard id = some (.greeting h)
  /-- Only of a peer that had greeted before is there anything else to report. -/
  events : ∃ before new, t.engine.events = s.engine.events ++ (before ++ new) ∧
    (s.engine.readyPeer? id = none → Event.about id before = []) ∧ Event.about id new =
      .enter id h.name h.headers q.endpoint :: h.groups.map fun group => .join id h.name group
  /-- The mailbox is one that was there before, or was opened in answer to the HELLO. -/
  mailbox : ∃ (u : Station κ μ) (p : Peer μ), s.Chores (fun _ _ => True) u ∧
    u.engine.roster.get? id = some p ∧ p.ready = false ∧ q.mailbox = p.mailbox

theorem Received.welcomes {h : Hello} (hr : s.Received (fun _ _ => True) id ⟨1, .hello h⟩ t)
    (hs : s.engine.Sound) {q : Peer μ} (hq : t.engine.readyPeer? id = some q) :
    s.Welcomes id h t q := by
  cases hr with
  | unheard hhello => cases hhello
  | refused _ _ hnone =>
    rw [hnone] at hq
    cases hq
  | lost _ hnone he =>
    rw [he, hnone] at hq
    cases hq
  | heeded hhello => cases hhello
  | @greeted u v p h' hm hu hp hr he _ _ hv =>
    obtain rfl : h = h' := Body.hello.inj (Message.mk.inj hm).2
    have hsound : v.engine.Sound := he ▸ (hu.sound hs).greeted hp h
    obtain ⟨before, hbefore, hmurmur, -⟩ := (hu.shifts hs).murmurs hs id
    obtain ⟨p', after, hp', hresumes, hgroups, hafter, habout⟩ := (hv.shifts hsound).abides id q hq
    obtain rfl : p' = p.introduced h :=
      Engine.eq_of_readyPeer?_insert (he ▸ Engine.roster_greeted u.engine id p h) hp'
    have hplace : q.endpoint = p.endpoint := hresumes.endpoint
    have hevents : v.engine.events = u.engine.events ++ .enter id h.name h.headers p.endpoint ::
        h.groups.map fun group => .join id h.name group := he ▸ rfl
    have hloud : ∀ ev ∈ Event.enter id h.name h.headers p.endpoint ::
        h.groups.map fun group => Event.join id h.name group, ev.isEvasive = false := by
      intro ev hev
      rcases List.mem_cons.mp hev with rfl | hev
      · rfl
      · obtain ⟨group, -, rfl⟩ := List.mem_map.mp hev
        rfl
    constructor
    case declaredName => exact hresumes.declaredName
    case headers => exact hresumes.headers
    case heard =>
      rw [Engine.heard_of_resumes hp' hq hresumes hgroups, he]
      exact Engine.heard_greeted (hu.sound hs) hp hr h
    case events =>
      refine ⟨before, (.enter id h.name h.headers p.endpoint ::
        h.groups.map fun group => .join id h.name group) ++ after, ?_, fun hout => ?_, ?_⟩
      · rw [hafter, hevents, hbefore]
        simp only [List.append_assoc]
      · rw [Event.about, hmurmur.silent (Engine.heard_of_none hout)]
        rfl
      · rw [Event.about_append, habout, hplace,
          Event.about_of_loud (Engine.peer?_greeted id p h) hloud, List.append_nil]
    case mailbox => exact ⟨u, p, hu, hp, hr, hresumes.mailbox⟩

theorem welcomes_step {h : Hello} (hs : s.engine.Sound) (walk : Walk)
    (hm : op.message? id = some ⟨1, .hello h⟩) {q : Peer μ}
    (hq : (s.step walk op).engine.readyPeer? id = some q) : s.Welcomes id h (s.step walk op) q := by
  cases hrun : s.engine.stopped with
  | true =>
    rw [step_of_stopped hrun walk hm, readyPeer?_of_stopped hs hrun] at hq
    cases hq
  | false =>
    obtain ⟨routingId, frames, now, rfl, hid, hdecode⟩ := Op.exists_of_message? hm
    have hreceived : s.Received (fun _ _ => True) id ⟨1, .hello h⟩
        (s.receive walk routingId frames now) :=
      received_receive hs hrun walk hdecode hid (fun _ => trivial) now
    exact hreceived.welcomes hs hq

end

section
variable [Carriage κ μ] {s t : Station (Ledger κ) (Box μ)} {id : PeerId} {q : Peer (Box μ)}

theorem brought_ledgered (s : Station (Ledger κ) (Box μ)) (id : PeerId) (turns : List (Turn κ)) :
    brought id (s.ledgered turns) = brought id turns := by
  induction turns generalizing s with
  | nil => rfl
  | cons x turns ih =>
    rw [ledgered, brought_cons, brought_cons, ih]
    rfl

theorem answers_keep (hs : s.engine.Sound) (hk : s.Kept) {turns : List (Turn κ)}
    (hm : ∀ m ∈ brought id turns, m.isHello = false)
    (hq : (s.keep turns).engine.readyPeer? id = some q) {box : Box μ} (hbox : q.mailbox = some box) :
    (s.keep turns).carriage.answers box.number = s.carriage.answers box.number +
      (brought id turns).countP fun m => decide (m.body = .ping) := by
  induction turns generalizing s with
  | nil => rfl
  | cons x turns ih =>
    let y := s.onLedger x
    have hone : brought id [y] = (x.op.message? id).toList := by
      rw [brought_cons]
      exact List.append_nil _
    rw [brought_cons] at hm ⊢
    have hfirst : ∀ m ∈ brought id [y], m.isHello = false := by
      rw [hone]
      exact fun m h => hm m (List.mem_append_left _ h)
    have hlater : ∀ m ∈ brought id turns, m.isHello = false :=
      fun m h => hm m (List.mem_append_right _ h)
    obtain ⟨r, -, hr, hremains, -⟩ := attends_run (s := s.turn y) (sound_turn hs y)
      (by rwa [brought_ledgered]) hq
    have hr' : (s.run [y]).engine.readyPeer? id = some r := hr
    obtain ⟨p, -, hp, hremains', -⟩ := attends_run hs hfirst hr'
    have hbox' : p.mailbox = some box := by rw [← hremains'.mailbox, ← hremains.mailbox, hbox]
    have hstep := answers_step (s := { s with carriage := y.carriage }) hs (Books.own hk rfl rfl rfl)
      x.walk x.op hp hbox' hr
    have hrest := ih (sound_turn hs y) (kept_turn hs hk x).1 hlater hq
    rw [keep_cons, hrest, List.countP_append, ← Nat.add_assoc]
    exact congrArg (· + _) hstep

theorem Welcomes.unanswered {h : Hello} (hw : s.Welcomes id h t q) (hs : s.engine.Sound)
    (hu : s.Unanswered) {box : Box μ} (hbox : q.mailbox = some box) :
    s.carriage.answers box.number = 0 := by
  obtain ⟨u, p, hchores, hp, hready, hsame⟩ := hw.mailbox
  rcases (hchores.recalls hs).entry hp (hsame.symm.trans hbox) with
    ⟨p₀, hp₀, hbox₀, hout₀⟩ | hnew
  · exact hu id p₀ box hp₀ (hout₀ hready) hbox₀
  · exact Ledger.times_of_none (List.getElem?_eq_none_iff.mpr hnew) .pingOk

/-- A HELLO is not answered by a PING_OK, even if a mailbox was there to put one into. -/
theorem answers_welcome {h : Hello} (hs : s.engine.Sound) (hk : s.Kept) (hu : s.Unanswered)
    (walk : Walk) {op : Op} (hm : op.message? id = some ⟨1, .hello h⟩)
    (hout : s.engine.readyPeer? id = none) (hq : (s.step walk op).engine.readyPeer? id = some q)
    {box : Box μ} (hbox : q.mailbox = some box) :
    (s.step walk op).carriage.answers box.number = 0 := by
  rw [← (welcomes_step hs walk hm hq).unanswered hs hu hbox]
  refine answers_step_other hs hk walk op fun {j m p box'} hm' hp _ _ => ?_
  by_cases hj : j = id
  · rw [hj, hout] at hp
    cases hp
  · rw [Op.message?_of_other hm' hj] at hm
    cases hm

theorem unanswered_keep (hs : s.engine.Sound) (hk : s.Kept) (hu : s.Unanswered)
    (turns : List (Turn κ)) : (s.keep turns).Unanswered := by
  induction turns generalizing s with
  | nil => exact hu
  | cons x turns ih =>
    have hfound : ({ s with carriage := (s.onLedger x).carriage } : Station _ _).Unanswered := hu
    have hnext := hfound.step hs (Books.own hk rfl rfl rfl) x.walk x.op
    exact ih (sound_turn hs (s.onLedger x)) (kept_turn hs hk x).1 hnext

/-- What an engine made of a session, after turns that brought a HELLO of a peer and then `rest`. -/
structure Understood (s : Station (Ledger κ) (Box μ)) (turns : List (Turn κ)) (peer : PeerId)
    (h : Hello) (rest : List Message) (q : Peer (Box μ)) : Prop where
  /-- The ledger, which serves to count answers, makes no difference to the run. -/
  plain : (s.keep turns).plain = s.plain.run turns
  events : ∃ new, s.told (s.ledgered turns) = s.engine.events ++ new ∧ Event.about peer new =
    .enter peer h.name h.headers q.endpoint :: h.groups.map (fun group => .join peer h.name group) ++
      rest.flatMap fun m => m.body.reports peer h.name
  groups : ∀ group, group ∈ (s.keep turns).engine.groupsOf peer ↔
    rest.foldl (fun isIn m => m.body.groupsAfter isIn) (fun g => decide (g ∈ h.groups)) group = true
  /-- The status is the last that was told, whether or not it was the one to be expected. -/
  status : (statuses (⟨1, .hello h⟩ :: rest)).getLast? = some q.status
  declaredName : q.declaredName = some h.name
  headers : q.headers = h.headers
  answers : ∃ box, q.mailbox = some box ∧ (s.keep turns).carriage.answers box.number =
    rest.countP fun m => decide (m.body = .ping)

theorem understood_keep (hs : s.engine.Sound) (hk : s.Kept) (hu : s.Unanswered)
    (hout : s.engine.readyPeer? id = none) {x : Turn κ} {after : List (Turn κ)} {h : Hello}
    (hx : x.op.message? id = some ⟨1, .hello h⟩)
    (hrest : ∀ m ∈ brought id after, m.isHello = false)
    (hq : (s.keep (x :: after)).engine.readyPeer? id = some q) :
    s.Understood (x :: after) id h (brought id after) q := by
  let y := s.onLedger x
  let t := s.turn y
  have ht : t.engine.Sound := sound_turn hs y
  have hkt : t.Kept := (kept_turn hs hk x).1
  have hrun : ∀ m ∈ brought id (t.ledgered after), m.isHello = false := by
    rwa [brought_ledgered]
  obtain ⟨p, new, hp, hremains, hheard, htold, habout⟩ := attends_run ht hrun hq
  rw [brought_ledgered] at hheard habout
  have hw : ({ s with carriage := y.carriage } : Station _ _).Welcomes id h t p :=
    welcomes_step (s := { s with carriage := y.carriage }) hs x.walk hx hp
  have hname : p.name = h.name := by
    rw [Peer.name, hw.declaredName]
    rfl
  -- What was heard in the end, once by replaying the session and once from the tables.
  rw [hw.heard, replay_some hrest] at hheard
  have hsame := Option.some.inj ((Engine.heard_of_ready hq).symm.trans hheard)
  constructor
  case plain => exact s.plain_keep (x :: after)
  case events =>
    obtain ⟨before, greeting, hgreeting, hsilent, hentered⟩ := hw.events
    have hquiet : s.handed x.op = [] := by
      obtain ⟨_, _, _, hop, -⟩ := Op.exists_of_message? hx
      rw [hop]
      rfl
    have hstep : s.told (s.ledgered (x :: after)) = s.handed x.op ++ t.told (t.ledgered after) :=
      s.told_cons y (t.ledgered after)
    refine ⟨before ++ greeting ++ new, ?_, ?_⟩
    · rw [hstep, hquiet, htold, hgreeting]
      exact List.append_assoc ..
    · rw [Event.about_append, Event.about_append, hsilent hout, hentered, habout, hremains.endpoint,
        hname]
      rfl
  case groups =>
    intro group
    have hmember := congrFun (congrArg Heard.isIn hsame) group
    rw [isIn_foldl_heed] at hmember
    rw [Engine.mem_groupsOf]
    exact Bool.eq_iff_iff.mp hmember
  case status =>
    have hstatus : q.status = _ := congrArg Heard.status hsame
    rw [statuses_cons, hstatus]
    exact status_replay hrest (replay_some hrest (.greeting h))
  case declaredName => rw [hremains.declaredName, hw.declaredName]
  case headers => rw [hremains.headers, hw.headers]
  case answers =>
    obtain ⟨box, -, hbox, -⟩ := hkt.entry (Engine.readyPeer?_eq_some.mp hp).1
    have hfirst : t.carriage.answers box.number = 0 :=
      answers_welcome (s := { s with carriage := y.carriage }) hs (Books.own hk rfl rfl rfl) hu x.walk
        hx hout hp hbox
    have hbox' : q.mailbox = some box := by rw [hremains.mailbox, hbox]
    have hall := answers_keep ht hkt hrest hq hbox'
    rw [hfirst, Nat.zero_add] at hall
    exact ⟨box, hbox', hall⟩

/-- Whatever was done to an engine that was new, and whatever is done to it between the messages of
the session. -/
theorem understood_run_new (id : PeerId) (name endpoint : String) (timing : Timing) (carriage : κ)
    (before after : List (Turn κ)) (x : Turn κ) {peer : PeerId} {h : Hello} {q : Peer (Box μ)}
    (hout : ((new (Engine.new id name endpoint timing : Engine (Box μ)) ⟨carriage, []⟩).keep
      before).engine.readyPeer? peer = none)
    (hx : x.op.message? peer = some ⟨1, .hello h⟩)
    (hseq : InSequence (brought peer (x :: after)))
    (hq : ((new (Engine.new id name endpoint timing : Engine (Box μ)) ⟨carriage, []⟩).keep
      (before ++ x :: after)).engine.readyPeer? peer = some q) :
    ((new (Engine.new id name endpoint timing : Engine (Box μ)) ⟨carriage, []⟩).keep
      before).Understood (x :: after) peer h (brought peer after) q := by
  let s : Station (Ledger κ) (Box μ) := new (Engine.new id name endpoint timing) ⟨carriage, []⟩
  have hs : s.engine.Sound := Engine.sound_new id name endpoint timing
  have hk : s.Kept := Books.new _ carriage rfl _
  have hu : s.Unanswered := fun _ _ _ hp => by cases hp
  rw [keep_append] at hq
  rw [brought_cons, hx] at hseq
  exact understood_keep (sound_keep hs before) (kept_keep hs hk before) (unanswered_keep hs hk hu before)
    hout hx hseq.tail hq

/-- A peer that is in a group twice over, gives a status that was not to be expected and sends a
PING, while the engine joins a group itself and its events are taken. -/
theorem understood_run_mismatched :
    let ann : PeerId := ⟨.replicate 16 1, rfl⟩
    let bob : PeerId := ⟨.replicate 16 2, rfl⟩
    let net := Network.empty.bind "b"
    let h : Hello := ⟨"b", ["g", "f", "g"], 255, "bob", .empty⟩
    let rest : List Message := [⟨2, .ping⟩, ⟨3, .join "k" 7⟩, ⟨4, .leave "g" 8⟩]
    let turn (op : Op) : Turn Network := ⟨.ascending, net, op⟩
    let hear (m : Message) : Turn Network :=
      turn (.receive bob.routingId ((Wire.encode m).toOption.getD []) 0)
    let s : Station (Ledger Network) (Box Network.Mailbox) := new (.new ann "ann" "a" .usual) ⟨net, []⟩
    let before := [turn (.discover (.found bob "b") 0)]
    let after := [turn (.join "mine"), hear ⟨2, .ping⟩, turn .drain, hear ⟨3, .join "k" 7⟩,
      hear ⟨4, .leave "g" 8⟩]
    (s.keep before).engine.readyPeer? bob = none ∧ brought bob after = rest ∧
      InSequence (brought bob (hear ⟨1, .hello h⟩ :: after)) ∧
      ∃ q, (s.keep (before ++ hear ⟨1, .hello h⟩ :: after)).engine.readyPeer? bob = some q ∧
        (s.keep before).Understood (hear ⟨1, .hello h⟩ :: after) bob h rest q := by
  intro ann bob net h rest turn hear s before after
  have hout : (s.keep before).engine.readyPeer? bob = none :=
    Option.isNone_iff_eq_none.mp (by decide +kernel)
  have hx : (hear ⟨1, .hello h⟩).op.message? bob = some ⟨1, .hello h⟩ := by decide +kernel
  have hrest : brought bob after = rest := by decide +kernel
  have hseq : InSequence (brought bob (hear ⟨1, .hello h⟩ :: after)) := by
    rw [brought_cons, hx, hrest]
    exact (((InSequence.nil.snoc rfl (by decide)).snoc rfl (by decide)).snoc rfl (by decide)).snoc rfl
      (by decide)
  obtain ⟨q, hq⟩ := Option.isSome_iff_exists.mp (show
    ((s.keep (before ++ hear ⟨1, .hello h⟩ :: after)).engine.readyPeer? bob).isSome = true by
      decide +kernel)
  have hunderstood := understood_run_new ann "ann" "a" .usual net before after (hear ⟨1, .hello h⟩) hout
    hx hseq hq
  rw [hrest] at hunderstood
  exact ⟨hout, hrest, hseq, q, hq, hunderstood⟩

end
end Station
end PeerMesh
