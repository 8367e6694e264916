import PeerMesh.Proofs.Station.Tally
import PeerMesh.Proofs.Station.Verdicts

/-!
# Counting the answers to PINGs

The ledger tells how many PING_OKs a mailbox was handed. A PING in sequence adds one to the line of
its sender; nothing else adds to any line. In particular a peer that has not greeted was sent none.
-/

namespace PeerMesh
set_option autoImplicit false

namespace Line

/-- How many PING_OKs the mailbox was handed, whatever it answered. -/
def answers (l : Line) : Nat :=
  l.countP fun call => decide ((Wire.decode call.1).toOption.map (·.body) = some .pingOk)

end Line

namespace Ledger
variable {κ : Type}

def answers (c : Ledger κ) (i : Nat) : Nat := (c.lines[i]?.map Line.answers).getD 0

theorem answers_eq_times (c : Ledger κ) (i : Nat) : c.answers i = c.times .pingOk i := rfl

end Ledger

namespace Station
variable {κ μ : Type} [Carriage κ μ] {s t : Station (Ledger κ) (Box μ)} {id j : PeerId}
  {p q : Peer (Box μ)} {m : Message}

/-- A PING in sequence is answered on the line of its sender, even if the sender is lost by that. -/
theorem answers_accept_ping (hs : s.engine.Sound) (hk : s.Kept)
    (hp : s.engine.readyPeer? id = some p) (hm : m.body = .ping) (hn : m.sequence = p.want + 1)
    (now : Nat) : ∃ box, p.mailbox = some box ∧
      ∀ i, (s.accept id m now).carriage.answers i =
        s.carriage.answers i + if i = box.number then 1 else 0 := by
  obtain ⟨box, l, hbox, hl, -⟩ := hk.entry (Engine.readyPeer?_eq_some.mp hp).1
  obtain ⟨frames, result, hf, hsend, -⟩ := accept_ping hs hp hm hn hbox now
  refine ⟨box, hbox, fun i => ?_⟩
  rw [Ledger.answers_eq_times, Ledger.times_of_write hl (Ledger.lines_of_send hsend),
    Line.times_call hf, if_pos rfl]
  rfl

/-- The only line that a message may add to is that of its sender. -/
theorem answers_accept (hs : s.engine.Sound) (hk : s.Kept) (m : Message) (now : Nat) {i : Nat}
    (hi : ∀ {p : Peer (Box μ)} {box}, s.engine.readyPeer? id = some p → p.mailbox = some box →
      i ≠ box.number) : (s.accept id m now).carriage.answers i = s.carriage.answers i := by
  by_cases hm : m.body = .ping
  · cases hp : s.engine.readyPeer? id with
    | none =>
      rw [accept_unready hp, carriage_note]
    | some p =>
      by_cases hn : m.sequence = p.want + 1
      · obtain ⟨box, hbox, hanswers⟩ := answers_accept_ping hs hk hp hm hn now
        rw [hanswers, if_neg (hi hp hbox)]
        rfl
      · have hhello := Message.isHello_of_ping hm
        have hloss : p.showsLoss m = true := (Peer.showsLoss_eq_true hhello).mpr hn
        rw [carriage_accept_lost hp hloss]
  · rw [carriage_accept s id hm]

/-- An operation adds to no line but that of a peer whose PING it brings. -/
theorem answers_step_other (hs : s.engine.Sound) (hk : s.Kept) (walk : Walk) (op : Op) {i : Nat}
    (hi : ∀ {j m} {p : Peer (Box μ)} {box}, op.message? j = some m → s.engine.readyPeer? j = some p →
      p.mailbox = some box → i ≠ box.number) :
    (s.step walk op).carriage.answers i = s.carriage.answers i := by
  by_cases hping : ∃ j m, op.message? j = some m ∧ m.body = .ping
  · obtain ⟨j, m, hmessage, hm⟩ := hping
    cases hrun : s.engine.stopped with
    | true => rw [step_of_stopped hrun walk hmessage]
    | false =>
      obtain ⟨now, haccept⟩ := accept_of_message hrun walk hmessage (Message.isHello_of_ping hm)
      rw [haccept]
      exact answers_accept hs hk m now (hi hmessage)
  · refine Ledger.times_of_calls (calls_step walk s fun {j m} hm hbody => ?_) i
    exact hping ⟨j, m, hm, hbody⟩

/-- Of all that may happen while a peer stays, its own PINGs alone add to the answers on its line. -/
theorem answers_step (hs : s.engine.Sound) (hk : s.Kept) (walk : Walk) (op : Op)
    (hp : s.engine.readyPeer? id = some p) {box : Box μ} (hbox : p.mailbox = some box)
    (hq : (s.step walk op).engine.readyPeer? id = some q) :
    (s.step walk op).carriage.answers box.number = s.carriage.answers box.number +
      (op.message? id).toList.countP fun m => decide (m.body = .ping) := by
  have hentry := (Engine.readyPeer?_eq_some.mp hp).1
  cases hmessage : op.message? id with
  | none =>
    refine answers_step_other hs hk walk op fun {j m p' box'} hm hp' hbox' hsame => ?_
    have hentry' := (Engine.readyPeer?_eq_some.mp hp').1
    obtain rfl := hk.apart hentry hentry' hbox hbox' hsame
    rw [hmessage] at hm
    cases hm
  | some m =>
    by_cases hm : m.body = .ping
    · have hhello := Message.isHello_of_ping hm
      obtain ⟨now, haccept⟩ := accept_of_message (hs.running hentry) walk hmessage hhello
      rw [haccept] at hq ⊢
      have hn : m.sequence = p.want + 1 := by
        by_contra hn
        have hlost := (loses_accept hp hhello hn now).engine
        rw [hlost, Engine.readyPeer?_drop, if_pos rfl] at hq
        cases hq
      obtain ⟨box', hbox', hanswers⟩ := answers_accept_ping hs hk hp hm hn now
      obtain rfl := Option.some.inj (hbox.symm.trans hbox')
      have hone : (some m).toList.countP (fun m => decide (m.body = .ping)) = 1 := by simp [hm]
      rw [hanswers, if_pos rfl, hone]
    · have hnone : (some m).toList.countP (fun m => decide (m.body = .ping)) = 0 := by simp [hm]
      rw [hnone]
      refine Ledger.times_of_calls (calls_step walk s fun {j m'} hm' hbody => ?_) box.number
      by_cases hj : j = id
      · subst hj
        obtain rfl := Option.some.inj (hmessage.symm.trans hm')
        exact hm hbody
      · rw [Op.message?_of_other hm' hj] at hmessage
        cases hmessage

/-! ### Peers that have not greeted -/

/-- Whoever has an entry at `t` had it at `s` and had greeted no more than now, or has a mailbox that
was not open then. -/
structure Recalls (s t : Station (Ledger κ) (Box μ)) : Prop where
  lines : s.carriage.lines.length ≤ t.carriage.lines.length
  entry : ∀ {id q} {box : Box μ}, t.engine.roster.get? id = some q → q.mailbox = some box →
    (∃ p, s.engine.roster.get? id = some p ∧ p.mailbox = some box ∧
      (q.ready = false → p.ready = false)) ∨ s.carriage.lines.length ≤ box.number

namespace Recalls
variable {u : Station (Ledger κ) (Box μ)}

omit [Carriage κ μ] in
theorem of_entries (hlines : t.carriage.lines.length = s.carriage.lines.length)
    (hentry : ∀ {id q}, t.engine.roster.get? id = some q → ∃ p, s.engine.roster.get? id = some p ∧
      q.mailbox = p.mailbox ∧ (q.ready = false → p.ready = false)) : s.Recalls t where
  lines := Nat.le_of_eq hlines.symm
  entry hq hbox := by
    obtain ⟨p, hp, hsame, hout⟩ := hentry hq
    exact .inl ⟨p, hp, hsame ▸ hbox, hout⟩

omit [Carriage κ μ] in
theorem of_same (he : t.engine.roster = s.engine.roster)
    (hc : t.carriage.lines.length = s.carriage.lines.length) : s.Recalls t :=
  of_entries hc fun hq => ⟨_, he ▸ hq, rfl, fun h => h⟩

omit [Carriage κ μ] in
theorem of_insert {p' : Peer (Box μ)} (hp : s.engine.roster.get? id = some p)
    (he : t.engine.roster = s.engine.roster.insert id p')
    (hc : t.carriage.lines.length = s.carriage.lines.length) (hbox : p'.mailbox = p.mailbox)
    (hready : p'.ready = false → p.ready = false) : s.Recalls t := by
  refine of_entries hc fun {j q} hq => ?_
  rw [he, SortedMap.get?_insert] at hq
  split at hq
  · rename_i hj
    obtain rfl := Option.some.inj hq
    exact ⟨p, hj ▸ hp, hbox, hready⟩
  · exact ⟨q, hq, rfl, fun h => h⟩

omit [Carriage κ μ] in
theorem of_drop (he : t.engine = s.engine.drop id)
    (hc : t.carriage.lines.length = s.carriage.lines.length) : s.Recalls t := by
  refine of_entries hc fun {j q} hq => ?_
  rw [he, Engine.get?_drop] at hq
  split at hq
  · cases hq
  · exact ⟨q, hq, rfl, fun h => h⟩

omit [Carriage κ μ] in
theorem trans (h : s.Recalls t) (h' : t.Recalls u) : s.Recalls u where
  lines := Nat.le_trans h.lines h'.lines
  entry hq hbox := by
    rcases h'.entry hq hbox with ⟨p, hp, hbox', hout⟩ | hnew
    · rcases h.entry hp hbox' with ⟨p₀, hp₀, hbox₀, hout₀⟩ | hnew
      · exact .inl ⟨p₀, hp₀, hbox₀, fun hq => hout₀ (hout hq)⟩
      · exact .inr hnew
    · exact .inr (Nat.le_trans h.lines hnew)

end Recalls

theorem Posted.recalls {body : Body} (h : s.Posted id body t) : s.Recalls t := by
  have hlines : ∀ {box : Box μ} {frames result},
      Carriage.send s.carriage box frames = (result, t.carriage) →
      t.carriage.lines.length = s.carriage.lines.length := by
    intro box frames result hs
    rw [Ledger.lines_of_send hs, List.length_modify]
  cases h with
  | unmoved _ he hc => exact .of_same (he ▸ rfl) (hc ▸ rfl)
  | taken hp _ _ hs he =>
    exact .of_insert hp (congrArg Engine.roster he) (hlines hs) rfl fun h => h
  | rejected _ _ hs _ he => exact .of_same (he ▸ rfl) (hlines hs)
  | lost _ _ hs _ he => exact .of_drop he (hlines hs)

theorem Meeting.recalls {endpoint : String} {now : Nat} {granted : Bool}
    (h : s.Meeting id endpoint now (granted, t)) : s.Recalls t := by
  have hopened : ∀ {frames box c result}, Carriage.connect s.carriage s.engine.id.routingId endpoint =
      (.ok box, c) → Carriage.send c box frames = (result, t.carriage) →
      box.number = s.carriage.lines.length ∧
        s.carriage.lines.length ≤ t.carriage.lines.length := by
    intro frames box c result hc hs
    obtain ⟨hnumber, hlines⟩ := Ledger.lines_of_first hc hs
    rw [hlines, List.length_append]
    exact ⟨hnumber, Nat.le_add_right ..⟩
  cases h with
  | unreached hc he => exact .of_same (he ▸ rfl) (congrArg _ (Ledger.lines_of_unreached hc))
  | formless hc _ he =>
    refine ⟨?_, fun hq hbox => .inl ⟨_, he ▸ hq, hbox, fun h => h⟩⟩
    rw [(Ledger.lines_of_opened hc).2, List.length_append]
    exact Nat.le_add_right ..
  | shut hc hs he =>
    exact ⟨(hopened hc hs).2, fun hq hbox => .inl ⟨_, he ▸ hq, hbox, fun h => h⟩⟩
  | met hc _ hs he =>
    refine ⟨(hopened hc hs).2, fun {j q box'} hq hbox => ?_⟩
    rw [he, Engine.putPeer, SortedMap.get?_insert] at hq
    split at hq
    · obtain rfl := Option.some.inj hq
      obtain rfl := Option.some.inj hbox
      exact .inr (Nat.le_of_eq (hopened hc hs).1.symm)
    · exact .inl ⟨q, hq, hbox, fun h => h⟩

section
variable {near : PeerId → String → Prop} {u : Station (Ledger κ) (Box μ)} {body : Body}
  {ids : List PeerId} {op : Op}

theorem Chore.recalls (h : s.Chore near t) (hs : s.engine.Sound) : s.Recalls t := by
  cases h with
  | jot he hc => exact .of_same (he ▸ rfl) (hc ▸ rfl)
  | post id body => exact (s.posted_post id body fun _ => hs.filed).recalls
  | evade id =>
    cases hp : s.engine.roster.get? id with
    | none =>
      rw [evade_of_none hp]
      exact .of_same rfl rfl
    | some p =>
      have hroster := congrArg Engine.roster (engine_evade hp)
      exact .of_insert hp hroster (by rw [carriage_evade]) rfl fun h => h
  | remove id => exact .of_drop (s.engine_remove id) (by rw [carriage_remove])
  | meet now => exact (s.meeting_meet _ _ now).recalls
  | refresh id now =>
    cases hp : s.engine.roster.get? id with
    | none => exact .of_same (congrArg Engine.roster (Engine.editPeer_of_none hp _)) rfl
    | some p =>
      have hroster := congrArg Engine.roster (Engine.editPeer_of_some hp
        (·.refresh now s.engine.timing.evasive s.engine.timing.expired))
      exact .of_insert hp hroster rfl rfl fun h => h

theorem Chores.recalls (h : s.Chores near t) (hs : s.engine.Sound) : s.Recalls t := by
  induction h with
  | refl => exact .of_same rfl rfl
  | tail h' h ih => exact ih.trans (h.recalls (Chores.sound h' hs))

theorem recalls_posts (hs : s.engine.Sound) (body : Body) (ids : List PeerId) :
    s.Recalls (s.posts body ids) := by
  induction ids generalizing s with
  | nil => exact .of_same rfl rfl
  | cons id ids ih =>
    have hposted := s.posted_post id body fun _ => hs.filed
    exact hposted.recalls.trans (ih (hposted.shifts.sound hs))

theorem Announced.recalls (h : u.Announced body ids t) (hu : u.engine.Sound) : u.Recalls t :=
  (recalls_posts hu body ids).trans (.of_same (congrArg Engine.roster h.engine) (h.carriage ▸ rfl))

theorem Received.recalls (h : s.Received near id m t) (hs : s.engine.Sound) : s.Recalls t := by
  cases h with
  | unheard _ _ he hc => exact .of_same (he ▸ rfl) (hc ▸ rfl)
  | refused _ h => exact h.recalls hs
  | lost h _ he hc => exact (h.recalls hs).trans (.of_same (he ▸ rfl) (hc ▸ rfl))
  | @greeted u v p hello _ hu hp _ he hc _ hv =>
    have hroster := (congrArg Engine.roster he).trans (Engine.roster_greeted _ id p hello)
    have hgreet : u.Recalls v := .of_insert hp hroster (hc ▸ rfl) rfl fun h => by cases h
    have hsound : v.engine.Sound := he ▸ (hu.sound hs).greeted hp hello
    exact ((hu.recalls hs).trans hgreet).trans (hv.recalls hsound)
  | @heeded v p _ hp _ he hc _ hv =>
    obtain ⟨hentry, hready⟩ := Engine.readyPeer?_eq_some.mp hp
    have hroster := (congrArg Engine.roster he).trans (Engine.roster_heeded _ id p m.body)
    have hheed : s.Recalls v := .of_insert hentry hroster (hc ▸ rfl) rfl fun h => h
    have hsound : v.engine.Sound := he ▸ hs.heeded hentry hready m.body
    exact hheed.trans (hv.recalls hsound)

theorem Performed.recalls (h : s.Performed near op t) (hs : s.engine.Sound) : s.Recalls t := by
  cases h with
  | worked h => exact h.recalls hs
  | dressed _ he hc | drained he hc => exact .of_same (he ▸ rfl) (hc ▸ rfl)
  | @joined group _ u _ _ hok he hc _ h =>
    have hown : s.Recalls u := .of_same (he ▸ rfl) (hc ▸ rfl)
    exact hown.trans (h.recalls (he ▸ hs.enlist hok))
  | @left group _ u _ _ he hc _ h =>
    have hown : s.Recalls u := .of_same (he ▸ rfl) (hc ▸ rfl)
    exact hown.trans (h.recalls (he ▸ hs.delist group))
  | halted _ he hc =>
    refine .of_entries (hc ▸ rfl) fun hq => ?_
    rw [he] at hq
    cases hq
  | received _ _ _ h => exact h.recalls hs

end

/-- No peer that has not greeted was sent a PING_OK. -/
def Unanswered (s : Station (Ledger κ) (Box μ)) : Prop :=
  ∀ id p (box : Box μ), s.engine.roster.get? id = some p → p.ready = false →
    p.mailbox = some box → s.carriage.answers box.number = 0

theorem Unanswered.step (h : s.Unanswered) (hs : s.engine.Sound) (hk : s.Kept) (walk : Walk)
    (op : Op) : (s.step walk op).Unanswered := by
  intro id q box hq hready hbox
  have hold : ∀ {j p}, s.engine.readyPeer? j = some p → ∃ box' : Box μ, p.mailbox = some box' ∧
      box'.number < s.carriage.lines.length := by
    intro j p hp
    obtain ⟨box', l, hbox', hl, -⟩ := hk.entry (Engine.readyPeer?_eq_some.mp hp).1
    exact ⟨box', hbox', (List.getElem?_eq_some_iff.mp hl).1⟩
  rcases ((performed_anywhere hs walk op).recalls hs).entry hq hbox with
    ⟨p, hp, hbox', hgreeted⟩ | hnew
  · have hout := hgreeted hready
    rw [← h id p box hp hout hbox']
    refine answers_step_other hs hk walk op fun {j m p' box''} _ hp' hbox'' hsame => ?_
    obtain ⟨hentry', hready'⟩ := Engine.readyPeer?_eq_some.mp hp'
    obtain rfl := hk.apart hp hentry' hbox' hbox'' hsame
    obtain rfl := Option.some.inj (hp.symm.trans hentry')
    rw [hout] at hready'
    cases hready'
  · rw [← Ledger.times_of_none (List.getElem?_eq_none_iff.mpr hnew) .pingOk]
    refine answers_step_other hs hk walk op fun {j m p' box''} _ hp' hbox'' hsame => ?_
    obtain ⟨box₀, hbox₀, hlt⟩ := hold hp'
    obtain rfl := Option.some.inj (hbox''.symm.trans hbox₀)
    omega

end Station
end PeerMesh
