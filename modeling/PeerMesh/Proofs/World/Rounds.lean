import PeerMesh.Proofs.Station.Touch

/-!
# A node that answers is not given up

Two nodes that listen to each other go on in rounds. In a round anything may be said; each node
looks once for silent peers, and in the end all inboxes are empty. If the sweeps follow each other
closely enough, neither node ever gives up the other.

A single move is a step of the bond between the two, and what is still `Due` says when the next
sweep may come. The run goes through the moves of a round one by one; at the end of the round, when
nobody is evasive, it goes on with the next one.
-/

namespace PeerMesh
set_option autoImplicit false

namespace Move

/-- Whether a move may part with a peer that is well. -/
def severs : Move → Bool
  | .act _ _ op _ => op.severs
  | .find .. | .deliver .. => false

/-- When node `n` looks for silent peers, if it does. -/
def sweep? (n : Nat) : Move → Option Nat
  | .act k _ op _ => if k = n then op.sweep? else none
  | .find .. | .deliver .. => none

/-- The time of a move, if it needs one. -/
def time? : Move → Option Nat
  | .act _ _ op _ => op.sweep?
  | .find _ _ _ now | .deliver _ _ now => some now

/-- The node that does something in a move. -/
def actor : Move → Nat
  | .act n .. | .find n .. | .deliver n .. => n

/-- Whether the application takes the events in a move. -/
def drains : Move → Bool
  | .act _ _ .drain _ => true
  | _ => false

variable {m : Move} {n : Nat} {now : Nat}

theorem time?_of_sweep? (h : m.sweep? n = some now) : m.actor = n ∧ m.time? = some now := by
  cases m with
  | act k walk op hop =>
    rw [sweep?] at h
    split at h
    · exact ⟨‹k = n›, h⟩
    · cases h
  | find | deliver => cases h

theorem sweep?_of_other (h : m.actor ≠ n) : m.sweep? n = none := by
  cases m with
  | act k walk op hop => exact if_neg h
  | find | deliver => rfl

end Move

/-! ### Moves in touch -/

namespace World
variable {w : World Network Network.Mailbox} {n k : Nat} {me whom : Party} {b b' : Bond}
  {last now : Nat} {m : Move}

/-- Of two nodes on a network, number `n` is `me`, which is in touch with number `k`, `whom`. -/
structure InTouch (w : World Network Network.Mailbox) (n k : Nat) (me whom : Party) (b : Bond) :
    Prop where
  apart : n ≠ k
  two : ∀ i, i ≠ n → i ≠ k → w.engines[i]? = none
  near : ∃ e, w.engines[n]? = some e ∧ e.Holds me whom b.near
  far : ∃ f, w.engines[k]? = some f ∧ f.Holds whom me b.far
  inbox : w.carriage.Brings whom.id me.endpoint b.near.inbox
  outbox : w.carriage.Brings me.id whom.endpoint b.far.inbox

namespace InTouch

theorem symm (h : w.InTouch n k me whom b) : w.InTouch k n whom me b.swap :=
  ⟨h.apart.symm, fun i hk hn => h.two i hn hk, h.far, h.near, h.outbox, h.inbox⟩

theorem station (h : w.InTouch n k me whom b) {e : Engine Network.Mailbox}
    (he : w.engines[n]? = some e) (journal : Array Note) :
    (⟨e, w.carriage, journal⟩ : Station Network Network.Mailbox).InTouch me whom b := by
  obtain ⟨e', he', hholds⟩ := h.near
  obtain rfl := Option.some.inj (he.symm.trans he')
  exact ⟨hholds, h.inbox, h.outbox⟩

/-- The near node has done something, and the far one has something to read at most. -/
theorem set (h : w.InTouch n k me whom b) {t : Station Network Network.Mailbox}
    (ht : t.InTouch me whom b') (hfar : b'.far = { b.far with inbox := b'.far.inbox }) :
    InTouch ⟨w.engines.set n t.engine, t.carriage, t.journal⟩ n k me whom b' where
  apart := h.apart
  two i hn hk := by
    rw [List.getElem?_set_ne hn.symm]
    exact h.two i hn hk
  near := by
    obtain ⟨e, he, -⟩ := h.near
    exact ⟨t.engine, List.getElem?_set_self (List.getElem?_eq_some_iff.mp he).1, ht.holds⟩
  far := by
    obtain ⟨f, hf, hholds⟩ := h.far
    rw [hfar]
    exact ⟨f, (List.getElem?_set_ne h.apart).trans hf, hholds.unread _⟩
  inbox := ht.inbox
  outbox := ht.outbox

theorem unmoved (h : w.InTouch n k me whom b) (hm : m.actor ≠ n) (hm' : m.actor ≠ k) :
    w.move m = w := by
  have hnone := h.two m.actor hm hm'
  cases m with
  | act i walk op hop =>
    rw [move, perform, visit, show w.engines[i]? = none from hnone]
  | find i j walk now =>
    rw [move]
    split
    · rfl
    · rw [perform, visit, show w.engines[i]? = none from hnone]
  | deliver i walk now =>
    rw [move, deliver, show w.engines[i]? = none from hnone]

/-! #### Moves of the near node -/

theorem act (h : w.InTouch n k me whom b) (walk : Walk) {op : Op} (hop : op.isLocal = true)
    (hstays : op.severs = false) (hdrain : op ≠ .drain)
    (hnow : ∀ now, op.sweep? = some now → now < b.near.pulse.expiredAt) (last : Nat) :
    ∃ b', Bond.Step me.timing last b op.sweep? b' ∧
      (w.move (.act n walk op hop)).InTouch n k me whom b' := by
  obtain ⟨e, he, -⟩ := h.near
  obtain ⟨b', hstep, htouch⟩ := (h.station he w.journal).act walk hop hstays hdrain hnow last
  rw [move, perform_of_some he]
  exact ⟨b', hstep, h.set htouch hstep.far_eq⟩

theorem drain (h : w.InTouch n k me whom b) (walk : Walk) (hop : Op.drain.isLocal = true) :
    (w.move (.act n walk .drain hop)).InTouch n k me whom b.take := by
  obtain ⟨e, he, -⟩ := h.near
  rw [move, perform_of_some he]
  exact h.set (h.station he w.journal).drain rfl

theorem find (h : w.InTouch n k me whom b) (j : Nat) (walk : Walk) (hnow : last ≤ now) :
    ∃ b', Bond.Step me.timing last b none b' ∧
      (w.move (.find n j walk now)).InTouch n k me whom b' := by
  obtain ⟨e, he, -⟩ := h.near
  obtain ⟨f, hf, hholds⟩ := h.far
  have hstation := h.station he w.journal
  rw [move]
  by_cases hk : j = k
  · subst hk
    rw [hf]
    dsimp only
    rw [perform_of_some he, hholds.id, hholds.endpoint]
    exact ⟨_, .seen hnow, h.set (hstation.found walk now) rfl⟩
  · by_cases hn : j = n
    · subst hn
      rw [he]
      dsimp only
      rw [perform_of_some he]
      have hown : (⟨e, w.carriage, w.journal⟩ : Station Network Network.Mailbox).step walk
          (.discover (.found e.id e.endpoint) now) = ⟨e, w.carriage, w.journal⟩ :=
        Station.found_own rfl walk e.id now
      rw [hown]
      exact ⟨b, .still _ last b, h.set hstation rfl⟩
    · rw [h.two j hn hk]
      exact ⟨b, .still _ last b, h⟩

theorem deliver (h : w.InTouch n k me whom b) (hw : b.Watched me.timing last) (walk : Walk)
    (hnow : last ≤ now) : ∃ b', Bond.Step me.timing last b none b' ∧
      (w.move (.deliver n walk now)).InTouch n k me whom b' := by
  obtain ⟨e, he, hholds⟩ := h.near
  have hnumbered := hw.numbered
  have hinbox := h.inbox
  cases hin : b.near.inbox with
  | nil =>
    rw [hin] at hinbox
    have hnone : Inboxes.receive w.carriage e.endpoint = (none, w.carriage) :=
      hholds.endpoint ▸ hinbox.receive_nil
    rw [move, World.deliver, he]
    dsimp only
    rw [hnone]
    exact ⟨b, .still _ last b, h⟩
  | cons m rest =>
    rw [hin] at hinbox hnumbered
    obtain ⟨hnumber, hhello, -⟩ := hnumbered
    obtain ⟨d, hd, hrouting, hdecode, hrest⟩ := hinbox.receive
    have hsome : Inboxes.receive w.carriage e.endpoint =
        (some d, (w.carriage.receive me.endpoint).2) := by
      rw [hholds.endpoint]
      exact Prod.ext hd rfl
    have hpopped : Station.InTouch ⟨e, (w.carriage.receive me.endpoint).2, w.journal⟩ me whom
        ⟨{ b.near with inbox := rest }, b.far⟩ :=
      ⟨hholds.unread rest, hrest, h.outbox.receive_other hholds.endpoint_ne⟩
    obtain ⟨b', hstep, htouch⟩ :=
      Station.InTouch.receive hin hpopped hrouting hdecode hnumber hhello walk hnow
    rw [move, deliver_of_some he hsome]
    exact ⟨b', hstep, h.set htouch hstep.far_eq⟩

/-- Whatever the near node does is a step of the bond. -/
theorem move_near (h : w.InTouch n k me whom b) (hw : b.Watched me.timing last)
    (hactor : m.actor = n) (hstays : m.severs = false) (hdrain : m.drains = false)
    (hlast : ∀ now, m.time? = some now → last ≤ now)
    (hnow : ∀ now, m.sweep? n = some now → now < b.near.pulse.expiredAt) :
    ∃ b', Bond.Step me.timing last b (m.sweep? n) b' ∧ (w.move m).InTouch n k me whom b' := by
  subst hactor
  cases m with
  | act n walk op hop =>
    have hsweep : (Move.act n walk op hop).sweep? n = op.sweep? := if_pos rfl
    rw [Move.actor, hsweep] at hnow ⊢
    refine h.act walk hop hstays ?_ hnow last
    rintro rfl
    cases hdrain
  | find n j walk now => exact h.find j walk (hlast now rfl)
  | deliver n walk now => exact h.deliver hw walk (hlast now rfl)

end InTouch

/-! ### What is still to come -/

/-- All times are from `last` on, and node `n` never waits longer than `reach` until it looks for
silent peers again. -/
structure Paced (n reach last : Nat) (moves : List Move) : Prop where
  since : ∀ t ∈ moves.filterMap Move.time?, last ≤ t
  spaced : (last :: moves.filterMap (Move.sweep? n)).IsChain fun t t' => t' ≤ t + reach

/-- What node `n` has to look forward to, whose last sweep was at `last`: the moves up to the end of
the round, and those after it. -/
structure Due (n reach last : Nat) (evasive : Bool) (round later : List Move) : Prop where
  paced : Paced n reach last (round ++ later)
  once : (round.filterMap (Move.sweep? n)).length ≤ 1
  /-- No sweep comes in this round any more once the other node is evasive. -/
  spent : evasive = true → round.filterMap (Move.sweep? n) = []

namespace Due
variable {reach : Nat} {evasive evasive' : Bool} {round later : List Move}

theorem last_le (h : Due n reach last evasive (m :: round) later) :
    ∀ now, m.time? = some now → last ≤ now := fun now hnow =>
  h.paced.since now (List.mem_filterMap.mpr ⟨m, List.mem_cons_self, hnow⟩)

/-- The next sweep comes soon, and finds nobody evasive. -/
theorem sweep (h : Due n reach last evasive (m :: round) later) (hnow : m.sweep? n = some now) :
    now ≤ last + reach ∧ evasive = false := by
  have hspaced := h.paced.spaced
  rw [List.cons_append, List.filterMap_cons_some hnow] at hspaced
  refine ⟨(List.isChain_cons_cons.mp hspaced).1, Bool.eq_false_iff.mpr fun hevasive => ?_⟩
  have hspent := h.spent hevasive
  rw [List.filterMap_cons_some hnow] at hspent
  cases hspent

/-- A move that is no sweep has gone by. -/
theorem skip (h : Due n reach last evasive (m :: round) later) (hm : m.sweep? n = none)
    (hevasive : evasive' = true → evasive = true) : Due n reach last evasive' round later := by
  have hspaced := h.paced.spaced
  have honce := h.once
  have hspent := h.spent
  rw [List.filterMap_cons_none hm] at honce hspent
  rw [List.cons_append, List.filterMap_cons_none hm] at hspaced
  refine ⟨⟨fun t ht => h.paced.since t ?_, hspaced⟩, honce, fun h' => hspent (hevasive h')⟩
  obtain ⟨m', hm', htime⟩ := List.mem_filterMap.mp ht
  exact List.mem_filterMap.mpr ⟨m', List.mem_cons_of_mem m hm', htime⟩

/-- The one sweep of the round has gone by. -/
theorem pass (h : Due n reach last evasive (m :: round) later) (hm : m.sweep? n = some now)
    (htimes : ((m :: round ++ later).filterMap Move.time?).Pairwise (· ≤ ·)) :
    Due n reach now evasive' round later := by
  have hspaced := h.paced.spaced
  have honce := h.once
  rw [List.filterMap_cons_some hm, List.length_cons] at honce
  rw [List.cons_append, List.filterMap_cons_some hm] at hspaced
  rw [List.cons_append, List.filterMap_cons_some (Move.time?_of_sweep? hm).2] at htimes
  have hnone : round.filterMap (Move.sweep? n) = [] := List.length_eq_zero_iff.mp (by omega)
  refine ⟨⟨(List.pairwise_cons.mp htimes).1, (List.isChain_cons_cons.mp hspaced).2⟩, ?_,
    fun _ => hnone⟩
  rw [hnone]
  exact Nat.zero_le 1

/-- A new round begins. -/
theorem renew (h : Due n reach last evasive [] (round ++ later)) (hevasive : evasive = false)
    (honce : (round.filterMap (Move.sweep? n)).length ≤ 1) :
    Due n reach last evasive round later :=
  ⟨h.paced, honce, fun h' => absurd (hevasive.symm.trans h') Bool.false_ne_true⟩

end Due

theorem handed_of_not_drains (w : World Network Network.Mailbox) (n : Nat)
    (hm : m.drains = false) : w.handed n m = [] := by
  unfold handed
  split
  · cases hm
  · rfl

theorem handed_of_other (w : World Network Network.Mailbox) (hm : m.actor ≠ n) :
    w.handed n m = [] := by
  unfold handed
  split
  · exact if_neg hm
  · rfl

/-- The near node watches the far one as it should, and may go on like that. -/
def Vigil (me : Party) (n reach : Nat) (b : Bond) (round later : List Move) : Prop :=
  ∃ last, b.Watched me.timing last ∧ Due n reach last b.near.pulse.evasive round later

/-- Two nodes in touch, with what is still to come for them. -/
structure Course (w : World Network Network.Mailbox) (n k : Nat) (me whom : Party)
    (reach : Nat → Nat) (b : Bond) (round later : List Move) : Prop where
  touch : w.InTouch n k me whom b
  near : Vigil me n (reach n) b round later
  far : Vigil whom k (reach k) b.swap round later

/-- What is counted of departures when a move leads to a new bond. -/
def Counts (w : World Network Network.Mailbox) (n k : Nat) (me whom : Party) (b : Bond) (m : Move)
    (b' : Bond) : Prop :=
  Event.exits whom.id (w.handed n m) + b'.near.exits = b.near.exits ∧
    Event.exits me.id (w.handed k m) + b'.far.exits = b.far.exits

namespace Course
variable {reach : Nat → Nat} {round later : List Move}

theorem symm (h : w.Course n k me whom reach b round later) :
    w.Course k n whom me reach b.swap round later :=
  ⟨h.touch.symm, h.far, h.near⟩

/-- The application of the near node takes its events. -/
theorem drain_near {walk : Walk} {hop : Op.drain.isLocal = true}
    (h : w.Course n k me whom reach b (.act n walk .drain hop :: round) later) :
    (w.move (.act n walk .drain hop)).Course n k me whom reach b.take round later ∧
      w.Counts n k me whom b (.act n walk .drain hop) b.take := by
  obtain ⟨last, hw, hdue⟩ := h.near
  obtain ⟨last', hw', hdue'⟩ := h.far
  obtain ⟨e, he, hholds⟩ := h.touch.near
  have hsweep : ∀ i, (Move.act n walk .drain hop).sweep? i = none := by
    intro i
    rw [Move.sweep?]
    split <;> rfl
  have htake : b.take.Watched me.timing last := ⟨hw.numbered, hw.deadlines, hw.asked⟩
  have htake' : b.take.swap.Watched whom.timing last' := ⟨hw'.numbered, hw'.deadlines, hw'.asked⟩
  refine ⟨⟨h.touch.drain walk hop, ⟨last, htake, hdue.skip (hsweep n) id⟩,
    ⟨last', htake', hdue'.skip (hsweep k) id⟩⟩, ?_, ?_⟩
  · have hhanded : w.handed n (.act n walk .drain hop) = e.events :=
      (if_pos rfl).trans (drain_of_some he)
    rw [hhanded, hholds.exits]
    rfl
  · have hhanded : w.handed k (.act n walk .drain hop) = [] := handed_of_other w h.touch.apart
    rw [hhanded]
    exact Nat.zero_add _

/-- Anything else is a step of the bond. The far node is not concerned, apart from what it gets to
read. -/
theorem step_near (h : w.Course n k me whom reach b (m :: round) later) (hactor : m.actor = n)
    (hstays : m.severs = false) (hdrain : m.drains = false)
    (htimes : ((m :: round ++ later).filterMap Move.time?).Pairwise (· ≤ ·))
    (hlong : me.timing.evasive + reach n < me.timing.expired) :
    ∃ b', (w.move m).Course n k me whom reach b' round later ∧ w.Counts n k me whom b m b' := by
  obtain ⟨last, hw, hdue⟩ := h.near
  obtain ⟨last', hw', hdue'⟩ := h.far
  have hnow : ∀ now, m.sweep? n = some now → now < b.near.pulse.expiredAt := fun now hsweep =>
    hw.unexpired (hdue.sweep hsweep).2 (hdue.sweep hsweep).1 hlong
  obtain ⟨b', hstep, htouch⟩ := h.touch.move_near hw hactor hstays hdrain hdue.last_le hnow
  have hfar := hstep.far_eq
  refine ⟨b', ⟨htouch, ?_, ⟨last', hstep.watched_far hw', hdue'.skip ?_ ?_⟩⟩, ?_, ?_⟩
  · have hwatched := hstep.watched hw
    cases hsweep : m.sweep? n with
    | none =>
      rw [hsweep] at hstep hwatched
      exact ⟨last, hwatched, hdue.skip hsweep hstep.evasive⟩
    | some now =>
      rw [hsweep] at hwatched
      exact ⟨now, hwatched, hdue.pass hsweep htimes⟩
  · exact Move.sweep?_of_other (hactor ▸ h.touch.apart)
  · intro hevasive
    change b'.far.pulse.evasive = true at hevasive
    rw [hfar] at hevasive
    exact hevasive
  · rw [handed_of_not_drains w n hdrain, hstep.exits]
    exact Nat.zero_add _
  · rw [handed_of_not_drains w k hdrain, hfar]
    exact Nat.zero_add _

theorem go_near (h : w.Course n k me whom reach b (m :: round) later) (hactor : m.actor = n)
    (hstays : m.severs = false)
    (htimes : ((m :: round ++ later).filterMap Move.time?).Pairwise (· ≤ ·))
    (hlong : me.timing.evasive + reach n < me.timing.expired) :
    ∃ b', (w.move m).Course n k me whom reach b' round later ∧ w.Counts n k me whom b m b' := by
  cases hdrain : m.drains with
  | false => exact h.step_near hactor hstays hdrain htimes hlong
  | true =>
    unfold Move.drains at hdrain
    split at hdrain
    · obtain rfl : _ = n := hactor
      exact ⟨b.take, h.drain_near⟩
    · cases hdrain

/-- The two nodes stay in touch, whoever makes the next move. -/
theorem go (h : w.Course n k me whom reach b (m :: round) later) (hstays : m.severs = false)
    (htimes : ((m :: round ++ later).filterMap Move.time?).Pairwise (· ≤ ·))
    (hlong : me.timing.evasive + reach n < me.timing.expired)
    (hlong' : whom.timing.evasive + reach k < whom.timing.expired) :
    ∃ b', (w.move m).Course n k me whom reach b' round later ∧ w.Counts n k me whom b m b' := by
  by_cases hn : m.actor = n
  · exact h.go_near hn hstays htimes hlong
  · by_cases hk : m.actor = k
    · obtain ⟨b', hcourse, hnear, hfar⟩ := h.symm.go_near hk hstays htimes hlong'
      exact ⟨b'.swap, hcourse.symm, hfar, hnear⟩
    · obtain ⟨last, hw, hdue⟩ := h.near
      obtain ⟨last', hw', hdue'⟩ := h.far
      rw [h.touch.unmoved hn hk]
      refine ⟨b, ⟨h.touch, ⟨last, hw, hdue.skip (Move.sweep?_of_other hn) id⟩,
        ⟨last', hw', hdue'.skip (Move.sweep?_of_other hk) id⟩⟩, ?_, ?_⟩
      · rw [handed_of_other w hn]
        exact Nat.zero_add _
      · rw [handed_of_other w hk]
        exact Nat.zero_add _

end Course

/-! ### Rounds -/

/-- Nothing waits for any node. -/
def Idle (w : World Network Network.Mailbox) : Prop :=
  ∀ e ∈ w.engines, w.carriage.waiting e.endpoint = []

instance (w : World Network Network.Mailbox) : Decidable w.Idle :=
  inferInstanceAs (Decidable (∀ e ∈ w.engines, w.carriage.waiting e.endpoint = []))

/-- Before the rounds and after each of them, nothing waits for any node. -/
def IdleBetween : World Network Network.Mailbox → List (List Move) → Prop
  | w, [] => w.Idle
  | w, round :: rounds => w.Idle ∧ IdleBetween (w.run round) rounds

instance decidableIdleBetween : (w : World Network Network.Mailbox) → (rounds : List (List Move)) →
    Decidable (w.IdleBetween rounds)
  | w, [] => inferInstanceAs (Decidable w.Idle)
  | w, round :: rounds =>
    have := decidableIdleBetween (w.run round) rounds
    inferInstanceAs (Decidable (w.Idle ∧ IdleBetween (w.run round) rounds))

/-- In each of the rounds no node takes leave, and each looks for silent peers once at most; no time
goes back; and at the end of a round everything was read. -/
structure Regular (w : World Network Network.Mailbox) (rounds : List (List Move)) : Prop where
  stays : ∀ m ∈ rounds.flatten, m.severs = false
  once : ∀ round ∈ rounds, ∀ n < 2, (round.filterMap (Move.sweep? n)).length ≤ 1
  timely : (rounds.flatten.filterMap Move.time?).Pairwise (· ≤ ·)
  idle : w.IdleBetween rounds

/-- The two nodes are still in touch after the moves, and neither has reported on the way that the
other is gone. -/
structure Endures (w : World Network Network.Mailbox) (n k : Nat) (me whom : Party) (b : Bond)
    (moves : List Move) : Prop where
  touch : ∃ b', (w.run moves).InTouch n k me whom b'
  near : Event.exits whom.id (w.reported n moves) = b.near.exits
  far : Event.exits me.id (w.reported k moves) = b.far.exits

section
variable {reach : Nat → Nat} {round later moves : List Move}

theorem Endures.nil (h : w.InTouch n k me whom b) : w.Endures n k me whom b [] := by
  obtain ⟨e, he, hholds⟩ := h.near
  obtain ⟨f, hf, hholds'⟩ := h.far
  refine ⟨⟨b, h⟩, ?_, ?_⟩
  · rw [reported, drain_of_some he]
    exact hholds.exits
  · rw [reported, drain_of_some hf]
    exact hholds'.exits

theorem Endures.cons (hc : w.Counts n k me whom b m b')
    (h : (w.move m).Endures n k me whom b' moves) : w.Endures n k me whom b (m :: moves) := by
  refine ⟨h.touch, ?_, ?_⟩
  · rw [reported, Event.exits_append, h.near]
    exact hc.1
  · rw [reported, Event.exits_append, h.far]
    exact hc.2

/-- Through the rest of a round. What comes after it starts from whatever the round leads to. -/
theorem Course.through {P : World Network Network.Mailbox → Prop}
    (hlong : me.timing.evasive + reach n < me.timing.expired)
    (hlong' : whom.timing.evasive + reach k < whom.timing.expired)
    (hthen : ∀ {w b moves}, w.Course n k me whom reach b [] later → P w → moves <+: later →
      w.Endures n k me whom b moves)
    (h : w.Course n k me whom reach b round later) (hstays : ∀ m ∈ round, m.severs = false)
    (htimes : ((round ++ later).filterMap Move.time?).Pairwise (· ≤ ·)) (hend : P (w.run round))
    (hmoves : moves <+: round ++ later) : w.Endures n k me whom b moves := by
  induction round generalizing w b moves with
  | nil => exact hthen h hend hmoves
  | cons m round ih =>
    rcases List.prefix_cons_iff.mp hmoves with rfl | ⟨rest, rfl, hrest⟩
    · exact .nil h.touch
    · obtain ⟨hm, hround⟩ := List.forall_mem_cons.mp hstays
      obtain ⟨b', hcourse, hcounts⟩ := h.go hm htimes hlong hlong'
      have hlater : ((round ++ later).filterMap Move.time?).Sublist
          ((m :: round ++ later).filterMap Move.time?) := (List.sublist_cons_self _ _).filterMap _
      exact .cons hcounts (ih hcourse hround (htimes.sublist hlater) hend hrest)

/-- Between two rounds nobody is evasive, and the next round can begin. -/
theorem Course.renew (h : w.Course n k me whom reach b [] (round ++ later)) (hempty : w.Idle)
    (honce : ∀ i, i = n ∨ i = k → (round.filterMap (Move.sweep? i)).length ≤ 1) :
    w.Course n k me whom reach b round later := by
  obtain ⟨last, hw, hdue⟩ := h.near
  obtain ⟨last', hw', hdue'⟩ := h.far
  obtain ⟨e, he, hholds⟩ := h.touch.near
  obtain ⟨f, hf, hholds'⟩ := h.touch.far
  have hnear := h.touch.inbox.eq_nil (hholds.endpoint ▸ hempty e (List.mem_of_getElem? he))
  have hfar := h.touch.outbox.eq_nil (hholds'.endpoint ▸ hempty f (List.mem_of_getElem? hf))
  exact ⟨h.touch, ⟨last, hw, hdue.renew (hw.quiet hnear hfar) (honce n (.inl rfl))⟩,
    ⟨last', hw', hdue'.renew (hw'.quiet hfar hnear) (honce k (.inr rfl))⟩⟩

/-- Round after round, the two nodes stay in touch. -/
theorem Course.endures {rounds : List (List Move)}
    (h : w.Course n k me whom reach b [] rounds.flatten) (hn : n < 2) (hk : k < 2)
    (hr : w.Regular rounds) (hlong : me.timing.evasive + reach n < me.timing.expired)
    (hlong' : whom.timing.evasive + reach k < whom.timing.expired)
    (hmoves : moves <+: rounds.flatten) : w.Endures n k me whom b moves := by
  induction rounds generalizing w b moves with
  | nil =>
    obtain rfl := List.prefix_nil.mp hmoves
    exact .nil h.touch
  | cons round rounds ih =>
    obtain ⟨hempty, hafter⟩ := hr.idle
    have hstays := List.forall_mem_append.mp hr.stays
    have hlater : (rounds.flatten.filterMap Move.time?).Pairwise (· ≤ ·) :=
      hr.timely.sublist ((List.sublist_append_right _ _).filterMap _)
    refine Course.through hlong hlong' (P := (·.IdleBetween rounds)) (fun hcourse hend hmoves => ?_)
      (h.renew hempty ?_) hstays.1 hr.timely hafter hmoves
    · have honce := fun round hmem => hr.once round (List.mem_cons_of_mem _ hmem)
      exact ih hcourse ⟨hstays.2, honce, hlater, hend⟩ hmoves
    · rintro i (rfl | rfl)
      · exact hr.once round List.mem_cons_self _ hn
      · exact hr.once round List.mem_cons_self _ hk

end
end World

/-! ### Rapport -/

def Engine.party (e : Engine Network.Mailbox) : Party := ⟨e.id, e.name, e.endpoint, e.timing⟩

/-- Engine `e` listens to `f`, whose entry is `p`, and has heard it last at `last`. Of the engine
itself no more is asked than holds of every engine after any run of operations
(`Station.sound_run`, `Station.homed_run_new`). -/
structure Engine.Knows (e f : Engine Network.Mailbox) (last : Nat) (p : Peer Network.Mailbox) :
    Prop where
  sound : e.Sound
  homed : ∀ {id p}, e.roster.get? id = some p →
    ∃ box, p.mailbox = some box ∧ box.endpoint = p.lastEndpoint
  ready : e.readyPeer? f.id = some p
  mailbox : p.mailbox = some ⟨f.endpoint, e.id.routingId⟩
  evasiveAt : p.evasiveAt = last + e.timing.evasive
  expiredAt : p.expiredAt = last + e.timing.expired
  evasive : p.evasive = false

theorem Engine.Knows.holds {e f : Engine Network.Mailbox} {last : Nat} {p : Peer Network.Mailbox}
    (h : e.Knows f last p) :
    e.Holds e.party f.party ⟨p.sent, p.want, p.pulse, [], Event.exits f.id e.events⟩ := by
  obtain ⟨hp, hr⟩ := Engine.readyPeer?_eq_some.mp h.ready
  obtain ⟨box, hbox, hend⟩ := h.homed hp
  obtain rfl := Option.some.inj (h.mailbox.symm.trans hbox)
  exact ⟨h.sound, h.homed, rfl, rfl, rfl, ⟨p, hp, h.mailbox, hend.symm, hr, rfl, rfl, rfl⟩, rfl⟩

namespace World
variable {w : World Network Network.Mailbox} {e f : Engine Network.Mailbox}
  {p q : Peer Network.Mailbox} {last reach : Nat → Nat} {rounds : List (List Move)}
  {moves : List Move}

/-- Two engines on a network have each other as ready peers, in sessions that match; nothing is on
its way, and neither holds the other to be evasive. -/
structure Rapport (w : World Network Network.Mailbox) (e f : Engine Network.Mailbox)
    (last : Nat → Nat) (p q : Peer Network.Mailbox) : Prop where
  engines : w.engines = [e, f]
  near : e.Knows f (last 0) p
  far : f.Knows e (last 1) q
  to_near : p.want = q.sent
  to_far : q.want = p.sent
  inboxes : ∀ g ∈ [e, f], w.carriage.capacities.get? g.endpoint = none ∧
    w.carriage.inboxes.get? g.endpoint = some []

/-- After the moves both engines still have each other as ready peers, and on the way neither of
them has reported that the other is gone. -/
structure Loyal (w : World Network Network.Mailbox) (e f : Engine Network.Mailbox)
    (moves : List Move) : Prop where
  near : ∃ e', (w.run moves).engines[0]? = some e' ∧ ∃ p, e'.readyPeer? f.id = some p
  far : ∃ f', (w.run moves).engines[1]? = some f' ∧ ∃ q, f'.readyPeer? e.id = some q
  exits_near : Event.exits f.id (w.reported 0 moves) = Event.exits f.id e.events
  exits_far : Event.exits e.id (w.reported 1 moves) = Event.exits e.id f.events

theorem Rapport.inTouch (h : w.Rapport e f last p q) : w.InTouch 0 1 e.party f.party
    ⟨⟨p.sent, p.want, p.pulse, [], Event.exits f.id e.events⟩,
      ⟨q.sent, q.want, q.pulse, [], Event.exits e.id f.events⟩⟩ where
  apart := Nat.zero_ne_one
  two i hn hk := by
    rw [h.engines, List.getElem?_eq_none_iff]
    change 2 ≤ i
    omega
  near := ⟨e, by rw [h.engines]; rfl, h.near.holds⟩
  far := ⟨f, by rw [h.engines]; rfl, h.far.holds⟩
  inbox := by
    obtain ⟨hroom, hempty⟩ := h.inboxes e List.mem_cons_self
    exact ⟨hroom, [], hempty, .nil⟩
  outbox := by
    obtain ⟨hroom, hempty⟩ := h.inboxes f (List.mem_cons_of_mem _ List.mem_cons_self)
    exact ⟨hroom, [], hempty, .nil⟩

theorem vigil_of_knows {n reach last : Nat} {b : Bond} {later : List Move} (h : e.Knows f last p)
    (hpulse : b.near.pulse = p.pulse) (hinbox : b.near.inbox = [])
    (hwant : b.near.want = b.far.sent) (hp : Paced n reach last later) :
    Vigil e.party n reach b [] later := by
  refine ⟨last, ⟨?_, ⟨last, ?_, ?_, fun _ => .inr (Nat.le_refl last)⟩, fun hevasive => ?_⟩, hp,
    Nat.zero_le 1, fun _ => rfl⟩
  · rw [hinbox]
    exact hwant.symm
  · rw [hpulse]
    exact h.evasiveAt
  · rw [hpulse]
    exact h.expiredAt
  · rw [hpulse] at hevasive
    exact absurd (h.evasive.symm.trans hevasive) Bool.false_ne_true

theorem Endures.loyal {b : Bond} (h : w.Endures 0 1 e.party f.party b moves)
    (hnear : b.near.exits = Event.exits f.id e.events)
    (hfar : b.far.exits = Event.exits e.id f.events) : w.Loyal e f moves := by
  have hready : ∀ {g : Engine Network.Mailbox} {me whom : Party} {x : Contact}, g.Holds me whom x →
      ∃ p, g.readyPeer? whom.id = some p := by
    intro g me whom x hholds
    obtain ⟨p, hp, hx⟩ := hholds.entry
    exact ⟨p, Engine.readyPeer?_eq_some.mpr ⟨hp, hx.ready⟩⟩
  obtain ⟨b', htouch⟩ := h.touch
  obtain ⟨e', he, hholds⟩ := htouch.near
  obtain ⟨f', hf, hholds'⟩ := htouch.far
  exact ⟨⟨e', he, hready hholds⟩, ⟨f', hf, hready hholds'⟩, h.near.trans hnear, h.far.trans hfar⟩

/-- Two engines that listen to each other go on doing so, if each of them looks for silent peers
often enough for its own time of expiry. -/
theorem loyal_run (h : w.Rapport e f last p q) (hr : w.Regular rounds)
    (hnear : Paced 0 (reach 0) (last 0) rounds.flatten)
    (hfar : Paced 1 (reach 1) (last 1) rounds.flatten)
    (hlong : e.timing.evasive + reach 0 < e.timing.expired)
    (hlong' : f.timing.evasive + reach 1 < f.timing.expired) (hmoves : moves <+: rounds.flatten) :
    w.Loyal e f moves := by
  have hcourse : w.Course 0 1 e.party f.party reach _ [] rounds.flatten :=
    ⟨h.inTouch, vigil_of_knows h.near rfl rfl h.to_near hnear,
      vigil_of_knows h.far rfl rfl h.to_far hfar⟩
  have hendures := hcourse.endures (by decide) (by decide) hr hlong hlong' hmoves
  exact hendures.loyal rfl rfl

/-- Ann whispers and is silent from then on. The two ping each other twice and answer; without the
first answer they would have expired by the second time. -/
theorem loyal_run_pinged :
    let ann : PeerId := ⟨.replicate 16 1, rfl⟩
    let bob : PeerId := ⟨.replicate 16 2, rfl⟩
    let timing : Timing := ⟨10, 30, 1⟩
    let net := (Network.empty.bind "a").bind "b"
    let meet (other : PeerId) (place : String) : List (Turn Network) :=
      let hello : Message := ⟨1, .hello ⟨place, [], 0, place, .empty⟩⟩
      [⟨.ascending, net, .discover (.found other place) 0⟩,
        ⟨.ascending, net, .receive other.routingId ((Wire.encode hello).toOption.getD []) 0⟩]
    let e : Engine Network.Mailbox :=
      ((Station.new (.new ann "a" "a" timing) net).run (meet bob "b")).engine
    let f : Engine Network.Mailbox :=
      ((Station.new (.new bob "b" "b" timing) net).run (meet ann "a")).engine
    let w : World Network Network.Mailbox := ⟨[e, f], net, #[]⟩
    let sweep (n now : Nat) : Move := .act n .ascending (.reap now) rfl
    let hear (n now : Nat) : Move := .deliver n .ascending now
    let rounds : List (List Move) := [
      [.act 0 .ascending (.whisper bob []) rfl, sweep 0 5, sweep 1 5, hear 1 6],
      [sweep 0 17, sweep 1 17, hear 0 18, hear 1 18, hear 0 18, hear 1 18],
      [sweep 0 31, sweep 1 32, hear 0 32, hear 1 32, hear 0 32, hear 1 32]]
    w.Regular rounds ∧ Paced 0 15 0 rounds.flatten ∧ Paced 1 15 0 rounds.flatten ∧
      w.Loyal e f rounds.flatten := by
  intro ann bob timing net meet e f w sweep hear rounds
  let entry (p : Peer Network.Mailbox) :=
    (p.mailbox, p.evasiveAt, p.expiredAt, p.evasive, p.sent, p.want)
  have hnear : (e.readyPeer? f.id).map entry =
      some (some ⟨f.endpoint, e.id.routingId⟩, 0 + e.timing.evasive, 0 + e.timing.expired,
        false, 1, 1) := by
    decide +kernel
  have hfar : (f.readyPeer? e.id).map entry =
      some (some ⟨e.endpoint, f.id.routingId⟩, 0 + f.timing.evasive, 0 + f.timing.expired,
        false, 1, 1) := by
    decide +kernel
  obtain ⟨p, hp, hentry⟩ := Option.map_eq_some_iff.mp hnear
  obtain ⟨q, hq, hentry'⟩ := Option.map_eq_some_iff.mp hfar
  simp only [entry, Prod.mk.injEq] at hentry hentry'
  obtain ⟨hbox, hevasive, hexpired, hquiet, hsent, hwant⟩ := hentry
  obtain ⟨hbox', hevasive', hexpired', hquiet', hsent', hwant'⟩ := hentry'
  have he := Station.sound_run (s := .new (.new ann "a" "a" timing) net)
    (Engine.sound_new ann "a" "a" timing) (meet bob "b")
  have hf := Station.sound_run (s := .new (.new bob "b" "b" timing) net)
    (Engine.sound_new bob "b" "b" timing) (meet ann "a")
  have hhome := Station.homed_run_new ann "a" "a" timing net (meet bob "b")
  have hhome' := Station.homed_run_new bob "b" "b" timing net (meet ann "a")
  have hrapport : w.Rapport e f (fun _ => 0) p q := {
    engines := rfl
    near := ⟨he, hhome.mailbox, hp, hbox, hevasive, hexpired, hquiet⟩
    far := ⟨hf, hhome'.mailbox, hq, hbox', hevasive', hexpired', hquiet'⟩
    to_near := hwant.trans hsent'.symm
    to_far := hwant'.trans hsent.symm
    inboxes := by decide +kernel }
  have hregular : w.Regular rounds := {
    stays := by decide +kernel
    once := by decide +kernel
    timely := by decide +kernel
    idle := by decide +kernel }
  have hpaced : Paced 0 15 0 rounds.flatten := ⟨by decide +kernel, by decide +kernel⟩
  have hpaced' : Paced 1 15 0 rounds.flatten := ⟨by decide +kernel, by decide +kernel⟩
  exact ⟨hregular, hpaced, hpaced', @loyal_run w e f p q (fun _ => 0) (fun _ => 15) rounds _
    hrapport hregular hpaced hpaced' (by decide +kernel) (by decide +kernel) (List.prefix_refl _)⟩

end World
end PeerMesh
