import PeerMesh.Proofs.Station.Pulse

/-!
# Two nodes in touch

A bond is all that matters of two nodes that listen to each other: how far each of them has counted,
how long it has not heard from the other, and what it has not read yet. It is seen from one of them,
the near one, and `swap` looks at it from the other side.

`Watched` is why a node that answers is never given up. As long as the near node holds the far one
to be evasive, a PING or an answer is on its way; so when all is read, nobody is evasive. And
whoever was not evasive after one sweep has not expired by the next, if that comes soon enough.
-/

namespace PeerMesh
set_option autoImplicit false

/-- What a node has of another one that it listens to. -/
structure Contact where
  /-- The number of the newest message to the other. -/
  sent : UInt16
  /-- The number of the newest message from the other that was read. -/
  want : UInt16
  pulse : Pulse
  /-- What the other said and was not read yet, oldest first. -/
  inbox : List Message
  /-- How often the application is still to be told that the other is gone. -/
  exits : Nat

/-- The messages have the numbers that follow `want` up to `sent`, and nobody greets. -/
def Consecutive : UInt16 → List Message → UInt16 → Prop
  | want, [], sent => sent = want
  | want, m :: rest, sent =>
    m.sequence = want + 1 ∧ m.isHello = false ∧ Consecutive (want + 1) rest sent

theorem Consecutive.snoc {want sent : UInt16} {q : List Message} (h : Consecutive want q sent)
    {body : Body} (hb : body.command ≠ .hello) :
    Consecutive want (q ++ [⟨sent + 1, body⟩]) (sent + 1) := by
  induction q generalizing want with
  | nil =>
    obtain rfl : sent = want := h
    exact ⟨rfl, decide_eq_false hb, rfl⟩
  | cons m rest ih =>
    obtain ⟨hm, hhello, hrest⟩ := h
    exact ⟨hm, hhello, ih hrest⟩

/-- Two nodes that listen to each other, seen from the near one. -/
structure Bond where
  near : Contact
  far : Contact

namespace Bond

def swap (b : Bond) : Bond := ⟨b.far, b.near⟩

/-! ### What the near node does -/

def say (b : Bond) (body : Body) : Bond where
  near := { b.near with sent := b.near.sent + 1 }
  far := { b.far with inbox := b.far.inbox ++ [⟨b.near.sent + 1, body⟩] }

def beat (b : Bond) (pulse : Pulse) : Bond where
  near := { b.near with pulse }
  far := b.far

def read (b : Bond) (rest : List Message) : Bond where
  near := { b.near with want := b.near.want + 1, inbox := rest }
  far := b.far

/-- The application takes the events. -/
def take (b : Bond) : Bond where
  near := { b.near with exits := 0 }
  far := b.far

/-- The far node is pinged for its silence. -/
def ping (b : Bond) : Bond := (b.beat { b.near.pulse with evasive := true }).say .ping

/-- The oldest message is read at `now`. -/
def hear (b : Bond) (timing : Timing) (rest : List Message) (now : Nat) : Bond :=
  (b.read rest).beat (timing.pulse now)

/-- One thing that the near node does, given the time of its last sweep. It is told whether it is a
sweep, and at what time. -/
inductive Step (timing : Timing) (last : Nat) (b : Bond) : Option Nat → Bond → Prop
  | said {bodies : List Body} (hb : ∀ body ∈ bodies, body.command ≠ .hello) :
      Step timing last b none (bodies.foldl say b)
  | seen {now} (hnow : last ≤ now) : Step timing last b none (b.beat (timing.pulse now))
  | heard {m rest now} (hm : b.near.inbox = m :: rest) (hping : m.body ≠ .ping)
      (hnow : last ≤ now) : Step timing last b none (b.hear timing rest now)
  | answered {m rest now} (hm : b.near.inbox = m :: rest) (hnow : last ≤ now) :
      Step timing last b none ((b.hear timing rest now).say .pingOk)
  | passed {now} (h : b.near.pulse.evasiveAt ≤ now → b.near.pulse.evasive = true) :
      Step timing last b (some now) b
  | pinged {now} : Step timing last b (some now) b.ping

/-! ### The watch -/

/-- The near node numbers, waits and asks as it should, and its last sweep was at `last`. -/
structure Watched (timing : Timing) (last : Nat) (b : Bond) : Prop where
  numbered : Consecutive b.near.want b.near.inbox b.far.sent
  /-- Since the last sweep the far node was heard, or it was not silent for long then. -/
  deadlines : ∃ heard, b.near.pulse.evasiveAt = heard + timing.evasive ∧
    b.near.pulse.expiredAt = heard + timing.expired ∧
    (b.near.pulse.evasive = false → last < heard + timing.evasive ∨ last ≤ heard)
  /-- Whoever is held to be evasive has a PING to read, or something of it is still to be read. -/
  asked : b.near.pulse.evasive = true →
    (∃ m ∈ b.far.inbox, m.body = .ping) ∨ b.near.inbox ≠ []

variable {b b' : Bond} {timing : Timing} {last now : Nat} {sweep : Option Nat}

namespace Watched

/-- When everything is read, nobody is evasive. -/
theorem quiet (h : b.Watched timing last) (hnear : b.near.inbox = []) (hfar : b.far.inbox = []) :
    b.near.pulse.evasive = false := by
  rw [Bool.eq_false_iff]
  intro hevasive
  rcases h.asked hevasive with ⟨m, hm, -⟩ | hne
  · rw [hfar] at hm
    cases hm
  · exact hne hnear

/-- Nobody has expired who was not evasive, if the next sweep comes soon enough. -/
theorem unexpired (h : b.Watched timing last) (hquiet : b.near.pulse.evasive = false) {reach : Nat}
    (hnow : now ≤ last + reach) (hlong : timing.evasive + reach < timing.expired) :
    now < b.near.pulse.expiredAt := by
  obtain ⟨heard, -, hexpired, hlast⟩ := h.deadlines
  have := hlast hquiet
  omega

theorem say (h : b.Watched timing last) (body : Body) : (b.say body).Watched timing last where
  numbered := h.numbered
  deadlines := h.deadlines
  asked hevasive := (h.asked hevasive).imp_left fun ⟨m, hm, hping⟩ =>
    ⟨m, List.mem_append_left _ hm, hping⟩

theorem say_far (h : b.swap.Watched timing last) {body : Body} (hb : body.command ≠ .hello) :
    (b.say body).swap.Watched timing last where
  numbered := h.numbered.snoc hb
  deadlines := h.deadlines
  asked _ := .inr (List.append_ne_nil_of_right_ne_nil _ (List.cons_ne_nil _ _))

theorem foldl_say (h : b.Watched timing last) (bodies : List Body) :
    (bodies.foldl Bond.say b).Watched timing last := by
  induction bodies generalizing b with
  | nil => exact h
  | cons body bodies ih => exact ih (h.say body)

theorem foldl_say_far (h : b.swap.Watched timing last) {bodies : List Body}
    (hb : ∀ body ∈ bodies, body.command ≠ .hello) :
    (bodies.foldl Bond.say b).swap.Watched timing last := by
  induction bodies generalizing b with
  | nil => exact h
  | cons body bodies ih =>
    obtain ⟨hbody, hbodies⟩ := List.forall_mem_cons.mp hb
    exact ih (h.say_far hbody) hbodies

/-- A sign of life takes the suspicion away, whatever was on its way. -/
theorem beat (hn : Consecutive b.near.want b.near.inbox b.far.sent) (hnow : last ≤ now) :
    (b.beat (timing.pulse now)).Watched timing last where
  numbered := hn
  deadlines := ⟨now, rfl, rfl, fun _ => .inr hnow⟩
  asked hevasive := by cases hevasive

theorem hear (h : b.Watched timing last) {m : Message} {rest : List Message}
    (hm : b.near.inbox = m :: rest) (hnow : last ≤ now) :
    (b.hear timing rest now).Watched timing last := by
  have hn := h.numbered
  rw [hm] at hn
  exact beat (b := b.read rest) hn.2.2 hnow

/-- An answer is still to come for the far node, unless its PING is the message that is read. -/
theorem hear_far (h : b.swap.Watched timing last) {m : Message} {rest : List Message}
    (hm : b.near.inbox = m :: rest) (hping : m.body ≠ .ping) (timing' : Timing) (now : Nat) :
    (b.hear timing' rest now).swap.Watched timing last where
  numbered := h.numbered
  deadlines := h.deadlines
  asked hevasive := by
    refine (h.asked hevasive).imp_left fun ⟨m', hm', hping'⟩ => ⟨m', ?_, hping'⟩
    change m' ∈ b.near.inbox at hm'
    rw [hm] at hm'
    refine (List.mem_cons.mp hm').resolve_left ?_
    rintro rfl
    exact hping hping'

end Watched

namespace Step

theorem still (timing : Timing) (last : Nat) (b : Bond) : Step timing last b none b :=
  @Step.said timing last b [] (by simp)

theorem watched (h : Step timing last b sweep b') (hw : b.Watched timing last) :
    b'.Watched timing (sweep.getD last) := by
  cases h with
  | said => exact hw.foldl_say _
  | seen hnow => exact .beat hw.numbered hnow
  | heard hm _ hnow => exact hw.hear hm hnow
  | answered hm hnow => exact (hw.hear hm hnow).say .pingOk
  | @passed now hpassed =>
    obtain ⟨heard, hevasive, hexpired, -⟩ := hw.deadlines
    refine ⟨hw.numbered, ⟨heard, hevasive, hexpired, fun hquiet => .inl ?_⟩, hw.asked⟩
    rw [← hevasive]
    exact Nat.lt_of_not_le fun hlate => Bool.false_ne_true (hquiet.symm.trans (hpassed hlate))
  | pinged =>
    obtain ⟨heard, hevasive, hexpired, -⟩ := hw.deadlines
    refine ⟨hw.numbered, ⟨heard, hevasive, hexpired, fun hquiet => by cases hquiet⟩, fun _ => ?_⟩
    exact .inl ⟨_, List.mem_append_right _ (List.mem_singleton.mpr rfl), rfl⟩

theorem watched_far {timing' : Timing} {last' : Nat} (h : Step timing last b sweep b')
    (hw : b.swap.Watched timing' last') : b'.swap.Watched timing' last' := by
  have hbeat : ∀ pulse, (b.beat pulse).swap.Watched timing' last' := fun pulse =>
    ⟨hw.numbered, hw.deadlines, hw.asked⟩
  cases h with
  | said hb => exact hw.foldl_say_far hb
  | seen => exact hbeat _
  | heard hm hping => exact hw.hear_far hm hping timing _
  | answered => exact ⟨hw.numbered.snoc (by decide), hw.deadlines, fun _ =>
      .inr (List.append_ne_nil_of_right_ne_nil _ (List.cons_ne_nil _ _))⟩
  | passed => exact hw
  | pinged => exact (hbeat _).say_far (by decide)

theorem near_foldl_say (bodies : List Body) (b : Bond) :
    (bodies.foldl say b).near = { b.near with sent := (bodies.foldl say b).near.sent } := by
  induction bodies generalizing b with
  | nil => rfl
  | cons body bodies ih => exact ih (b.say body)

theorem far_foldl_say (bodies : List Body) (b : Bond) :
    (bodies.foldl say b).far = { b.far with inbox := (bodies.foldl say b).far.inbox } := by
  induction bodies generalizing b with
  | nil => rfl
  | cons body bodies ih => exact ih (b.say body)

/-- Only a sweep makes the far node evasive. -/
theorem evasive (h : Step timing last b none b') (hevasive : b'.near.pulse.evasive = true) :
    b.near.pulse.evasive = true := by
  cases h with
  | said =>
    rw [near_foldl_say] at hevasive
    exact hevasive
  | seen | heard | answered => cases hevasive

/-- The near node does not report that the far one is gone. -/
theorem exits (h : Step timing last b sweep b') : b'.near.exits = b.near.exits := by
  cases h with
  | said => rw [near_foldl_say]
  | seen | heard | answered | passed | pinged => rfl

/-- The far node gets something to read, if anything. -/
theorem far_eq (h : Step timing last b sweep b') :
    b'.far = { b.far with inbox := b'.far.inbox } := by
  cases h with
  | said => exact far_foldl_say _ b
  | seen | heard | answered | passed | pinged => rfl

end Step
end Bond
end PeerMesh
