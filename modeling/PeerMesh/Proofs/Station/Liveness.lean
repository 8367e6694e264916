import PeerMesh.Proofs.Station.Answers
import PeerMesh.Proofs.Station.Deadlines
import PeerMesh.Proofs.Station.Reporting

/-!
# Silence

While a peer gives no sign of life it is pinged once at most, and its silence is reported once at
most. What is used up is kept in `due`: a look at the peer takes it away when it pings, and only a
sign of life gives it back.
-/

namespace PeerMesh
set_option autoImplicit false

variable {κ μ : Type}

namespace Event

/-- How often events report the silence of a peer. -/
def silences (id : PeerId) (events : List Event) : Nat :=
  (concerning id events).countP isEvasive

theorem silences_append (id : PeerId) (events new : List Event) :
    silences id (events ++ new) = silences id events + silences id new := by
  rw [silences, concerning_append, List.countP_append]
  rfl

theorem silences_congr {events events' : List Event}
    (h : events'.filter isEvasive = events.filter isEvasive) (id : PeerId) :
    silences id events' = silences id events := by
  have hcount : ∀ events : List Event, silences id events =
      (events.filter isEvasive).countP fun ev => decide (ev.peer? = some id) := by
    intro events
    rw [silences, concerning, List.countP_filter, List.countP_filter]
    exact List.countP_congr fun ev _ => by rw [Bool.and_comm]
  rw [hcount, hcount, h]

end Event

namespace Engine
variable {sign : PeerId → Option Nat} {e e' : Engine μ} {id : PeerId} {p : Peer μ}

/-- Whether the silence of a peer can still be reported before it gives a sign of life. -/
def due (e : Engine μ) (id : PeerId) : Nat :=
  match e.roster.get? id with
  | some p => if p.evasive then 0 else 1
  | none => 0

theorem due_of_none (h : e.roster.get? id = none) : e.due id = 0 := by
  rw [due, h]

theorem due_of_some (h : e.roster.get? id = some p) : e.due id = if p.evasive then 0 else 1 := by
  rw [due, h]

theorem due_le_one (e : Engine μ) (id : PeerId) : e.due id ≤ 1 := by
  unfold due
  split
  · split <;> omega
  · omega

theorem due_congr (h : e'.roster.get? id = e.roster.get? id) : e'.due id = e.due id := by
  rw [due, h]
  rfl

theorem Paces.due_le (h : e.Paces sign e') (hsign : sign id = none) : e'.due id ≤ e.due id := by
  cases hq : e'.roster.get? id with
  | none =>
    rw [due_of_none hq]
    exact Nat.zero_le _
  | some q =>
    have hentry := h.entry hq
    rw [hsign] at hentry
    obtain ⟨p, hp, hpulse⟩ := hentry
    have hsame : q.evasive = p.evasive := congrArg Pulse.evasive hpulse
    rw [due_of_some hq, due_of_some hp, hsame]

end Engine

namespace Station
variable [Carriage κ μ] {s t u : Station (Ledger κ) (Box μ)} {id j : PeerId} {i : Nat} {now : Nat}
  {p q : Peer (Box μ)}

/-- A line that is open, and that nobody but one peer uses. -/
structure Owns (s : Station (Ledger κ) (Box μ)) (id : PeerId) (i : Nat) : Prop where
  opened : i < s.carriage.lines.length
  sole : ∀ {j q} {box : Box μ}, s.engine.roster.get? j = some q → q.mailbox = some box →
    box.number = i → j = id

omit [Carriage κ μ] in
theorem Owns.of_recalls (h : s.Owns id i) (hr : s.Recalls t) : t.Owns id i where
  opened := Nat.lt_of_lt_of_le h.opened hr.lines
  sole := by
    intro j q box hq hbox hi
    rcases hr.entry hq hbox with ⟨p, hp, hbox', -⟩ | hnew
    · exact h.sole hp hbox' hi
    · have hlt := h.opened
      omega

omit [Carriage κ μ] in
theorem Owns.of_kept (hk : s.Kept) (hp : s.engine.roster.get? id = some p) {box : Box μ}
    (hbox : p.mailbox = some box) : s.Owns id box.number := by
  obtain ⟨box', l, hbox', hl, -⟩ := hk.entry hp
  obtain rfl := Option.some.inj (hbox.symm.trans hbox')
  exact ⟨(List.getElem?_eq_some_iff.mp hl).1, fun hq hbox' hi => hk.apart hq hp hbox' hbox hi⟩

theorem Reaped.recalls (h : s.Reaped now id t) (hs : s.engine.Sound) : s.Recalls t := by
  cases h with
  | absent _ ht | left _ _ _ ht =>
    rw [ht]
    exact .of_same rfl rfl
  | expired _ _ he hc => exact .of_drop he (hc ▸ rfl)
  | pinged _ _ _ _ h =>
    have hevade : s.Chore (fun _ _ => True) (s.evade id) := .evade id
    exact (hevade.recalls hs).trans h.recalls

/-- From `s` to `t` a peer gave no sign of life. Whatever went into its line as a PING, or was
reported of its silence, is due no more. -/
structure Tires (id : PeerId) (i : Nat) (s t : Station (Ledger κ) (Box μ)) : Prop where
  owns : s.Owns id i → t.Owns id i
  pings : s.Owns id i → t.carriage.times .ping i + t.engine.due id ≤
    s.carriage.times .ping i + s.engine.due id
  silences : Event.silences id t.engine.events + t.engine.due id ≤
    Event.silences id s.engine.events + s.engine.due id

namespace Tires

omit [Carriage κ μ] in
theorem refl (id : PeerId) (i : Nat) (s : Station (Ledger κ) (Box μ)) : s.Tires id i s :=
  ⟨fun h => h, fun _ => Nat.le_refl _, Nat.le_refl _⟩

omit [Carriage κ μ] in
theorem trans (h : s.Tires id i t) (h' : t.Tires id i u) : s.Tires id i u where
  owns ho := h'.owns (h.owns ho)
  pings ho := Nat.le_trans (h'.pings (h.owns ho)) (h.pings ho)
  silences := Nat.le_trans h'.silences h.silences

end Tires

/-- Posting uses the mailbox of the peer once, or not at all. -/
theorem Posted.sent_or_not {κ μ : Type} [Carriage κ μ] {s t : Station κ μ} {id : PeerId} {body : Body}
    (h : s.Posted id body t) :
    t.carriage = s.carriage ∨ ∃ p box frames result, s.engine.roster.get? id = some p ∧
      p.mailbox = some box ∧ Wire.encode ⟨p.sent + 1, body⟩ = .ok frames ∧
      Carriage.send s.carriage box frames = (result, t.carriage) := by
  cases h with
  | unmoved _ _ hc => exact .inl hc
  | taken hp hb hf hs => exact .inr ⟨_, _, _, _, hp, hb, hf, hs⟩
  | rejected hp hb hs _ _ hf | lost hp hb hs _ _ hf => exact .inr ⟨_, _, _, _, hp, hb, hf, hs⟩

theorem Posted.times_le {body : Body} (h : s.Posted id body t) (i : Nat) :
    t.carriage.times .ping i ≤ s.carriage.times .ping i + 1 := by
  rcases h.sent_or_not with hc | ⟨p, box, frames, result, -, -, hf, hs⟩
  · rw [hc]
    exact Nat.le_add_right ..
  · refine Nat.le_trans (Ledger.times_of_send_le hs hf i) (Nat.add_le_add_left ?_ _)
    split <;> omega

theorem Posted.lines_of_other {body : Body} (h : s.Posted j body t) (ho : s.Owns id i) (hj : j ≠ id) :
    t.carriage.lines[i]? = s.carriage.lines[i]? := by
  rcases h.sent_or_not with hc | ⟨p, box, frames, result, hp, hbox, -, hs⟩
  · rw [hc]
  · rw [Ledger.lines_of_send hs, List.getElem?_modify_ne]
    exact fun hi => hj (ho.sole hp hbox hi)

theorem Reaped.lines_of_other (h : s.Reaped now j t) (hs : s.engine.Sound) (ho : s.Owns id i)
    (hj : j ≠ id) : t.carriage.lines[i]? = s.carriage.lines[i]? := by
  cases h with
  | absent _ ht | left _ _ _ ht => rw [ht]
  | expired _ _ _ hc => rw [hc]
  | pinged _ _ _ _ h =>
    have hevade : s.Chore (fun _ _ => True) (s.evade j) := .evade j
    rw [h.lines_of_other (ho.of_recalls (hevade.recalls hs)) hj, carriage_evade]

theorem Ledger.times_of_line {κ : Type} {c c' : Ledger κ} {i : Nat}
    (h : c'.lines[i]? = c.lines[i]?) (body : Body) : c'.times body i = c.times body i := by
  rw [Ledger.times, h, Ledger.times]

/-- A look at somebody else costs a peer nothing. -/
theorem Reaped.tires_other (h : s.Reaped now j t) (hs : s.engine.Sound) (hj : j ≠ id) :
    s.Tires id i t := by
  have haside := (h.aside hj.symm).engine
  have hdue := Engine.due_congr haside.entry
  refine ⟨fun ho => ho.of_recalls (h.recalls hs), fun ho => ?_, ?_⟩
  · rw [hdue, Ledger.times_of_line (h.lines_of_other hs ho hj)]
  · rw [hdue, Event.silences, haside.told]
    rfl

/-- The silence of a peer is reported and answered with a PING at the price of what was due. -/
theorem Reaped.tires_self (h : s.Reaped now id t) (hs : s.engine.Sound) : s.Tires id i t := by
  have howns : s.Owns id i → t.Owns id i := fun ho => ho.of_recalls (h.recalls hs)
  cases h with
  | absent _ ht | left _ _ _ ht =>
    rw [ht]
    exact .refl id i s
  | expired hp _ he hc =>
    have hnone : t.engine.due id = 0 := by
      apply Engine.due_of_none
      rw [he, Engine.get?_drop, if_pos rfl]
    refine ⟨howns, fun _ => ?_, ?_⟩
    · rw [hnone, hc]
      exact Nat.le_add_right ..
    · rw [hnone, he, Event.silences_congr (s.engine.evasions_drop id)]
      exact Nat.le_add_right ..
  | @pinged p hp _ _ hfirst h =>
    have hcalm : (s.evade id).engine.Calm (fun _ => False) t.engine := h.calm
    have hdue : s.engine.due id = 1 := by rw [Engine.due_of_some hp, hfirst, if_neg Bool.false_ne_true]
    have hspent : t.engine.due id = 0 := by
      cases hq : t.engine.roster.get? id with
      | none => exact Engine.due_of_none hq
      | some q =>
        obtain ⟨p', hp', hpulse⟩ := (hcalm.entry hq).resolve_left not_false
        obtain rfl := Option.some.inj ((get?_evade hp).symm.trans hp')
        have hflag : q.evasive = true := congrArg Pulse.evasive hpulse
        rw [Engine.due_of_some hq, if_pos hflag]
    refine ⟨howns, fun _ => ?_, ?_⟩ <;> rw [hdue, hspent]
    · have hposted := h.times_le i
      rwa [carriage_evade] at hposted
    · rw [Event.silences_congr hcalm.evasions, engine_evade hp, Event.silences_append, Nat.add_zero]
      refine Nat.add_le_add_left ?_ _
      cases p.declaredName with
      | none => exact Nat.zero_le 1
      | some name => exact List.countP_le_length.trans (List.length_filter_le _ _)

theorem Reaped.tires (h : s.Reaped now j t) (hs : s.engine.Sound) : s.Tires id i t := by
  by_cases hj : j = id
  · subst hj
    exact h.tires_self hs
  · exact h.tires_other hs hj

/-- Whatever is done to an engine, as long as the peer gives no sign of life by it. -/
theorem tires_step (hs : s.engine.Sound) (walk : Walk) {op : Op}
    (hsign : s.engine.sign? id op = none) (hdrain : op ≠ .drain) : s.Tires id i (s.step walk op) := by
  by_cases hreap : ∃ now, op = .reap now
  · obtain ⟨now, rfl⟩ := hreap
    exact reap_induction (R := Tires id i) (Tires.refl id i) Tires.trans (fun hs h => h.tires hs) hs walk
  · have hop : ∀ now, op ≠ .reap now := fun now h => hreap ⟨now, h⟩
    have hpaces := paces_step hs walk hop hdrain
    have hdue := hpaces.due_le hsign
    refine ⟨fun ho => ho.of_recalls ((performed_anywhere hs walk op).recalls hs), fun _ => ?_, ?_⟩
    · rw [Ledger.times_of_calls (calls_step_of_not_reap walk s hop)]
      exact Nat.add_le_add_left hdue _
    · rw [Event.silences_congr hpaces.evasions]
      exact Nat.add_le_add_left hdue _

/-! ### One sweep -/

/-- Looks at others leave the line of a peer as it was. -/
theorem lines_of_others (now : Nat) (hs : s.engine.Sound) {ids : List PeerId} (hids : id ∉ ids)
    (ho : s.Owns id i) :
    (ids.foldl (reapPeer now) s).Owns id i ∧
      (ids.foldl (reapPeer now) s).carriage.lines[i]? = s.carriage.lines[i]? := by
  refine foldl_reapPeer now
    (R := fun s t => s.Owns id i → t.Owns id i ∧ t.carriage.lines[i]? = s.carriage.lines[i]?)
    (fun s ho => ⟨ho, rfl⟩) (fun h h' ho => ?_) (fun hj hs h ho => ?_) hs ho
  · obtain ⟨ho', hline⟩ := h ho
    obtain ⟨ho'', hline'⟩ := h' ho'
    exact ⟨ho'', hline'.trans hline⟩
  · exact ⟨ho.of_recalls (h.recalls hs), h.lines_of_other hs ho (ne_of_mem_of_not_mem hj hids)⟩

/-- A peer was lost as it was pinged: the PING is the last on its line, and the mailbox failed. -/
def LostByPing (s t : Station (Ledger κ) (Box μ)) (p : Peer (Box μ)) : Prop :=
  ∃ box l frames e, p.mailbox = some box ∧ s.carriage.lines[box.number]? = some l ∧
    t.carriage.lines[box.number]? = some (l ++ [(frames, .error e)]) ∧ e.isFatal = true ∧
    Wire.decode frames = .ok ⟨p.sent + 1, .ping⟩

/-- What a sweep at `now` makes of a peer whose entry was `p`. -/
structure Swept (now : Nat) (s : Station (Ledger κ) (Box μ)) (id : PeerId) (p : Peer (Box μ))
    (t : Station (Ledger κ) (Box μ)) : Prop where
  expiries : t.expiries id = s.expiries id + if p.expiredAt ≤ now then 1 else 0
  gone : p.expiredAt ≤ now → t.engine.roster.get? id = none
  lost : now < p.expiredAt → t.engine.roster.get? id = none → s.LostByPing t p

theorem Reaped.swept (h : s.Reaped now id t) (hp : s.engine.roster.get? id = some p) {box : Box μ}
    (hbox : p.mailbox = some box) (ho : s.Owns id box.number) : s.Swept now id p t := by
  cases h with
  | absent hnone =>
    rw [hp] at hnone
    cases hnone
  | expired hp' hnow he _ hx =>
    obtain rfl := Option.some.inj (hp.symm.trans hp')
    refine ⟨?_, fun _ => ?_, fun hlater => absurd hnow (Nat.not_le_of_lt hlater)⟩
    · rw [hx, if_pos rfl, if_pos hnow]
    · rw [he, Engine.get?_drop, if_pos rfl]
  | left hp' hnow _ ht =>
    obtain rfl := Option.some.inj (hp.symm.trans hp')
    refine ⟨?_, fun hend => absurd hend (Nat.not_le_of_lt hnow), fun _ hgone => ?_⟩
    · rw [ht, if_neg (Nat.not_le_of_lt hnow)]
      rfl
    · rw [ht, hp] at hgone
      cases hgone
  | pinged hp' hnow _ _ h hx =>
    obtain rfl := Option.some.inj (hp.symm.trans hp')
    refine ⟨?_, fun hend => absurd hend (Nat.not_le_of_lt hnow), fun _ hgone => ?_⟩
    · rw [hx, if_neg (Nat.not_le_of_lt hnow)]
      rfl
    have hmarked := get?_evade hp
    cases h with
    | unmoved _ he | rejected _ _ _ _ he =>
      rw [he, hmarked] at hgone
      cases hgone
    | taken _ _ _ _ he =>
      rw [he, SortedMap.get?_insert, if_pos rfl] at hgone
      cases hgone
    | @lost p' box' frames e hp' hbox' hs hfatal _ hf =>
      obtain rfl := Option.some.inj (hmarked.symm.trans hp')
      obtain rfl := Option.some.inj (hbox.symm.trans hbox')
      have hline := List.getElem?_eq_getElem ho.opened
      rw [carriage_evade] at hs
      refine ⟨box, _, frames, e, hbox, hline, ?_, hfatal, Wire.decode_of_encode hf⟩
      rw [Ledger.lines_of_send hs, List.getElem?_modify_eq, hline]
      rfl

/-- A sweep looks at a peer once. What it does before and after that has nothing to do with the peer,
nor with its line. -/
theorem exists_look (hs : s.engine.Sound) (hp : s.engine.roster.get? id = some p) (ho : s.Owns id i)
    (walk : Walk) (now : Nat) : ∃ u v : Station (Ledger κ) (Box μ),
      s.Aside id u ∧ u.Owns id i ∧ u.carriage.lines[i]? = s.carriage.lines[i]? ∧
        u.Reaped now id v ∧ v.Aside id (s.reap walk now) ∧
        (s.reap walk now).carriage.lines[i]? = v.carriage.lines[i]? := by
  obtain ⟨before, after, hbefore, hafter, heq⟩ := exists_reap_eq hp (hs.running hp) walk now
  have haside : ∀ {s : Station (Ledger κ) (Box μ)} {ids : List PeerId}, s.engine.Sound → id ∉ ids →
      s.Aside id (ids.foldl (reapPeer now) s) := by
    intro s ids hs hids
    exact foldl_reapPeer now (Aside.refl id) Aside.trans
      (fun hj _ h => h.aside (ne_of_mem_of_not_mem hj hids).symm) hs
  let u := before.foldl (reapPeer now) s
  have hu : u.engine.Sound := sound_foldl_reapPeer hs before
  obtain ⟨hou, hlu⟩ := lines_of_others now hs hbefore ho
  let v := u.reapPeer now id
  have hreaped : u.Reaped now id v := reaped_reapPeer (fun {_ _} => hu.filed) now id
  have hv : v.engine.Sound := hreaped.shifts.sound hu
  have hlv := (lines_of_others now hv hafter (hou.of_recalls (hreaped.recalls hu))).2
  rw [heq]
  exact ⟨u, v, haside hs hbefore, hou, hlu, hreaped, haside hv hafter, hlv⟩

theorem swept_reap (hs : s.engine.Sound) (hk : s.Kept) (hp : s.engine.roster.get? id = some p)
    (walk : Walk) (now : Nat) : s.Swept now id p (s.reap walk now) := by
  obtain ⟨box, -, hbox, -⟩ := hk.entry hp
  obtain ⟨u, v, hsu, hou, hlu, hreaped, hvt, hlt⟩ :=
    exists_look hs hp (Owns.of_kept hk hp hbox) walk now
  have hswept := hreaped.swept (hsu.engine.entry.trans hp) hbox hou
  constructor
  · exact hvt.expiries.trans (hswept.expiries.trans (congrArg (· + _) hsu.expiries))
  · exact fun hend => hvt.engine.entry.trans (hswept.gone hend)
  · intro hlater hgone
    obtain ⟨box', l, frames, e, hbox', hl, hl', hfatal, hping⟩ :=
      hswept.lost hlater (hvt.engine.entry.symm.trans hgone)
    obtain rfl := Option.some.inj (hbox.symm.trans hbox')
    exact ⟨box, l, frames, e, hbox, hlu.symm.trans hl, hlt.trans hl', hfatal, hping⟩

/-! ### Runs -/

/-- A turn in which a peer gives no sign of life, with what the engine hands over in it. -/
theorem tires_turn (hs : s.engine.Sound) {x : Turn κ} (hsign : s.engine.sign? id x.op = none) :
    (s.Owns id i → (s.turn (s.onLedger x)).Owns id i ∧
      (s.turn (s.onLedger x)).carriage.times .ping i + (s.turn (s.onLedger x)).engine.due id ≤
        s.carriage.times .ping i + s.engine.due id) ∧
      Event.silences id (s.handed x.op) +
        (Event.silences id (s.turn (s.onLedger x)).engine.events +
          (s.turn (s.onLedger x)).engine.due id) ≤
        Event.silences id s.engine.events + s.engine.due id := by
  let s' : Station (Ledger κ) (Box μ) := { s with carriage := (s.onLedger x).carriage }
  have howns : s.Owns id i → s'.Owns id i := fun ho => ⟨ho.opened, ho.sole⟩
  by_cases hdrain : x.op = .drain
  · have hstep : s.turn (s.onLedger x) = s'.drain.2 := by
      rw [turn, step, onLedger, hdrain]
      rfl
    rw [hstep, hdrain]
    exact ⟨fun ho => ⟨⟨ho.opened, ho.sole⟩, Nat.le_refl _⟩, Nat.le_of_eq (congrArg _ (Nat.zero_add _))⟩
  · have htires : s'.Tires id i (s.turn (s.onLedger x)) := tires_step (s := s') hs x.walk hsign hdrain
    rw [s.handed_of_ne hdrain]
    refine ⟨fun ho => ⟨htires.owns (howns ho), htires.pings (howns ho)⟩, ?_⟩
    exact Nat.le_trans (Nat.le_of_eq (Nat.zero_add _)) htires.silences

theorem tires_keep (hs : s.engine.Sound) {turns : List (Turn κ)}
    (hsign : s.signs id (s.ledgered turns) = []) :
    (s.Owns id i → (s.keep turns).carriage.times .ping i + (s.keep turns).engine.due id ≤
        s.carriage.times .ping i + s.engine.due id) ∧
      Event.silences id (s.told (s.ledgered turns)) + (s.keep turns).engine.due id ≤
        Event.silences id s.engine.events + s.engine.due id := by
  induction turns generalizing s with
  | nil => exact ⟨fun _ => Nat.le_refl _, Nat.le_refl _⟩
  | cons x turns ih =>
    obtain ⟨hfirst, hlater⟩ := List.append_eq_nil_iff.mp hsign
    have hnone : s.engine.sign? id x.op = none := by
      cases hx : s.engine.sign? id x.op with
      | none => rfl
      | some now =>
        rw [onLedger, hx] at hfirst
        cases hfirst
    obtain ⟨hpings, hsilences⟩ := tires_turn (i := i) hs hnone
    obtain ⟨hpings', hsilences'⟩ := ih (sound_turn hs (s.onLedger x)) hlater
    refine ⟨fun ho => ?_, ?_⟩
    · obtain ⟨ho', hle⟩ := hpings ho
      exact Nat.le_trans (hpings' ho') hle
    · rw [ledgered, told_cons, Event.silences_append]
      refine Nat.le_trans ?_ hsilences
      rw [Nat.add_assoc]
      exact Nat.add_le_add_left hsilences' _

/-- What is known of the silence of a peer, after turns of an engine that started at `s`. -/
structure Watches (s : Station (Ledger κ) (Box μ)) (turns : List (Turn κ)) (id : PeerId) : Prop where
  /-- The ledger, which serves to count PINGs, makes no difference to the run. -/
  plain : (s.keep turns).plain = s.plain.run turns
  /-- Both deadlines are counted from the last sign of life. -/
  deadlines : ∀ {p}, (s.keep turns).engine.roster.get? id = some p → ∃ last,
    (s.signs id (s.ledgered turns)).getLast? = some last ∧
      p.evasiveAt = last + s.engine.timing.evasive ∧ p.expiredAt = last + s.engine.timing.expired
  /-- Whenever the peers are looked at next, this one expires exactly if its time is up. -/
  sweep : ∀ {p last x now}, (s.keep turns).engine.roster.get? id = some p →
    (s.signs id (s.ledgered turns)).getLast? = some last → x.op = .reap now →
    ((s.keep (turns ++ [x])).expiries id = (s.keep turns).expiries id + 1 ↔
        last + s.engine.timing.expired ≤ now) ∧
      (s.keep turns).Swept now id p (s.keep (turns ++ [x]))
  /-- As long as no further sign of life is given, one report and one PING is all. -/
  once : ∀ {silence}, (s.keep turns).signs id ((s.keep turns).ledgered silence) = [] →
    Event.silences id ((s.keep turns).told ((s.keep turns).ledgered silence)) ≤
        Event.silences id (s.keep turns).engine.events + 1 ∧
      ∀ {p} {box : Box μ}, (s.keep turns).engine.roster.get? id = some p → p.mailbox = some box →
        (s.keep (turns ++ silence)).carriage.times .ping box.number ≤
          (s.keep turns).carriage.times .ping box.number + 1

theorem swept_keep (hs : s.engine.Sound) (hk : s.Kept) (hp : s.engine.roster.get? id = some p)
    {x : Turn κ} (hop : x.op = .reap now) : s.Swept now id p (s.keep [x]) := by
  have hreap := swept_reap (s := { s with carriage := (s.onLedger x).carriage }) hs
    (Books.own hk rfl rfl rfl) hp x.walk now
  rw [keep_cons, keep, ledgered, run, List.foldl_nil, turn, step, onLedger, hop]
  exact ⟨hreap.expiries, hreap.gone, hreap.lost⟩

theorem watches_keep (hs : s.engine.Sound) (hk : s.Kept) (hdated : s.Dated id none)
    (turns : List (Turn κ)) : s.Watches turns id := by
  have ht := sound_keep hs turns
  have hkt := kept_keep hs hk turns
  have hlater : (s.keep turns).Dated id (s.signs id (s.ledgered turns)).getLast? :=
    dated_run hs (s.ledgered turns) [] hdated
  have htiming : (s.keep turns).engine.timing = s.engine.timing := timing_run hs (s.ledgered turns)
  rw [Dated, htiming] at hlater
  constructor
  case plain => exact s.plain_keep turns
  case deadlines => exact fun hp => hlater _ hp
  case sweep =>
    intro p last x now hp hlast hop
    obtain ⟨last', hlast', -, hexpired⟩ := hlater p hp
    obtain rfl := Option.some.inj (hlast.symm.trans hlast')
    have hswept := swept_keep ht hkt hp hop
    rw [keep_append]
    refine ⟨?_, hswept⟩
    rw [hswept.expiries, hexpired]
    split <;> simp [*]
  case once =>
    intro silence hsilence
    have hdue := (s.keep turns).engine.due_le_one id
    refine ⟨?_, fun {p box} hp hbox => ?_⟩
    · have hle := (tires_keep (i := 0) ht hsilence).2
      omega
    · have hle := (tires_keep (i := box.number) ht hsilence).1 (Owns.of_kept hkt hp hbox)
      rw [keep_append]
      omega

/-- Whatever is done to an engine that is new, whatever the carriage answers and whatever the clock
shows. -/
theorem watches_run_new (id : PeerId) (name endpoint : String) (timing : Timing) (carriage : κ)
    (turns : List (Turn κ)) (peer : PeerId) :
    (new (Engine.new id name endpoint timing : Engine (Box μ)) ⟨carriage, []⟩).Watches turns peer :=
  watches_keep (Engine.sound_new id name endpoint timing) (Books.new _ carriage rfl _)
    (fun _ hp => by cases hp) turns

end Station
end PeerMesh
