import Mathlib.Algebra.GroupWithZero.Nat
import Mathlib.Order.WellFounded
import PeerMesh.Proofs.World.Sides

/-!
# Whether deliveries come to an end

Two nodes on an open network are left alone with what is on its way between them. A greeting that
nobody waits for is returned, since it is taken for that of a node that was started again, and so is
its return. Deliveries therefore come to an end if no more greetings are on their way than are waited
for, or if one of the nodes is stopped or cannot introduce itself, and in no other case.
-/

namespace PeerMesh
set_option autoImplicit false

/-! ### Two sides left alone -/

namespace Side
variable {x y x' y' : Side}

/-- No greeting is on its way that will be returned for ever. -/
def Calm (x y : Side) : Prop :=
  x.stopped = true ∨ y.stopped = true ∨ x.greetings + y.greetings ≤ x.awaits + y.awaits

theorem calm_comm (x y : Side) : x.Calm y ↔ y.Calm x := by
  rw [Calm, Calm, or_left_comm, Nat.add_comm, Nat.add_comm x.awaits]

theorem Reacts.calm (h : x.Reacts y x' y') : x'.Calm y' ↔ x.Calm y := by
  obtain ⟨hx, hy⟩ := h.stopped
  have hother := h.awaits_other
  cases hrun : x.stopped with
  | true => simp [Calm, hx, hrun]
  | false =>
    have hbalance := h.balance hrun
    unfold Calm
    rw [hx, hy, hrun, hother]
    have harith : x'.greetings + y'.greetings ≤ x'.awaits + y.awaits ↔
        x.greetings + y.greetings ≤ x.awaits + y.awaits := by omega
    rw [harith]

/-- The greetings that will be returned. -/
def returns (x : Side) : Nat := if x.stopped = false ∧ x.awaits = 0 then x.greetings else 0

/-- A PING is worth two messages, since it is answered. -/
def load (x : Side) : Nat := (x.inbox.map fun m => if m.body.command = .ping then 2 else 1).sum

def rank (x y : Side) : Nat × Nat × Nat :=
  (x.greetings + y.greetings, x.returns + y.returns, x.load + y.load)

theorem rank_comm (x y : Side) : x.rank y = y.rank x := by
  rw [rank, rank, Nat.add_comm, Nat.add_comm x.returns, Nat.add_comm x.load]

/-- A greeting is used up, or goes to where it is used up, or there is less of the rest. -/
theorem Reacts.rank_lt (h : x.Reacts y x' y') (hcalm : x.Calm y) :
    Prod.Lex (· < ·) (Prod.Lex (· < ·) (· < ·)) (x'.rank y') (x.rank y) := by
  cases h with
  | @slept m rest hx hstop =>
    cases hm : m.isHello with
    | true =>
      refine .left _ _ ?_
      simp [greetings, hx, hm]
    | false =>
      refine Prod.Lex.right' _ ?_ (Prod.Lex.right' _ ?_ ?_)
      · simp [greetings, hx, hm]
      · simp [returns, hstop]
      · simp [load, hx]
        split <;> omega
  | used hx hrun hm hwait =>
    refine .left _ _ ?_
    simp [greetings, hx, hm]
  | returned hx hrun hm hwait hm' =>
    have hothers : ¬ (y.stopped = false ∧ y.awaits = 0) := by
      rintro ⟨hy, hnone⟩
      simp [Calm, greetings, hx, hm, hrun, hwait, hy, hnone] at hcalm
    refine Prod.Lex.right' _ ?_ (.left _ _ ?_)
    · simp [greetings, hx, hm, hm']
      omega
    · simp [returns, greetings, hx, hm, hrun, hwait, hothers]
  | noticed hx hrun hm =>
    refine Prod.Lex.right' _ ?_ (Prod.Lex.right' _ ?_ ?_)
    · simp [greetings, hx, hm]
    · simp [returns, greetings, hx, hm]
    · simp [load, hx]
      split <;> omega
  | ponged hx hrun hm hm' =>
    refine Prod.Lex.right' _ ?_ (Prod.Lex.right' _ ?_ ?_)
    · simp [greetings, hx, Message.isHello_of_ping hm, Message.isHello_of_pingOk hm']
    · simp [returns, greetings, hx, Message.isHello_of_ping hm, Message.isHello_of_pingOk hm']
    · simp [load, hx, hm, hm', Body.command]
      omega

end Side

/-! ### Two nodes left alone -/

namespace World

section
variable {κ μ : Type} [Carriage κ μ] [Inboxes κ] {w w' : World κ μ}

def Delivers (w w' : World κ μ) : Prop := ∃ n walk now, w.deliver walk n now = (true, w')

/-- However messages are delivered, there comes an end to it. -/
def Settles (w : World κ μ) : Prop :=
  ¬ ∃ f : Nat → World κ μ, f 0 = w ∧ ∀ k, (f k).Delivers (f (k + 1))

theorem settles_iff_acc : w.Settles ↔ Acc (fun w' w => w.Delivers w') w := by
  have hchain := not_acc_iff_exists_descending_chain (r := fun w' w => w.Delivers w') (x := w)
  rw [Settles, ← hchain, Classical.not_not]

theorem exists_of_deliver {walk : Walk} {n now : Nat} (h : w.deliver walk n now = (true, w')) :
    ∃ e d c, w.engines[n]? = some e ∧ Inboxes.receive w.carriage e.endpoint = (some d, c) := by
  cases he : w.engines[n]? with
  | none =>
    rw [deliver, he] at h
    cases h
  | some e =>
    rw [deliver, he] at h
    rcases hrec : Inboxes.receive w.carriage e.endpoint with ⟨_ | d, c⟩
    · dsimp only at h
      rw [hrec] at h
      cases h
    · exact ⟨e, d, c, rfl, hrec⟩

theorem delivers_of_receive {n : Nat} {e : Engine μ} {d : Delivery} {c : κ}
    (he : w.engines[n]? = some e) (hrec : Inboxes.receive w.carriage e.endpoint = (some d, c)) :
    ∃ w', w.Delivers w' := by
  refine ⟨(w.deliver .ascending n 0).2, n, .ascending, 0, Prod.ext ?_ rfl⟩
  rw [deliver, he]
  dsimp only
  rw [hrec]

variable {κ' : Type} [Carriage κ' μ] [Inboxes κ'] {f : κ → κ'}

theorem settles_map (hf : IsView f)
    (hr : ∀ c endpoint, Inboxes.receive (f c) endpoint =
      ((Inboxes.receive c endpoint).1, f (Inboxes.receive c endpoint).2)) :
    (w.map f).Settles ↔ w.Settles := by
  rw [settles_iff_acc, settles_iff_acc]
  constructor
  · intro h
    have hacc := InvImage.accessible (World.map f) h
    refine Subrelation.accessible ?_ hacc
    rintro w'' w' ⟨n, walk, now, hd⟩
    refine ⟨n, walk, now, ?_⟩
    rw [deliver_map hf hr, hd]
  · intro h
    induction h with
    | intro w _ ih =>
      refine .intro _ fun w' ⟨n, walk, now, hd⟩ => ?_
      rw [deliver_map hf hr] at hd
      obtain ⟨hdone, rfl⟩ := Prod.mk.inj hd
      exact ih _ ⟨n, walk, now, Prod.ext hdone rfl⟩

end

/-- How `who` sees node `n`, which is `me`. -/
def side (w : World Recorded Network.Mailbox) (n : Nat) (me who : Party) : Side :=
  match w.engines[n]? with
  | some e => w.carriage.side me who e
  | none => ⟨true, 0, []⟩

theorem side_of_some {w : World Recorded Network.Mailbox} {n : Nat} {e : Engine Network.Mailbox}
    (he : w.engines[n]? = some e) (me who : Party) : w.side n me who = w.carriage.side me who e := by
  rw [side, he]

end World

namespace Orderly
variable {g : Gathering} {past : Nat → List Event} {w w' : World Recorded Network.Mailbox}

/-- A delivery to one node is a reaction to another one. -/
theorem reacts (h : Orderly g past w) (hopen : w.carriage.IsOpen g)
    (hparties : ∀ who ∈ g.parties, who.Presentable) {walk : Walk} {n now : Nat}
    (hd : w.deliver walk n now = (true, w')) :
    ∃ k me who, g.parties[n]? = some me ∧ g.parties[k]? = some who ∧ me.id ≠ who.id ∧
      (w.side n me who).Reacts (w.side k who me) (w'.side n me who) (w'.side k who me) := by
  obtain ⟨e, d, c, he, hrec⟩ := World.exists_of_deliver hd
  obtain ⟨me, hme⟩ := h.party he
  obtain ⟨who, m, ha⟩ := h.arrival hme he hrec
  obtain ⟨k, hk⟩ := List.mem_iff_getElem?.mp ha.sender
  obtain ⟨f, hf⟩ := h.engine hk
  have hmem := List.mem_of_getElem? hme
  have hne := endpoint_ne hmem ha.sender ha.other
  have hkn : n ≠ k := by
    rintro rfl
    exact ha.other (congrArg Party.id (Option.some.inj (hk.symm.trans hme)))
  have hopen' : c.IsOpen g := by
    have hrest : (Inboxes.receive w.carriage e.endpoint).2.IsOpen g :=
      Network.IsOpen.receive hopen e.endpoint
    rw [hrec] at hrest
    exact hrest
  refine ⟨k, me, who, hme, hk, Ne.symm ha.other, ?_⟩
  have hreacts := ha.reacts (h.settled hme he) (hparties me hmem) (hparties who ha.sender) hopen' hne
    f w.journal walk now
  have hw' : (w.deliver walk n now).2 = w' := congrArg Prod.snd hd
  rw [World.deliver_of_some he hrec] at hw'
  subst hw'
  have hn : n < w.engines.length := (List.getElem?_eq_some_iff.mp he).1
  rw [World.side_of_some he, World.side_of_some hf, World.side_of_some (List.getElem?_set_self hn),
    World.side_of_some ((List.getElem?_set_ne hkn).trans hf)]
  exact hreacts

theorem delivers (h : Orderly g past w) {n : Nat} {me who : Party} (hme : g.parties[n]? = some me)
    (hbox : (w.side n me who).inbox ≠ []) : ∃ w', w.Delivers w' := by
  obtain ⟨e, he⟩ := h.engine hme
  rw [World.side_of_some he] at hbox
  cases hwaiting : w.carriage.inner.waiting e.endpoint with
  | nil =>
    rw [(h.settled hme he).endpoint] at hwaiting
    refine absurd ?_ hbox
    rw [Recorded.side, Recorded.waitingFrom, hwaiting]
    rfl
  | cons d rest =>
    have hfirst : (Inboxes.receive w.carriage e.endpoint).1 = some d := by
      change (w.carriage.inner.receive e.endpoint).1 = some d
      rw [Network.receive, hwaiting]
    exact World.delivers_of_receive he (Prod.ext hfirst rfl)

variable {a b : Party}

theorem reacts_of_two (h : Orderly g past w) (hopen : w.carriage.IsOpen g)
    (hparties : ∀ who ∈ g.parties, who.Presentable) (hg : g.parties = [a, b])
    (hd : w.Delivers w') :
    (w.side 0 a b).Reacts (w.side 1 b a) (w'.side 0 a b) (w'.side 1 b a) ∨
      (w.side 1 b a).Reacts (w.side 0 a b) (w'.side 1 b a) (w'.side 0 a b) := by
  obtain ⟨n, walk, now, hd⟩ := hd
  obtain ⟨k, me, who, hme, hwho, hid, hreacts⟩ := h.reacts hopen hparties hd
  rw [hg] at hme hwho
  match n, k with
  | 0, 0 | 1, 1 => exact absurd (congrArg Party.id (Option.some.inj (hme.symm.trans hwho))) hid
  | 0, 1 =>
    cases hme
    cases hwho
    exact .inl hreacts
  | 1, 0 =>
    cases hme
    cases hwho
    exact .inr hreacts
  | n + 2, _ => cases hme
  | _, k + 2 => cases hwho

theorem delivered (h : Orderly g past w) (hopen : w.carriage.IsOpen g) (hd : w.Delivers w') :
    Orderly g past w' ∧ w'.carriage.IsOpen g := by
  obtain ⟨n, walk, now, hd⟩ := hd
  have hnext := h.deliver walk n now
  have hopen' := World.isOpen_deliver hopen walk n now
  rw [hd] at hnext hopen'
  exact ⟨hnext, hopen'⟩

theorem calm_delivered (h : Orderly g past w) (hopen : w.carriage.IsOpen g)
    (hparties : ∀ who ∈ g.parties, who.Presentable) (hg : g.parties = [a, b])
    (hd : w.Delivers w') :
    (w'.side 0 a b).Calm (w'.side 1 b a) ↔ (w.side 0 a b).Calm (w.side 1 b a) := by
  rcases h.reacts_of_two hopen hparties hg hd with hreacts | hreacts
  · exact hreacts.calm
  · exact (Side.calm_comm _ _).trans (hreacts.calm.trans (Side.calm_comm _ _))

theorem acc_of_calm (h : Orderly g past w) (hopen : w.carriage.IsOpen g)
    (hparties : ∀ who ∈ g.parties, who.Presentable) (hg : g.parties = [a, b])
    (hcalm : (w.side 0 a b).Calm (w.side 1 b a)) : Acc (fun w' w => w.Delivers w') w := by
  have hwf : WellFounded (Prod.Lex (· < ·) (Prod.Lex (· < ·) (· < ·)) :
      Nat × Nat × Nat → Nat × Nat × Nat → Prop) :=
    Nat.lt_wfRel.wf.prod_lex (Nat.lt_wfRel.wf.prod_lex Nat.lt_wfRel.wf)
  generalize hrank : (w.side 0 a b).rank (w.side 1 b a) = rank
  induction rank using hwf.induction generalizing w with
  | h rank ih =>
    subst hrank
    refine .intro w fun w' hd => ?_
    obtain ⟨hnext, hopen'⟩ := h.delivered hopen hd
    refine ih _ ?_ hnext hopen' ((h.calm_delivered hopen hparties hg hd).mpr hcalm) rfl
    rcases h.reacts_of_two hopen hparties hg hd with hreacts | hreacts
    · exact hreacts.rank_lt hcalm
    · rw [Side.rank_comm, Side.rank_comm (w.side 0 a b)]
      exact hreacts.rank_lt ((Side.calm_comm _ _).mp hcalm)

/-- With a greeting too many there always is one on its way. -/
theorem calm_of_acc (h : Orderly g past w) (hopen : w.carriage.IsOpen g)
    (hparties : ∀ who ∈ g.parties, who.Presentable) (hg : g.parties = [a, b])
    (hacc : Acc (fun w' w => w.Delivers w') w) : (w.side 0 a b).Calm (w.side 1 b a) := by
  induction hacc with
  | intro w _ ih =>
    have hon : ∀ {w'}, w.Delivers w' → (w.side 0 a b).Calm (w.side 1 b a) := by
      intro w' hd
      obtain ⟨hnext, hopen'⟩ := h.delivered hopen hd
      exact (h.calm_delivered hopen hparties hg hd).mp (ih w' hd hnext hopen')
    by_cases ha : (w.side 0 a b).inbox = []
    · by_cases hb : (w.side 1 b a).inbox = []
      · refine .inr (.inr ?_)
        simp [Side.greetings, ha, hb]
      · obtain ⟨w', hd⟩ := h.delivers (n := 1) (by rw [hg]; rfl) hb
        exact hon hd
    · obtain ⟨w', hd⟩ := h.delivers (n := 0) (by rw [hg]; rfl) ha
      exact hon hd

theorem acc_iff_calm (h : Orderly g past w) (hopen : w.carriage.IsOpen g)
    (hparties : ∀ who ∈ g.parties, who.Presentable) (hg : g.parties = [a, b]) :
    Acc (fun w' w => w.Delivers w') w ↔ (w.side 0 a b).Calm (w.side 1 b a) :=
  ⟨h.calm_of_acc hopen hparties hg, h.acc_of_calm hopen hparties hg⟩

end Orderly

/-! ### What can be counted -/

namespace World

/-- How many greetings are on their way to any node. -/
def greetings (w : World Network Network.Mailbox) : Nat :=
  (w.engines.map fun e => (w.carriage.waiting e.endpoint).countP (Wire.isHello ·.content)).sum

/-- How many greetings the nodes wait for from each other. -/
def awaited (w : World Network Network.Mailbox) : Nat :=
  (w.engines.map fun e => (w.engines.map fun f => e.awaits f.id).sum).sum

end World

theorem Engine.Sound.awaits_self {e : Engine Network.Mailbox} (hs : e.Sound) : e.awaits e.id = 0 := by
  cases hp : e.roster.get? e.id with
  | none => exact awaits_of_none hp
  | some p => exact absurd rfl (hs.foreign_id hp)

theorem Recorded.countP_waiting {c : Recorded} {id : PeerId} {endpoint : String}
    (h : ∀ d ∈ c.inner.waiting endpoint, d.routingId = id.routingId) :
    (c.inner.waiting endpoint).countP (Wire.isHello ·.content) = c.greetings id endpoint := by
  rw [greetings, waitingFrom, List.countP_filterMap]
  refine List.countP_congr fun d hd => ?_
  rw [if_pos (h d hd), Wire.isHello]
  cases (Wire.decode d.content).toOption <;> rfl

namespace Orderly
variable {g : Gathering} {past : Nat → List Event} {w : World Recorded Network.Mailbox} {a b : Party}

theorem engines_of_two (h : Orderly g past w) (hg : g.parties = [a, b]) :
    ∃ e f, w.engines = [e, f] ∧ e.Settled g.near a ∧ f.Settled g.near b := by
  have hlength := h.length
  rw [hg] at hlength
  obtain ⟨e, f, he⟩ := List.length_eq_two.mp hlength
  have ha : g.parties[0]? = some a := congrArg (·[0]?) hg
  have hb : g.parties[1]? = some b := congrArg (·[1]?) hg
  exact ⟨e, f, he, h.settled ha (congrArg (·[0]?) he), h.settled hb (congrArg (·[1]?) he)⟩

/-- Of two nodes one can only hear from the other. -/
theorem routingId_of_two (h : Orderly g past w) {me who : Party} (hme : me ∈ g.parties)
    (hg : ∀ x ∈ g.parties, x = me ∨ x = who) :
    ∀ d ∈ w.carriage.inner.waiting me.endpoint, d.routingId = who.id.routingId := by
  intro d hd
  obtain ⟨x, hx, hid, hwrote⟩ := h.genuine.waiting hme d hd
  rcases hg x hx with rfl | rfl
  · exact absurd rfl hid
  · exact hwrote.routingId

/-- Both sides together, as they can be counted from outside. -/
theorem calm_iff (h : Orderly g past w) (hg : g.parties = [a, b]) :
    (w.side 0 a b).Calm (w.side 1 b a) ↔ (∃ e ∈ w.engines, e.stopped = true) ∨
      (w.map Recorder.inner).greetings ≤ (w.map Recorder.inner).awaited := by
  obtain ⟨e, f, he, hsa, hsb⟩ := h.engines_of_two hg
  have hfirst : w.side 0 a b = w.carriage.side a b e := World.side_of_some (congrArg (·[0]?) he) a b
  have hsecond : w.side 1 b a = w.carriage.side b a f := World.side_of_some (congrArg (·[1]?) he) b a
  have hboth : ∀ x ∈ g.parties, x = a ∨ x = b := by simp [hg]
  have hina := Recorded.countP_waiting (h.routingId_of_two (by simp [hg]) hboth)
  have hinb := Recorded.countP_waiting
    (h.routingId_of_two (by simp [hg]) fun x hx => (hboth x hx).symm)
  have hgreetings : (w.map Recorder.inner).greetings =
      (w.side 0 a b).greetings + (w.side 1 b a).greetings := by
    rw [World.greetings, hfirst, hsecond]
    change (w.engines.map fun e => (w.carriage.inner.waiting e.endpoint).countP _).sum = _
    rw [he]
    simp only [List.map_cons, List.map_nil, List.sum_cons, List.sum_nil, hsa.endpoint, hsb.endpoint,
      hina, hinb, Nat.add_zero]
    rfl
  have hawaited : (w.map Recorder.inner).awaited = (w.side 0 a b).awaits + (w.side 1 b a).awaits := by
    have hself : e.awaits a.id = 0 := hsa.id ▸ hsa.sound.awaits_self
    have hself' : f.awaits b.id = 0 := hsb.id ▸ hsb.sound.awaits_self
    rw [World.awaited, hfirst, hsecond]
    change (w.engines.map fun e => (w.engines.map fun f => e.awaits f.id).sum).sum = _
    rw [he]
    simp only [List.map_cons, List.map_nil, List.sum_cons, List.sum_nil, hsa.id, hsb.id, hself, hself',
      Nat.add_zero, Nat.zero_add]
    rfl
  rw [hgreetings, hawaited, Side.Calm, hfirst, hsecond, he]
  simp [Recorded.side, or_assoc]

/-! ### Nodes that cannot introduce themselves -/

/-- Whoever said something has introduced itself before. -/
theorem presentable_of_waiting (h : Orderly g past w) {who whom : Party} (hmem : who ∈ g.parties)
    {k : Nat} (hwhom : g.parties[k]? = some whom) (hid : who.id ≠ whom.id)
    (hne : who.endpoint ≠ "") (hwaits : w.carriage.waitingFrom who.id whom.endpoint ≠ []) :
    who.Presentable := by
  obtain ⟨n, hwho⟩ := List.mem_iff_getElem?.mp hmem
  obtain ⟨e, he⟩ := h.engine hwho
  obtain ⟨f, hf⟩ := h.engine hwhom
  have hrecounts := (h.talks hwho hwhom hid he hf).recounts
  obtain ⟨arrived, haccepted, -⟩ := hrecounts.arrived
  change w.carriage.takenFrom who.id whom.endpoint =
    arrived ++ w.carriage.waitingFrom who.id whom.endpoint at haccepted
  cases htaken : w.carriage.takenFrom who.id whom.endpoint with
  | nil =>
    rw [htaken] at haccepted
    exact absurd (List.append_eq_nil_iff.mp haccepted.symm).2 hwaits
  | cons m rest =>
    have hhello : m.isHello = true := hrecounts.opened htaken
    have hfirst : m ∈ w.carriage.takenFrom who.id whom.endpoint := htaken ▸ List.mem_cons_self
    obtain ⟨said, hsaid, hm⟩ := List.mem_filterMap.mp hfirst
    obtain ⟨x, hx, hwrote⟩ := h.genuine.taken said hsaid
    split at hm
    · rename_i hbox
      obtain rfl : who = x := Gathering.eq_of_id hmem hx
        (PeerId.routingId_inj (hwrote.routingId ▸ hbox ▸ rfl))
      obtain ⟨m', hencoded, htrue⟩ := hwrote.message
      rw [Wire.decode_of_encode hencoded] at hm
      obtain rfl := Option.some.inj hm
      obtain ⟨sequence, body⟩ := m'
      cases body with
      | hello hello =>
        obtain ⟨hendpoint, hname⟩ := Wire.le_of_encode_hello hencoded
        obtain ⟨hnamed, hplaced⟩ := htrue hello rfl
        exact ⟨hne, hplaced ▸ hendpoint, hnamed ▸ hname⟩
      | _ => cases hhello
    · cases hm

theorem receiver_of_mute (h : Orderly g past w) {who whom me x : Party} (hwho : who ∈ g.parties)
    (hboth : ∀ x ∈ g.parties, x = who ∨ x = whom) (hne : who.endpoint ≠ "")
    (hmute : ¬ who.Presentable) {n : Nat} (hme : g.parties[n]? = some me)
    {e : Engine Network.Mailbox} {d : Delivery} {c : Recorded} {m : Message}
    (ha : Arrival g me e w.carriage d c x m) : me = who := by
  rcases hboth me (List.mem_of_getElem? hme) with hsame | rfl
  · exact hsame
  · rcases hboth x ha.sender with rfl | rfl
    · have hwaits : w.carriage.waitingFrom x.id me.endpoint ≠ [] :=
        ha.popped.waitingFrom_self ha.routingId ha.decoded ▸ List.cons_ne_nil _ _
      exact absurd (h.presentable_of_waiting hwho hme ha.other hne hwaits) hmute
    · exact absurd rfl ha.other

/-- A node that cannot introduce itself only ever takes messages, and nothing comes back. -/
theorem acc_of_mute (h : Orderly g past w) {who whom : Party} (hwho : who ∈ g.parties)
    (hboth : ∀ x ∈ g.parties, x = who ∨ x = whom) (hne : who.endpoint ≠ "")
    (hmute : ¬ who.Presentable) : Acc (fun w' w => w.Delivers w') w := by
  generalize hsize : (w.carriage.inner.waiting who.endpoint).length = size
  induction size using Nat.strong_induction_on generalizing w with
  | h size ih =>
    subst hsize
    refine .intro w ?_
    rintro w' ⟨n, walk, now, hd⟩
    have hnext : Orderly g past w' := by
      have hdone := h.deliver walk n now
      rwa [hd] at hdone
    obtain ⟨e, d, c, he, hrec⟩ := World.exists_of_deliver hd
    obtain ⟨me, hme⟩ := h.party he
    obtain ⟨x, m, ha⟩ := h.arrival hme he hrec
    obtain rfl := h.receiver_of_mute hwho hboth hne hmute hme ha
    have hw' : (w.deliver walk n now).2 = w' := congrArg Prod.snd hd
    rw [World.deliver_of_some he hrec] at hw'
    subst hw'
    refine ih _ ?_ hnext rfl
    let s : Station Recorded Network.Mailbox := ⟨e, c, w.journal⟩
    let t := s.step walk (.receive d.routingId d.content now)
    have hs := h.settled hme he
    have hspeaks : s.Speaks g.near me t :=
      (Station.performed_step hs.sound walk _ (ha.near now)).speaks hs
    have hkept : t.carriage.inner.waiting me.endpoint = c.inner.waiting me.endpoint :=
      hspeaks.spreads.waiting_own
    have hpopped := ha.popped.waiting me.endpoint
    rw [if_pos rfl] at hpopped
    change (t.carriage.inner.waiting me.endpoint).length < _
    rw [hkept, hpopped]
    exact Nat.lt_succ_self _

end Orderly

namespace Gathering

/-- Two nodes come to rest exactly if one of them cannot introduce itself or is stopped, or no more
greetings are on their way than they wait for. -/
theorem settles_iff (g : Gathering) {a b : Party} (hg : g.parties = [a, b])
    (hopen : g.network.IsOpen g) (hne : ∀ who ∈ g.parties, who.endpoint ≠ "") (moves : List Move) :
    (g.after moves).Settles ↔ (∃ who ∈ g.parties, ¬ who.Presentable) ∨
      (∃ e ∈ (g.after moves).engines, e.stopped = true) ∨
      (g.after moves).greetings ≤ (g.after moves).awaited := by
  obtain ⟨past, horderly, -⟩ := Orderly.recorded g moves
  have hopen' : Recorded.IsOpen g (g.recorded moves).carriage :=
    World.isOpen_run (w := g.world ⟨g.network, []⟩) hopen moves
  rw [after_eq_map_recorded, World.settles_map Recorder.isView_inner fun _ _ => rfl,
    World.settles_iff_acc]
  by_cases hparties : ∀ who ∈ g.parties, who.Presentable
  · have hnobody : ¬ ∃ who ∈ g.parties, ¬ who.Presentable :=
      fun ⟨who, hwho, hmute⟩ => hmute (hparties who hwho)
    rw [horderly.acc_iff_calm hopen' hparties hg, or_iff_right hnobody]
    exact horderly.calm_iff hg
  · obtain ⟨who, hwho, hmute⟩ : ∃ who ∈ g.parties, ¬ who.Presentable := by simpa using hparties
    have hboth : ∀ x ∈ g.parties, x = a ∨ x = b := by simp [hg]
    refine iff_of_true ?_ (.inl ⟨who, hwho, hmute⟩)
    rcases hboth who hwho with rfl | rfl
    · exact horderly.acc_of_mute hwho hboth (hne who hwho) hmute
    · exact horderly.acc_of_mute hwho (fun x hx => (hboth x hx).symm) (hne who hwho) hmute

/-- A node finds another one, loses it and finds it again before any message was delivered. -/
theorem not_settles_found_again :
    let ann : Party := ⟨⟨.replicate 16 1, rfl⟩, "ann", "a", .usual⟩
    let bob : Party := ⟨⟨.replicate 16 2, rfl⟩, "bob", "b", .usual⟩
    let g : Gathering := .bound [ann, bob] (by decide) (by decide)
    let moves : List Move := [.find 0 1 .ascending 0, .act 0 .ascending (.discover (.lost bob.id) 0) rfl,
      .find 0 1 .ascending 0]
    g.network.IsOpen g ∧ (∀ who ∈ g.parties, who.endpoint ≠ "") ∧ ¬ (g.after moves).Settles := by
  intro ann bob g moves
  have hopen : g.network.IsOpen g := Network.isOpen_bound _ _ _
  have hparties : ∀ who ∈ g.parties, who.Presentable := by
    intro who hwho
    rcases List.mem_pair.mp hwho with rfl | rfl <;> exact ⟨by decide, by decide, by decide⟩
  have hne : ∀ who ∈ g.parties, who.endpoint ≠ "" := fun who hwho => (hparties who hwho).endpoint_ne
  refine ⟨hopen, hne, ?_⟩
  rw [settles_iff g rfl hopen hne moves]
  rintro (⟨who, hwho, hmute⟩ | hrest)
  · exact hmute (hparties who hwho)
  · revert hrest
    decide +kernel

end Gathering
end PeerMesh
