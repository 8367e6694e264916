import PeerMesh.Proofs.World.Answering
import PeerMesh.Proofs.World.Orderly

/-!
# Two sides

Of two nodes only a little matters to what becomes of their messages: whether they are stopped,
whether they wait for a greeting, and what lies in their inboxes. Each delivery is one of five
reactions of the node that takes the message. While it runs, greetings on their way and greetings
that are waited for change by the same amount.
-/

namespace PeerMesh
set_option autoImplicit false

/-- A node as another one sees it. -/
structure Side where
  stopped : Bool
  /-- How many greetings of the other node it waits for. -/
  awaits : Nat
  /-- What the other node said and it has not read yet. -/
  inbox : List Message

namespace Side
variable {x y x' y' : Side}

def greetings (x : Side) : Nat := x.inbox.countP Message.isHello

/-- Side `x` reads the oldest message from `y`. -/
inductive Reacts (x y : Side) : Side → Side → Prop
  | slept {m rest} (hx : x.inbox = m :: rest) (hstop : x.stopped = true) :
      Reacts x y { x with inbox := rest } y
  | used {m rest} (hx : x.inbox = m :: rest) (hrun : x.stopped = false) (hm : m.isHello = true)
      (hwait : x.awaits = 1) : Reacts x y { x with awaits := 0, inbox := rest } y
  | returned {m m' rest} (hx : x.inbox = m :: rest) (hrun : x.stopped = false)
      (hm : m.isHello = true) (hwait : x.awaits = 0) (hm' : m'.isHello = true) :
      Reacts x y { x with inbox := rest } { y with inbox := y.inbox ++ [m'] }
  | noticed {m rest} (hx : x.inbox = m :: rest) (hrun : x.stopped = false)
      (hm : m.isHello = false) : Reacts x y { x with inbox := rest } y
  | ponged {m m' rest} (hx : x.inbox = m :: rest) (hrun : x.stopped = false)
      (hm : m.body = .ping) (hm' : m'.body = .pingOk) :
      Reacts x y { x with inbox := rest } { y with inbox := y.inbox ++ [m'] }

namespace Reacts

theorem stopped (h : x.Reacts y x' y') : x'.stopped = x.stopped ∧ y'.stopped = y.stopped := by
  cases h <;> exact ⟨rfl, rfl⟩

theorem awaits_other (h : x.Reacts y x' y') : y'.awaits = y.awaits := by
  cases h <;> rfl

theorem balance (h : x.Reacts y x' y') (hrun : x.stopped = false) :
    x'.awaits + (x.greetings + y.greetings) = x.awaits + (x'.greetings + y'.greetings) := by
  cases h with
  | slept _ hstop => cases hrun.symm.trans hstop
  | used hx _ hm hwait =>
    simp [greetings, hx, hm, hwait]
    omega
  | returned hx _ hm _ hm' =>
    simp [greetings, hx, hm, hm']
    omega
  | noticed hx _ hm => simp [greetings, hx, hm]
  | ponged hx _ hm hm' => simp [greetings, hx, Message.isHello_of_ping hm, Message.isHello_of_pingOk hm']

end Reacts
end Side

namespace Recorded

/-- How `who` sees the node `me`, whose engine is `e`. -/
def side (c : Recorded) (me who : Party) (e : Engine Network.Mailbox) : Side :=
  ⟨e.stopped, e.awaits who.id, c.waitingFrom who.id me.endpoint⟩

end Recorded

/-- On an open network a delivery is a reaction of its receiver. -/
theorem Orderly.Arrival.reacts {g : Gathering} {me who : Party} {e : Engine Network.Mailbox}
    {c c' : Recorded} {d : Delivery} {m : Message} (h : Arrival g me e c d c' who m)
    (hs : e.Settled g.near me) (hme : me.Presentable) (hwho : who.Presentable)
    (hopen : c'.IsOpen g) (hne : who.endpoint ≠ me.endpoint) (f : Engine Network.Mailbox)
    (journal : Array Note) (walk : Walk) (now : Nat) :
    let t := (⟨e, c', journal⟩ : Station Recorded Network.Mailbox).receive walk d.routingId d.content now
    (c.side me who e).Reacts (c.side who me f) (t.carriage.side me who t.engine)
      (t.carriage.side who me f) := by
  intro t
  let s : Station Recorded Network.Mailbox := ⟨e, c', journal⟩
  have hbox : (c.side me who e).inbox = m :: c'.waitingFrom who.id me.endpoint :=
    h.popped.waitingFrom_self h.routingId h.decoded
  have hback : c'.waitingFrom me.id who.endpoint = c.waitingFrom me.id who.endpoint :=
    h.popped.waitingFrom_other fun hep => absurd hep hne
  have hquiet : c'.side who me f = c.side who me f := congrArg (Side.mk _ _) hback
  have hsaid : ∀ {m' frames}, Wire.encode m' = .ok frames →
      c'.Took ⟨who.endpoint, me.id.routingId⟩ frames t.carriage →
      t.carriage.side who me f =
        { c.side who me f with inbox := (c.side who me f).inbox ++ [m'] } := by
    intro m' frames hf htook
    rw [Recorded.side, htook.waitingFrom_self hf, hback]
    rfl
  have hread : ∀ {frames}, c'.Took ⟨who.endpoint, me.id.routingId⟩ frames t.carriage →
      t.carriage.waitingFrom who.id me.endpoint = c'.waitingFrom who.id me.endpoint :=
    fun htook => htook.waitingFrom_other hne.symm who.id
  cases hrun : e.stopped with
  | true =>
    have hsame : t = s := Station.receive_of_stopped (s := s) hrun walk d.routingId d.content now
    rw [hsame, hquiet]
    exact .slept hbox hrun
  | false =>
    have hstopped : t.engine.stopped = e.stopped :=
      (Station.performed_step (s := s) hs.sound walk _ (h.near now)).stopped hs.sound
        fun heq => by cases heq
    have hnext : t.engine.awaits who.id = e.awaits who.id →
        t.carriage.waitingFrom who.id me.endpoint = c'.waitingFrom who.id me.endpoint →
        t.carriage.side me who t.engine =
          { c.side me who e with inbox := c'.waitingFrom who.id me.endpoint } := by
      intro hawaits hrest
      rw [Recorded.side, hstopped, hawaits, hrest]
      rfl
    cases hm : m.isHello with
    | true =>
      obtain ⟨n, body⟩ := m
      cases body with
      | hello hello =>
        obtain rfl : n = 1 := h.fits
        have hanswered : Station.Answered me who s t :=
          Station.answered_receive (s := s) hs hrun hme hopen h.sender hwho.endpoint_ne h.other hne
            h.routingId h.decoded (h.truthful hello rfl) walk now
        cases hanswered with
        | used hwait hnow hc =>
          have hreader : t.carriage.side me who t.engine =
              { c.side me who e with awaits := 0, inbox := c'.waitingFrom who.id me.endpoint } := by
            rw [Recorded.side, hstopped, hnow, hc]
            rfl
          rw [hreader, hc, hquiet]
          exact .used hbox hrun hm hwait
        | returned hwait hnow hf hc =>
          rw [hnext (hnow.trans hwait.symm) (hread hc), hsaid hf hc]
          exact .returned hbox hrun hm hwait rfl
      | _ => cases hm
    | false =>
      obtain ⟨hawaits, hsent⟩ : Station.Noticed me who m.body s t :=
        Station.noticed_receive (s := s) hs hrun h.sender h.routingId h.decoded hm walk now
      rcases hsent with hc | ⟨hping, _, _, hf, hc⟩
      · rw [hnext hawaits (congrArg (Recorded.waitingFrom · who.id me.endpoint) hc), hc, hquiet]
        exact .noticed hbox hrun hm
      · rw [hnext hawaits (hread hc), hsaid hf hc]
        exact .ponged hbox hrun hping rfl

end PeerMesh
