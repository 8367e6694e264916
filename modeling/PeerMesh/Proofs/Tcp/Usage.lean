import PeerMesh.Proofs.Tcp.Links

/-!
# How a mailbox is used

The owner of a mailbox puts messages into it and lets go of it at some time. Meanwhile the writer
connects, takes message after message out of the queue and writes it, and may fail at any of this.
However the two come in between each other, what is on the stream is a front part of what the mailbox
accepted, and what the writer has not begun with is never more than the queue has room for.
-/

namespace PeerMesh.Tcp
set_option autoImplicit false

structure Usage where
  link : Link
  /-- The messages that the mailbox accepted, oldest first. -/
  accepted : List Content
  /-- The messages that the writer took out of the queue, oldest first. -/
  begun : List Content

namespace Usage

inductive Event
  | send (content : Content)
  | act (a : Link.Act)

def new (routingId : List UInt8) (address : SocketAddress) (capacity : Nat) : Usage :=
  ⟨.new routingId address capacity, [], []⟩

def send (u : Usage) (content : Content) : Usage :=
  match u.link.send content with
  | (.ok (), link) => { u with link, accepted := u.accepted ++ [content] }
  | (.error _, link) => { u with link }

theorem send_of_error {u : Usage} {content : Content} {e : SendError}
    (h : (u.link.send content).1 = .error e) : u.send content = u := by
  have hsend := u.link.sending content
  unfold send
  generalize u.link.send content = r at hsend h ⊢
  cases hsend with
  | oversized | refused => rfl
  | taken => cases h

theorem send_of_ok {u : Usage} {content : Content} (h : (u.link.send content).1 = .ok ()) :
    u.send content =
      { u with
        link := { u.link with queue := u.link.queue ++ [content] }
        accepted := u.accepted ++ [content] } := by
  have hsend := u.link.sending content
  unfold send
  generalize u.link.send content = r at hsend h ⊢
  cases hsend with
  | oversized | refused => cases h
  | taken => rfl

def act (u : Usage) (a : Link.Act) : Usage where
  link := u.link.act a
  accepted := u.accepted
  begun := u.begun ++ u.link.begins a

def step (u : Usage) : Event → Usage
  | .send content => u.send content
  | .act a => u.act a

def run (u : Usage) (events : List Event) : Usage := events.foldl step u

/-! ### Where the messages are -/

/-- What was begun with is written or in the writer's hands, and the rest waits in the queue. A
writer that ends may lose the message in its hands, and all that waits. -/
structure Accounts (u : Usage) : Prop where
  framable : ∀ m ∈ u.accepted, Framable m
  begun : ∃ held, u.begun = u.link.written ++ held ∧ (u.link.held = held ∨ u.link.writer = .ended)
  waiting : ∃ waiting, u.accepted = u.begun ++ waiting ∧ waiting.length ≤ u.link.capacity ∧
    (u.link.queue = waiting ∨ u.link.writer = .ended)

namespace Accounts
variable {u : Usage}

theorem send (h : u.Accounts) (content : Content) : (u.send content).Accounts := by
  cases hsent : (u.link.send content).1 with
  | error e =>
    rw [send_of_error hsent]
    exact h
  | ok =>
    obtain ⟨hsize, hopen, hroom⟩ := u.link.send_eq_ok.mp hsent
    obtain ⟨waiting, haccepted, -, hqueue⟩ := h.waiting
    obtain rfl := hqueue.resolve_right hopen
    rw [send_of_ok hsent]
    refine ⟨fun m hm => ?_, h.begun, _, ?_, ?_, .inl rfl⟩
    · rcases List.mem_append.mp hm with hm | hm
      · exact h.framable m hm
      · exact List.mem_singleton.mp hm ▸ hsize
    · rw [haccepted, List.append_assoc]
    · rw [List.length_append, List.length_singleton]
      exact hroom

theorem act (h : u.Accounts) (a : Link.Act) : (u.act a).Accounts := by
  have hmoves := u.link.moves_act a
  obtain ⟨held, hbegun, hheld⟩ := h.begun
  obtain ⟨waiting, haccepted, hlength, hqueue⟩ := h.waiting
  unfold Usage.act
  generalize u.link.act a = link at hmoves ⊢
  generalize u.link.begins a = began at hmoves ⊢
  cases hmoves with
  | still =>
    rw [List.append_nil]
    exact h
  | dropped =>
    rw [List.append_nil]
    exact ⟨h.framable, h.begun, h.waiting⟩
  | ended =>
    rw [List.append_nil]
    exact ⟨h.framable, ⟨held, hbegun, .inr rfl⟩, ⟨waiting, haccepted, hlength, .inr rfl⟩⟩
  | connected hw =>
    rw [List.append_nil]
    have hopen : u.link.writer ≠ .ended := by simp [hw]
    have hnone : u.link.held = [] := by rw [Link.held, hw]
    obtain rfl := hnone.symm.trans (hheld.resolve_right hopen)
    exact ⟨h.framable, ⟨[], hbegun, .inl rfl⟩,
      ⟨waiting, haccepted, hlength, .inl (hqueue.resolve_right hopen)⟩⟩
  | @written m hw =>
    rw [List.append_nil]
    have hopen : u.link.writer ≠ .ended := by simp [hw]
    have hone : u.link.held = [m] := by rw [Link.held, hw]
    obtain rfl := hone.symm.trans (hheld.resolve_right hopen)
    refine ⟨h.framable, ⟨[], ?_, .inl rfl⟩, ⟨waiting, haccepted, hlength, ?_⟩⟩
    · rw [hbegun, List.append_nil]
    · exact .inl (hqueue.resolve_right hopen)
  | @begun m rest hw hd hq =>
    have hopen : u.link.writer ≠ .ended := by simp [hw]
    have hnone : u.link.held = [] := by rw [Link.held, hw]
    obtain rfl := hnone.symm.trans (hheld.resolve_right hopen)
    obtain rfl := hq.symm.trans (hqueue.resolve_right hopen)
    refine ⟨h.framable, ⟨[m], ?_, .inl rfl⟩, ⟨rest, ?_, ?_, .inl rfl⟩⟩
    · rw [hbegun, List.append_nil]
    · rw [haccepted, List.append_assoc]
      rfl
    · exact Nat.le_trans (Nat.le_succ _) hlength

theorem run (h : u.Accounts) (events : List Event) : (u.run events).Accounts := by
  induction events generalizing u with
  | nil => exact h
  | cons event events ih =>
    cases event with
    | send content => exact ih (h.send content)
    | act a => exact ih (h.act a)

theorem new (routingId : List UInt8) (address : SocketAddress) (capacity : Nat) :
    (Usage.new routingId address capacity).Accounts where
  framable m hm := by cases hm
  begun := ⟨[], rfl, .inl rfl⟩
  waiting := ⟨[], rfl, Nat.zero_le _, .inl rfl⟩

theorem framable_of_begun (h : u.Accounts) {m : Content} (hm : m ∈ u.begun) : Framable m := by
  obtain ⟨waiting, haccepted, -⟩ := h.waiting
  exact h.framable m (haccepted ▸ List.mem_append_left waiting hm)

/-- The message in the writer's hands goes onto the stream, if the connection stands. -/
theorem act_write (h : u.Accounts) {m : Content} (hw : u.link.writer = .writing m) :
    u.link.act (.write true) = { u.link with writer := .idle, written := u.link.written ++ [m] } := by
  have hopen : u.link.writer ≠ .ended := by simp [hw]
  have hone : u.link.held = [m] := by rw [Link.held, hw]
  obtain ⟨held, hbegun, hheld⟩ := h.begun
  obtain rfl := hone.symm.trans (hheld.resolve_right hopen)
  have hsize := h.framable_of_begun (hbegun ▸ List.mem_append_right _ (List.mem_singleton_self m))
  have hok := writeMessage_eq_ok.mpr ⟨hsize, rfl⟩
  simp only [Link.act, hw, hok]

/-- The message that is next goes onto the stream, if the mailbox was not let go. -/
theorem act_take_write (h : u.Accounts) {m : Content} {rest : List Content}
    (hw : u.link.writer = .idle) (hd : u.link.dropped = false) (hq : u.link.queue = m :: rest) :
    (u.link.act .take).act (.write true) =
      { u.link with queue := rest, written := u.link.written ++ [m] } := by
  have htake : u.link.act .take = { u.link with writer := .writing m, queue := rest } := by
    simp only [Link.act, hw, hd, hq]
    rfl
  have hwrite : (u.link.act .take).act (.write true) =
      { u.link.act .take with
        writer := .idle
        written := (u.link.act .take).written ++ [m] } :=
    (h.act .take).act_write (congrArg Link.writer htake)
  rw [hwrite, htake, ← hw]

end Accounts

/-! ### What does not change -/

variable {u : Usage}

theorem capacity_step (u : Usage) (event : Event) :
    (u.step event).link.capacity = u.link.capacity := by
  cases event with
  | send content =>
    change (u.send content).link.capacity = _
    cases hsent : (u.link.send content).1 with
    | ok => rw [send_of_ok hsent]
    | error e => rw [send_of_error hsent]
  | act a =>
    have hmoves := u.link.moves_act a
    change (u.link.act a).capacity = _
    generalize u.link.act a = link at hmoves ⊢
    generalize u.link.begins a = begun at hmoves
    cases hmoves <;> rfl

theorem capacity_run (u : Usage) (events : List Event) :
    (u.run events).link.capacity = u.link.capacity := by
  induction events generalizing u with
  | nil => rfl
  | cons event events ih => exact (ih (u.step event)).trans (u.capacity_step event)

/-- A writer whose mailbox was let go begins with nothing more. -/
theorem begun_step (h : u.link.dropped = true) (event : Event) :
    (u.step event).begun = u.begun ∧ (u.step event).link.dropped = true := by
  cases event with
  | send content =>
    change (u.send content).begun = _ ∧ (u.send content).link.dropped = true
    cases hsent : (u.link.send content).1 with
    | ok =>
      rw [send_of_ok hsent]
      exact ⟨rfl, h⟩
    | error e =>
      rw [send_of_error hsent]
      exact ⟨rfl, h⟩
  | act a =>
    have hmoves := u.link.moves_act a
    change u.begun ++ u.link.begins a = _ ∧ (u.link.act a).dropped = true
    generalize u.link.act a = link at hmoves ⊢
    generalize u.link.begins a = begun at hmoves ⊢
    cases hmoves with
    | begun hw hd =>
      rw [h] at hd
      cases hd
    | dropped => exact ⟨List.append_nil _, rfl⟩
    | _ => exact ⟨List.append_nil _, h⟩

theorem begun_run (h : u.link.dropped = true) (events : List Event) :
    (u.run events).begun = u.begun := by
  induction events generalizing u with
  | nil => rfl
  | cons event events ih =>
    obtain ⟨hsame, hdropped⟩ := begun_step h event
    exact (ih hdropped).trans hsame

/-! ### Runs -/

/-- What the owner of a mailbox can rely on. -/
structure Serves (u : Usage) (capacity : Nat) : Prop where
  written : u.link.written <+: u.begun
  begun : u.begun <+: u.accepted
  backlog : u.accepted.length ≤ u.begun.length + max 1 capacity
  waiting : u.link.writer = .ended ∨ u.accepted = u.begun ++ u.link.queue
  oversized : ∀ content,
    (u.link.send content).1 = .error .oversized ↔ ∃ e, writeMessage content = .error e
  sizes : ∀ content, (∃ e, writeMessage content = .error e) ↔
    1024 < content.length ∨ ∃ frame ∈ content, 16777216 < frame.size
  refused : ∀ content e, (u.link.send content).1 = .error e → u.send content = u
  admitted : ∀ content, (u.link.send content).1 = .ok () ↔
    (∃ bytes, writeMessage content = .ok bytes) ∧ u.link.writer ≠ .ended ∧
      u.link.queue.length < max 1 capacity
  queued : ∀ content, (u.link.send content).1 = .ok () → u.send content =
    { u with
      link := { u.link with queue := u.link.queue ++ [content] }
      accepted := u.accepted ++ [content] }
  framed : ∀ m ∈ u.begun, ∃ bytes, writeMessage m = .ok bytes
  finished : ∀ m, u.link.writer = .writing m →
    u.link.act (.write true) = { u.link with writer := .idle, written := u.link.written ++ [m] }
  connected : u.link.writer = .connecting →
    u.link.act (.connect true) = { u.link with writer := .idle }
  carried : ∀ m rest, u.link.writer = .idle → u.link.dropped = false → u.link.queue = m :: rest →
    (u.link.act .take).act (.write true) =
      { u.link with queue := rest, written := u.link.written ++ [m] }
  dropped : ∀ events, ((u.act .drop).run events).begun = u.begun

theorem Accounts.serves (h : u.Accounts) {capacity : Nat} (hc : u.link.capacity = max 1 capacity) :
    u.Serves capacity where
  written := by
    obtain ⟨held, hbegun, -⟩ := h.begun
    exact ⟨held, hbegun.symm⟩
  begun := by
    obtain ⟨waiting, haccepted, -⟩ := h.waiting
    exact ⟨waiting, haccepted.symm⟩
  backlog := by
    obtain ⟨waiting, haccepted, hlength, -⟩ := h.waiting
    rw [haccepted, List.length_append]
    omega
  waiting := by
    obtain ⟨waiting, haccepted, -, hqueue | hended⟩ := h.waiting
    · exact .inr (hqueue ▸ haccepted)
    · exact .inl hended
  oversized content := by
    rw [exists_writeMessage_eq_error, u.link.send_eq_oversized]
  sizes content := by
    rw [exists_writeMessage_eq_error, not_framable]
  refused content e he := send_of_error he
  admitted content := by
    have hframed : (∃ bytes, writeMessage content = .ok bytes) ↔ Framable content := by
      simp only [writeMessage_eq_ok, exists_and_left, exists_eq, and_true]
    rw [hframed, ← hc, Link.send_eq_ok]
  queued content hok := send_of_ok hok
  framed m hm := ⟨_, writeMessage_eq_ok.mpr ⟨h.framable_of_begun hm, rfl⟩⟩
  finished m hw := h.act_write hw
  connected hw := by
    simp only [Link.act, hw]
    rfl
  carried m rest hw hd hq := h.act_take_write hw hd hq
  dropped events := by
    rw [begun_run rfl]
    change u.begun ++ u.link.begins .drop = u.begun
    rw [u.link.begins_drop, List.append_nil]

/-- Whatever the owner of a mailbox and its writer do in whatever order, the messages on the stream
are the first of those that were accepted; no more wait than there is room for; what the writer could
not frame is refused before, and what it could is accepted if there is room; a writer that is
connected puts the next message onto the stream; and once the mailbox is let go, no further message is
begun with. -/
theorem serves_run_new (routingId : List UInt8) (address : SocketAddress) (capacity : Nat)
    (events : List Event) : ((new routingId address capacity).run events).Serves capacity :=
  ((Accounts.new routingId address capacity).run events).serves (capacity_run _ events)

/-- One message is on the stream, one waits, and there is no room for another. -/
theorem serves_run_filled :
    let a : Content := ["a".toUTF8]
    let b : Content := ["b".toUTF8]
    let u := (new [1] ⟨localhost, 0, 4000⟩ 1).run
      [.act (.connect true), .send a, .act .take, .act (.write true), .send b]
    u.link.queue = [b] ∧ (u.link.send a).1 ≠ .ok () ∧
      ((u.link.act .take).act (.write true)).written = [a, b] ∧
      ((u.act .drop).run [.act .take, .act (.write true)]).begun = [a] := by
  intro a b u
  have hu : u.Serves 1 := serves_run_new [1] ⟨localhost, 0, 4000⟩ 1
    [.act (.connect true), .send a, .act .take, .act (.write true), .send b]
  have hqueue : u.link.queue = [b] := by decide +kernel
  have hwritten : u.link.written = [a] := by decide +kernel
  have hbegun : u.begun = [a] := by decide +kernel
  refine ⟨hqueue, fun hok => ?_, ?_, (hu.dropped _).trans hbegun⟩
  · obtain ⟨-, -, hroom⟩ := (hu.admitted a).mp hok
    rw [hqueue] at hroom
    exact Nat.lt_irrefl 1 hroom
  · rw [hu.carried b [] (by decide +kernel) (by decide +kernel) hqueue, hwritten]
    rfl

end Usage
end PeerMesh.Tcp
