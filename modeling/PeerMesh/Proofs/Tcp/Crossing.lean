import PeerMesh.Proofs.Station.Verdicts
import PeerMesh.Proofs.Tcp.Streams
import PeerMesh.Proofs.World.Sequence

/-!
# Connections that cross

A node that loses a peer and finds it again opens another connection to it, and the listener may be
handed messages of both in any order between them. They are told apart by their numbers alone. What
the listener expects next is one more than the messages it was handed since the last HELLO. This is
the next number of a connection as long as the HELLO was its own and nothing of another connection
came after it; the first message of another one is then acted on if it happens to have that number
too, and otherwise costs the speaker its place among the peers.
-/

namespace PeerMesh
set_option autoImplicit false
open Tcp (Exchange Link Mailbox)

def Op.isMessage : Op → Bool
  | .receive .. => true
  | _ => false

/-- A node that speaks over TCP, and another node that is handed what is on the streams of the first. -/
structure Crossing (κ μ : Type) where
  speaker : Station Exchange Mailbox
  listener : Station κ μ
  /-- The messages that the listener was handed, each with the number of its connection, oldest
  first. -/
  handed : List (Nat × Content)

namespace Crossing
variable {κ μ : Type}

inductive Move
  | speak (walk : Walk) (op : Op)
  /-- The writer of a connection of the speaker does something. -/
  | write (i : Nat) (act : Link.Act)
  | listen (walk : Walk) (op : Op) (hop : op.isMessage = false)
  /-- The listener is handed the next message of a connection. -/
  | hand (i : Nat) (walk : Walk) (now : Nat)

/-- What the listener was handed of one connection. -/
def of (x : Crossing κ μ) (i : Nat) : List Content :=
  (x.handed.filter fun e => decide (e.1 = i)).map (·.2)

/-- The next message of a connection, with the routing id that its stream begins with. -/
def next? (x : Crossing κ μ) (i : Nat) : Option (List UInt8 × Content) :=
  match x.speaker.carriage.links[i]? with
  | none => none
  | some l => l.written[(x.of i).length]?.map fun content => (l.routingId, content)

section
variable [Carriage κ μ]

def hand (x : Crossing κ μ) (i : Nat) (walk : Walk) (now : Nat) : Crossing κ μ :=
  match x.next? i with
  | none => x
  | some (routingId, content) =>
    { x with
      listener := x.listener.receive walk routingId content now
      handed := x.handed ++ [(i, content)] }

def move (x : Crossing κ μ) : Move → Crossing κ μ
  | .speak walk op => { x with speaker := x.speaker.step walk op }
  | .write i act =>
    { x with speaker := { x.speaker with carriage := x.speaker.carriage.edit ⟨i⟩ (·.act act) } }
  | .listen walk op _ => { x with listener := x.listener.step walk op }
  | .hand i walk now => x.hand i walk now

def run (x : Crossing κ μ) (moves : List Move) : Crossing κ μ := moves.foldl move x

end

def start (a b : Party) (capacity : Nat) (c : κ) : Crossing κ μ :=
  ⟨.new a.engine (.new capacity), .new b.engine c, []⟩

/-- The connection whose HELLO was the last one, unless a message of another one came after it. -/
def current (x : Crossing κ μ) : Option Nat :=
  x.handed.foldl (fun r e => if Wire.isHello e.2 then some e.1 else r.filter (· = e.1)) none

/-- How many messages were handed over from the last HELLO on. -/
def tally (x : Crossing κ μ) : Nat :=
  x.handed.foldl (fun n e => if Wire.isHello e.2 then 1 else n + 1) 0

/-! ### What was handed over -/

section
variable {x y : Crossing κ μ} {i : Nat} {content : Content}

theorem of_snoc (h : y.handed = x.handed ++ [(i, content)]) (j : Nat) :
    y.of j = x.of j ++ if i = j then [content] else [] := by
  rw [of, h, List.filter_append, List.map_append, of]
  by_cases hij : i = j <;> simp [hij]

theorem tally_snoc (h : y.handed = x.handed ++ [(i, content)]) :
    y.tally = if Wire.isHello content then 1 else x.tally + 1 := by
  rw [tally, h, List.foldl_append, tally]
  rfl

theorem current_snoc (h : y.handed = x.handed ++ [(i, content)]) :
    y.current = if Wire.isHello content then some i else x.current.filter (· = i) := by
  rw [current, h, List.foldl_append, current]
  rfl

end

/-! ### What every move keeps -/

/-- The streams are numbered and were read in order, and the listener expects the number after what
it was handed since the last HELLO. -/
structure Sequenced (a : Party) (x : Crossing κ μ) : Prop where
  sound : x.speaker.engine.Sound
  id : x.speaker.engine.id = a.id
  enumerates : x.speaker.Enumerates
  hearing : x.listener.engine.Sound
  read : ∀ i, x.of i = [] ∨ ∃ l, x.speaker.carriage.links[i]? = some l ∧ x.of i <+: l.written
  want : ∀ {h}, x.listener.engine.heard a.id = some h → h.want = .ofNat x.tally
  tally : ∀ {i}, x.current = some i → x.tally = (x.of i).length

namespace Sequenced
variable {a : Party} {x y : Crossing κ μ}

theorem spoken (h : x.Sequenced a) {s : Station Exchange Mailbox} (hs : s.engine.Sound)
    (hid : s.engine.id = a.id) (he : s.Enumerates) (hg : x.speaker.carriage.Grows s.carriage) :
    ({ x with speaker := s } : Crossing κ μ).Sequenced a where
  sound := hs
  id := hid
  enumerates := he
  hearing := h.hearing
  read := by
    intro i
    refine (h.read i).imp_right ?_
    rintro ⟨l, hl, hp⟩
    obtain ⟨l', hl', hp'⟩ := hg i l hl
    exact ⟨l', hl', hp.trans hp'⟩
  want := h.want
  tally := h.tally

variable [Carriage κ μ]

theorem speak (h : x.Sequenced a) (walk : Walk) (op : Op) : (x.move (.speak walk op)).Sequenced a := by
  have hm := Station.mailed_step h.sound walk op
  exact h.spoken (Station.sound_step h.sound walk op) (hm.id.trans h.id) (h.enumerates.mailed hm)
    hm.grows

theorem write (h : x.Sequenced a) (i : Nat) (act : Link.Act) :
    (x.move (.write i act)).Sequenced a := by
  let s : Station Exchange Mailbox :=
    { x.speaker with carriage := x.speaker.carriage.edit ⟨i⟩ (·.act act) }
  have hkept : s.Enumerates ∧ x.speaker.carriage.Grows s.carriage := by
    cases hl : x.speaker.carriage.links[i]? with
    | none =>
      have hlinks : s.carriage.links = x.speaker.carriage.links :=
        Exchange.links_edit_of_none hl (·.act act)
      exact ⟨h.enumerates.of_same rfl hlinks, .of_same hlinks⟩
    | some l =>
      have hlinks : s.carriage.links = x.speaker.carriage.links.set i (l.act act) :=
        Exchange.links_edit hl (·.act act)
      have ha := l.advances_act act
      exact ⟨h.enumerates.advance hl ha rfl hlinks, .of_set hl ha.written hlinks⟩
  exact h.spoken h.sound h.id hkept.1 hkept.2

theorem listen (h : x.Sequenced a) (walk : Walk) {op : Op} (hop : op.isMessage = false) :
    (x.move (.listen walk op hop)).Sequenced a := by
  let t := x.listener.step walk op
  have hperformed := Station.performed_anywhere h.hearing walk op
  have hheard : t.engine.heard a.id = none ∨ t.engine.heard a.id = x.listener.engine.heard a.id := by
    by_cases hdrain : op = .drain
    · subst hdrain
      exact .inr rfl
    · have hr : ∀ routingId frames now, op ≠ .receive routingId frames now := by
        rintro _ _ _ rfl
        cases hop
      obtain ⟨-, -, -, hheard⟩ := hperformed.murmurs h.hearing hr hdrain a.id
      exact hheard
  refine { h with hearing := hperformed.sound h.hearing, want := fun {k} hk => ?_ }
  rcases hheard with hnone | hsame
  · cases hnone.symm.trans hk
  · exact h.want (hsame.symm.trans hk)

structure Next (a : Party) (x : Crossing κ μ) (i : Nat) (routingId : List UInt8) (content : Content)
    (m : Message) : Prop where
  routingId : routingId = a.id.routingId
  decoded : Wire.decode content = .ok m
  sequence : m.sequence = .ofNat ((x.of i).length + 1)
  hello : m.isHello = true ↔ x.of i = []
  written : ∃ l, x.speaker.carriage.links[i]? = some l ∧ x.of i ++ [content] <+: l.written

omit [Carriage κ μ] in
theorem next (h : x.Sequenced a) {i : Nat} {routingId : List UInt8} {content : Content}
    (hn : x.next? i = some (routingId, content)) : ∃ m, Next a x i routingId content m := by
  unfold next? at hn
  split at hn
  · cases hn
  · rename_i l hl
    obtain ⟨content', hat, hsame⟩ := Option.map_eq_some_iff.mp hn
    obtain ⟨rfl, rfl⟩ := Prod.mk.inj hsame
    have hp : x.of i <+: l.written := by
      rcases h.read i with hnone | ⟨l₀, hl₀, hp⟩
      · exact hnone ▸ List.nil_prefix
      · obtain rfl := Option.some.inj (hl.symm.trans hl₀)
        exact hp
    have haccepted : l.written <+: l.accepted := List.prefix_append _ _
    obtain ⟨m, hm, hsequence, hhello⟩ :=
      (h.enumerates.numbered hl).of_isPrefix haccepted _ content' hat
    refine ⟨m, (h.enumerates.owner hl).trans (congrArg PeerId.routingId h.id), hm, hsequence, ?_, l, hl, ?_⟩
    · rw [hhello, List.length_eq_zero_iff]
    · obtain ⟨rest, hrest⟩ := hp
      rw [← hrest, List.getElem?_append_right (Nat.le_refl _), Nat.sub_self] at hat
      cases rest with
      | nil => cases hat
      | cons first rest =>
        obtain rfl := Option.some.inj hat
        exact ⟨rest, by rw [← hrest, List.append_assoc, List.singleton_append]⟩

omit [Carriage κ μ] in
theorem Next.sender {i : Nat} {routingId : List UInt8} {content : Content} {m : Message}
    (hn : Next a x i routingId content m) : PeerId.ofRoutingId? routingId = some a.id := by
  rw [hn.routingId, PeerId.ofRoutingId?_routingId]

theorem received (h : x.Sequenced a) (hrun : x.listener.engine.stopped = false) {i : Nat}
    {routingId : List UInt8} {content : Content} {m : Message}
    (hn : Next a x i routingId content m) (walk : Walk) (now : Nat) :
    x.listener.Received (fun _ _ => True) a.id m (x.listener.receive walk routingId content now) :=
  Station.received_receive h.hearing hrun walk hn.decoded hn.sender (fun _ => trivial) now

theorem want_receive (h : x.Sequenced a) {i : Nat} {routingId : List UInt8} {content : Content}
    {m : Message} (hn : Next a x i routingId content m) (walk : Walk) (now : Nat) {k : Heard}
    (hk : (x.listener.receive walk routingId content now).engine.heard a.id = some k) :
    k.want = .ofNat (if Wire.isHello content then 1 else x.tally + 1) := by
  cases hrun : x.listener.engine.stopped with
  | true =>
    rw [Station.receive_of_stopped hrun, Engine.heard, Engine.readyPeer?,
      (h.hearing.halted hrun).1] at hk
    cases hk
  | false =>
    rw [Wire.isHello_of_decode hn.decoded]
    rcases (h.received hrun hn walk now).heard h.hearing with hnone | hheard
    · cases hnone.symm.trans hk
    · cases hm : m.isHello with
      | true =>
        obtain ⟨n, body⟩ := m
        cases body with
        | hello hello =>
          rw [hear_hello, hk] at hheard
          obtain rfl := Option.some.inj hheard
          rfl
        | _ => cases hm
      | false =>
        rw [hear_of_not_hello hm, hk] at hheard
        obtain ⟨k₀, hk₀, rfl⟩ := Option.map_eq_some_iff.mp hheard.symm
        rw [if_neg Bool.false_ne_true, UInt16.ofNat_add, ← h.want hk₀]
        rfl

theorem hand (h : x.Sequenced a) (i : Nat) (walk : Walk) (now : Nat) :
    (x.hand i walk now).Sequenced a := by
  unfold Crossing.hand
  split
  · exact h
  · rename_i routingId content hnext
    obtain ⟨m, hn⟩ := h.next hnext
    let y : Crossing κ μ :=
      { x with
        listener := x.listener.receive walk routingId content now
        handed := x.handed ++ [(i, content)] }
    have hsound := Station.sound_step h.hearing walk (.receive routingId content now)
    refine ⟨h.sound, h.id, h.enumerates, hsound, fun j => ?_, fun hk => ?_, fun {j} hj => ?_⟩
    · rw [of_snoc (y := y) rfl]
      by_cases hij : i = j
      · subst hij
        rw [if_pos rfl]
        exact .inr hn.written
      · rw [if_neg hij, List.append_nil]
        exact h.read j
    · rw [tally_snoc (y := y) rfl]
      exact h.want_receive hn walk now hk
    · rw [current_snoc (y := y) rfl] at hj
      rw [tally_snoc (y := y) rfl, of_snoc (y := y) rfl]
      cases hhello : Wire.isHello content with
      | true =>
        rw [hhello, if_pos rfl] at hj
        obtain rfl := Option.some.inj hj
        rw [Wire.isHello_of_decode hn.decoded, hn.hello] at hhello
        rw [if_pos rfl, if_pos rfl, hhello]
        rfl
      | false =>
        rw [hhello, if_neg Bool.false_ne_true] at hj
        obtain ⟨hcurrent, hsame⟩ := Option.filter_eq_some_iff.mp hj
        obtain rfl := of_decide_eq_true hsame
        rw [if_neg Bool.false_ne_true, if_pos rfl, h.tally hcurrent, List.length_append]
        rfl

theorem move (h : x.Sequenced a) (m : Move) : (x.move m).Sequenced a := by
  cases m with
  | speak walk op => exact h.speak walk op
  | write i act => exact h.write i act
  | listen walk op hop => exact h.listen walk hop
  | hand i walk now => exact h.hand i walk now

theorem run (h : x.Sequenced a) (moves : List Move) : (x.run moves).Sequenced a := by
  induction moves generalizing x with
  | nil => exact h
  | cons m moves ih => exact ih (h.move m)

omit [Carriage κ μ] in
theorem start (a b : Party) (capacity : Nat) (c : κ) :
    (Crossing.start a b capacity c : Crossing κ μ).Sequenced a where
  sound := Engine.sound_new _ _ _ _
  id := rfl
  enumerates := .new _ capacity rfl
  hearing := Engine.sound_new _ _ _ _
  read _ := .inl rfl
  want hk := by cases hk
  tally hi := by cases hi

end Sequenced

/-! ### What comes of a message -/

/-- What comes of the next message of a connection: a HELLO shows no loss, and any other message is
acted on if it is due by its number, and shows a loss if not. A node that has not greeted is not
listened to. -/
structure Outcome [Carriage κ μ] (a : Party) (x : Crossing κ μ) (j : Nat) (m : Message)
    (y : Crossing κ μ) : Prop where
  greeted : m.isHello = true → y.listener.losses a.id = x.listener.losses a.id
  ignored : m.isHello = false → x.listener.engine.readyPeer? a.id = none →
    y.listener.engine = x.listener.engine ∧ y.listener.losses a.id = x.listener.losses a.id
  heeded : ∀ {p}, m.isHello = false → x.listener.engine.readyPeer? a.id = some p →
    (x.of j).length % 65536 = x.tally % 65536 → x.listener.Heeds a.id p m y.listener
  lost : ∀ {p}, m.isHello = false → x.listener.engine.readyPeer? a.id = some p →
    (x.of j).length % 65536 ≠ x.tally % 65536 → x.listener.Loses a.id y.listener

theorem hand_of_next {x : Crossing κ μ} [Carriage κ μ] {i : Nat} {routingId : List UInt8}
    {content : Content} (hn : x.next? i = some (routingId, content)) (walk : Walk) (now : Nat) :
    x.hand i walk now =
      { x with
        listener := x.listener.receive walk routingId content now
        handed := x.handed ++ [(i, content)] } := by
  rw [hand, hn]

namespace Sequenced
variable {a : Party} {x y : Crossing κ μ} [Carriage κ μ]

omit [Carriage κ μ] in
/-- The message is the one that the listener waits for exactly if it is due. -/
theorem due (h : x.Sequenced a) {j : Nat} {routingId : List UInt8} {content : Content} {m : Message}
    (hm : Next a x j routingId content m) {p : Peer μ}
    (hp : x.listener.engine.readyPeer? a.id = some p) :
    m.sequence = p.want + 1 ↔ (x.of j).length % 65536 = x.tally % 65536 := by
  have hwant : p.want = .ofNat x.tally := h.want (Engine.heard_of_ready hp)
  rw [hm.sequence, hwant, UInt16.ofNat_add, ← ofNat_eq_iff]
  exact UInt16.add_left_inj 1

theorem outcome (h : x.Sequenced a) {j : Nat} {routingId : List UInt8} {content : Content}
    {m : Message} (hn : x.next? j = some (routingId, content))
    (hm : Next a x j routingId content m) (walk : Walk) (now : Nat) :
    Outcome a x j m (x.hand j walk now) := by
  rw [hand_of_next hn]
  cases hrun : x.listener.engine.stopped with
  | true =>
    have hnone : x.listener.engine.readyPeer? a.id = none := by
      rw [Engine.readyPeer?, (h.hearing.halted hrun).1]
      rfl
    rw [Station.receive_of_stopped hrun]
    constructor
    case greeted => exact fun _ => rfl
    case ignored => exact fun _ _ => ⟨rfl, rfl⟩
    case heeded => exact fun _ hp => by cases hnone.symm.trans hp
    case lost => exact fun _ hp => by cases hnone.symm.trans hp
  | false =>
    have haccept : m.isHello = false →
        x.listener.receive walk routingId content now = x.listener.accept a.id m now :=
      fun hhello => Station.receive_of_not_hello hrun hm.decoded hm.sender hhello walk now
    constructor
    case greeted =>
      intro hhello
      have hfirst : m.sequence = 1 := by
        rw [hm.sequence, hm.hello.mp hhello]
        rfl
      refine Station.losses_congr ((h.received hrun hm walk now).alarms ?_) a.id
      obtain ⟨n, body⟩ := m
      cases body with
      | hello => exact hfirst
      | _ => cases hhello
    case ignored =>
      intro hhello hnone
      rw [haccept hhello]
      exact Station.unheard_accept hnone m now
    case heeded =>
      intro p hhello hp hdue
      rw [haccept hhello]
      exact Station.heeds_accept h.hearing hp hhello ((h.due hm hp).mpr hdue) now
    case lost =>
      intro p hhello hp hdue
      rw [haccept hhello]
      exact Station.loses_accept hp hhello (fun hn => hdue ((h.due hm hp).mp hn)) now

end Sequenced

/-! ### One connection at a time -/

/-- Whether a move hands over nothing of any other connection. -/
def Move.Of (i : Nat) : Move → Prop
  | .hand j .. => j = i
  | _ => True

namespace Sequenced
variable {a : Party} {x : Crossing κ μ} [Carriage κ μ] {i : Nat}

theorem undisturbed_move (h : x.Sequenced a) (hi : x.current = some i) {m : Move} (hm : m.Of i) :
    (x.move m).current = some i ∧ (x.move m).listener.losses a.id = x.listener.losses a.id := by
  cases m with
  | speak | write => exact ⟨hi, rfl⟩
  | listen walk op hop =>
    have hperformed := Station.performed_anywhere h.hearing walk op
    refine ⟨hi, Station.losses_congr (hperformed.alarms ?_) a.id⟩
    rintro _ _ _ rfl
    cases hop
  | hand j walk now =>
    obtain rfl : j = i := hm
    change (x.hand j walk now).current = some j ∧
      (x.hand j walk now).listener.losses a.id = x.listener.losses a.id
    cases hn : x.next? j with
    | none =>
      have hsame : x.hand j walk now = x := by rw [Crossing.hand, hn]
      rw [hsame]
      exact ⟨hi, rfl⟩
    | some e =>
      obtain ⟨routingId, content⟩ := e
      obtain ⟨m, hm⟩ := h.next hn
      have ho := h.outcome hn hm walk now
      constructor
      · have hhanded : (x.hand j walk now).handed = x.handed ++ [(j, content)] := by
          rw [hand_of_next hn]
        rw [current_snoc hhanded, hi]
        simp
      · cases hhello : m.isHello with
        | true => exact ho.greeted hhello
        | false =>
          cases hp : x.listener.engine.readyPeer? a.id with
          | none => exact (ho.ignored hhello hp).2
          | some p => exact (ho.heeded hhello hp (congrArg (· % 65536) (h.tally hi).symm)).losses

/-- As long as a node is handed nothing of another connection, it finds no message lost. -/
theorem undisturbed (h : x.Sequenced a) (hi : x.current = some i) {moves : List Move}
    (hmoves : ∀ m ∈ moves, m.Of i) :
    (x.run moves).current = some i ∧
      (x.run moves).listener.losses a.id = x.listener.losses a.id := by
  induction moves generalizing x with
  | nil => exact ⟨hi, rfl⟩
  | cons m moves ih =>
    obtain ⟨hm, hrest⟩ := List.forall_mem_cons.mp hmoves
    obtain ⟨hnow, hsame⟩ := h.undisturbed_move hi hm
    obtain ⟨hend, hsame'⟩ := ih (h.move m) hnow hrest
    exact ⟨hend, hsame'.trans hsame⟩

end Sequenced

/-- Whichever connection a message is from, it is acted on exactly if it is a HELLO or has the number
after those handed over since the last HELLO. That is the next number of the connection whose HELLO it
was, until something of another one comes in between, and until then no message is found lost. -/
theorem told_apart_by_number [Carriage κ μ] (a b : Party) (capacity : Nat) (c : κ)
    (moves : List Move) :
    let x := (start a b capacity c).run moves
    (∀ {j routingId content}, x.next? j = some (routingId, content) →
      ∃ m, Sequenced.Next a x j routingId content m ∧
        ∀ walk now, Outcome a x j m (x.hand j walk now)) ∧
    ∀ {i}, x.current = some i → x.tally = (x.of i).length ∧
      ∀ {after}, (∀ m ∈ after, m.Of i) → (x.run after).current = some i ∧
        (x.run after).listener.losses a.id = x.listener.losses a.id := by
  intro x
  have hx : x.Sequenced a := (Sequenced.start a b capacity c).run moves
  constructor
  · intro j routingId content hn
    obtain ⟨m, hm⟩ := hx.next hn
    exact ⟨m, hm, hx.outcome hn hm⟩
  · intro i hi
    exact ⟨hx.tally hi, hx.undisturbed hi⟩

/-- Two connections, after the HELLO of the newer one. The next message of the newer one shows no loss if
it is handed over first. If the next message of the older one comes before it, then that one is acted
on, and the message of the newer one costs the speaker its place among the peers. -/
theorem told_apart_overlapping :
    let ann : Party := ⟨⟨.replicate 16 1, rfl⟩, "ann", "tcp://127.0.0.1:5670", .usual⟩
    let bob : Party := ⟨⟨.replicate 16 2, rfl⟩, "bob", "tcp://127.0.0.1:5671", .usual⟩
    let session (i : Nat) (content : Content) : List Move := [
      .speak .ascending (.discover (.found bob.id bob.endpoint) 0),
      .speak .ascending (.whisper bob.id content), .write i (.connect true), .write i .take,
      .write i (.write true), .write i .take, .write i (.write true)]
    let moves : List Move :=
      session 0 ["old".toUTF8] ++ .speak .ascending (.discover (.lost bob.id) 0) ::
        session 1 ["new".toUTF8] ++ [.hand 0 .ascending 0, .hand 1 .ascending 0]
    let x : Crossing Exchange Mailbox := (start ann bob 8 (.new 8)).run moves
    let y : Crossing Exchange Mailbox :=
      (start ann bob 8 (.new 8)).run (moves ++ [.hand 0 .ascending 0])
    x.speaker.carriage.links.length = 2 ∧ x.current = some 1 ∧
      (x.run [.hand 1 .ascending 0]).listener.losses ann.id = x.listener.losses ann.id ∧
      (∃ p m, x.listener.engine.readyPeer? ann.id = some p ∧ m.isHello = false ∧
        x.listener.Heeds ann.id p m (x.hand 0 .ascending 0).listener) ∧
      y.listener.Loses ann.id (y.hand 1 .ascending 0).listener := by
  intro ann bob session moves
  have hx := told_apart_by_number (μ := Mailbox) ann bob 8 (Exchange.new 8) moves
  have hy := told_apart_by_number (μ := Mailbox) ann bob 8 (Exchange.new 8)
    (moves ++ [.hand 0 .ascending 0])
  have hbefore : let x : Crossing Exchange Mailbox := (start ann bob 8 (Exchange.new 8)).run moves
      x.speaker.carriage.links.length = 2 ∧ x.current = some 1 ∧ (x.next? 0).isSome ∧
        (x.listener.engine.readyPeer? ann.id).isSome ∧ x.of 0 ≠ [] ∧
        (x.of 0).length % 65536 = x.tally % 65536 := by
    decide +kernel
  have hafter : let y : Crossing Exchange Mailbox :=
        (start ann bob 8 (Exchange.new 8)).run (moves ++ [.hand 0 .ascending 0])
      (y.next? 1).isSome ∧ (y.listener.engine.readyPeer? ann.id).isSome ∧ y.of 1 ≠ [] ∧
        (y.of 1).length % 65536 ≠ y.tally % 65536 := by
    decide +kernel
  -- From here on the two states are known by these facts alone.
  generalize (start ann bob 8 (Exchange.new 8)).run moves = x at hx hbefore ⊢
  generalize (start ann bob 8 (Exchange.new 8)).run (moves ++ [.hand 0 .ascending 0]) = y
    at hy hafter ⊢
  obtain ⟨hx, hcurrent⟩ := hx
  obtain ⟨hlinks, hnewer, hnext, hready, hof, hdue⟩ := hbefore
  refine ⟨hlinks, hnewer, ?_, ?_, ?_⟩
  · have hmoves : ∀ m ∈ [Move.hand 1 .ascending 0], m.Of 1 := List.forall_mem_singleton.mpr rfl
    exact ((hcurrent hnewer).2 hmoves).2
  · obtain ⟨⟨routingId, content⟩, hnext⟩ := Option.isSome_iff_exists.mp hnext
    obtain ⟨p, hp⟩ := Option.isSome_iff_exists.mp hready
    obtain ⟨m, hm, hout⟩ := hx hnext
    have hhello : m.isHello = false := Bool.eq_false_iff.mpr fun h => hof (hm.hello.mp h)
    exact ⟨p, m, hp, hhello, (hout .ascending 0).heeded hhello hp hdue⟩
  · obtain ⟨hy, -⟩ := hy
    obtain ⟨hnext, hready, hof, hlate⟩ := hafter
    obtain ⟨⟨routingId, content⟩, hnext⟩ := Option.isSome_iff_exists.mp hnext
    obtain ⟨p, hp⟩ := Option.isSome_iff_exists.mp hready
    obtain ⟨m, hm, hout⟩ := hy hnext
    have hhello : m.isHello = false := Bool.eq_false_iff.mpr fun h => hof (hm.hello.mp h)
    exact (hout .ascending 0).lost hhello hp hlate

/-- Two connections: a message of the older one is taken for one of the newer one, and the message of
the newer one with the same number then costs its sender its place. -/
theorem older_taken_for_newer :
    let ann : Party := ⟨⟨.replicate 16 1, rfl⟩, "ann", "tcp://127.0.0.1:5670", .usual⟩
    let bob : Party := ⟨⟨.replicate 16 2, rfl⟩, "bob", "tcp://127.0.0.1:5671", .usual⟩
    let session (i : Nat) (content : Content) : List Move := [
      .speak .ascending (.discover (.found bob.id bob.endpoint) 0),
      .speak .ascending (.whisper bob.id content), .write i (.connect true), .write i .take,
      .write i (.write true), .write i .take, .write i (.write true)]
    let x : Crossing Exchange Mailbox := (start ann bob 8 (.new 8)).run <|
      session 0 ["old".toUTF8] ++ .speak .ascending (.discover (.lost bob.id) 0) ::
        session 1 ["new".toUTF8] ++ [.hand 0 .ascending 0, .hand 1 .ascending 0]
    let y := x.hand 0 .ascending 0
    let z := y.hand 1 .ascending 0
    x.speaker.carriage.links.length = 2 ∧ x.current = some 1 ∧
      y.listener.engine.events =
        x.listener.engine.events ++ [.whisper ann.id "ann" ["old".toUTF8]] ∧
      y.listener.engine.roster.keys = [ann.id] ∧ y.listener.losses ann.id = 0 ∧
      z.listener.engine.roster.keys = [] ∧ z.listener.losses ann.id = 1 := by
  decide +kernel

end Crossing
end PeerMesh
