import PeerMesh.Proofs.World.Sides

/-!
# No handshake is left half done

In a gathering on an open network where nobody shuts down, every greeting that is waited for is
matched by a greeting on its way, one way or the other, between the same two nodes. What a node does
on its own account keeps this, and so does every delivery, since it uses up a greeting together with
a wait for it or returns it. Once nothing is on its way nobody waits any more.
-/

namespace PeerMesh
set_option autoImplicit false

variable {g : Gathering} {me who whom : Party}

/-! ### What one delivery changes -/

namespace Recorded
variable {c c' : Recorded}

/-- The greetings on their way between two nodes, in both directions. -/
def between (c : Recorded) (a b : Party) : Nat :=
  c.greetings a.id b.endpoint + c.greetings b.id a.endpoint

theorem between_comm (c : Recorded) (a b : Party) : c.between a b = c.between b a := Nat.add_comm _ _

theorem between_eq_sides (c : Recorded) (a b : Party) (e f : Engine Network.Mailbox) :
    c.between a b = (c.side a b e).greetings + (c.side b a f).greetings := Nat.add_comm _ _

theorem Popped.greetings_other {endpoint place : String} {d : Delivery} {id : PeerId}
    (h : c.Popped endpoint d c') (hother : place = endpoint → d.routingId ≠ id.routingId) :
    c'.greetings id place = c.greetings id place := by
  rw [greetings, h.waitingFrom_other hother, greetings]

theorem Spreads.between_other (h : Spreads me c c') {a b : Party} (ha : a.id ≠ me.id)
    (hb : b.id ≠ me.id) : c'.between a b = c.between a b := by
  rw [between, between, h.greetings_other ha, h.greetings_other hb]

theorem Popped.between_other {d : Delivery} {a b : Party} (h : c.Popped me.endpoint d c')
    (ha : a.endpoint = me.endpoint → d.routingId ≠ b.id.routingId)
    (hb : b.endpoint = me.endpoint → d.routingId ≠ a.id.routingId) :
    c'.between a b = c.between a b := by
  rw [between, between, h.greetings_other ha, h.greetings_other hb]

end Recorded

/-- A delivery moves a greeting or uses it up together with a wait for it. -/
theorem Orderly.Arrival.balance {e : Engine Network.Mailbox} {c c' : Recorded} {d : Delivery}
    {m : Message} (h : Arrival g me e c d c' who m) (hs : e.Settled g.near me)
    (hrun : e.stopped = false) (hme : me.Presentable) (hwho : who.Presentable)
    (hopen : c'.IsOpen g) (hne : who.endpoint ≠ me.endpoint) (journal : Array Note) (walk : Walk)
    (now : Nat) :
    let t := (⟨e, c', journal⟩ : Station Recorded Network.Mailbox).receive walk d.routingId d.content now
    t.engine.awaits who.id + c.between me who = e.awaits who.id + t.carriage.between me who := by
  intro t
  rw [c.between_eq_sides me who e e, t.carriage.between_eq_sides me who t.engine e]
  exact (h.reacts hs hme hwho hopen hne e journal walk now).balance hrun

theorem Station.Covers.between {s t : Station Recorded Network.Mailbox} (h : Covers me whom s t)
    (hs : s.carriage.Spreads me t.carriage) (hid : whom.id ≠ me.id) :
    t.engine.awaits whom.id + s.carriage.between me whom ≤
      s.engine.awaits whom.id + t.carriage.between me whom := by
  have hback := hs.greetings_other hid me.endpoint
  unfold Covers at h
  rw [Recorded.between, Recorded.between, hback]
  omega

/-! ### Runs without a shutdown -/

/-- Every greeting that is waited for is matched by one that is on its way. -/
def World.Matched (g : Gathering) (w : World Recorded Network.Mailbox) : Prop :=
  ∀ {i j : Nat} {a b : Party} {e f : Engine Network.Mailbox}, g.parties[i]? = some a →
    g.parties[j]? = some b → a.id ≠ b.id → w.engines[i]? = some e → w.engines[j]? = some f →
    e.awaits b.id + f.awaits a.id ≤ w.carriage.between a b

theorem World.Matched.update {w : World Recorded Network.Mailbox} (h : w.Matched g) {n : Nat}
    {e e' : Engine Network.Mailbox} (hme : g.parties[n]? = some me) (he : w.engines[n]? = some e)
    {c' : Recorded} {journal : Array Note}
    (hself : ∀ {whom}, whom ∈ g.parties → whom.id ≠ me.id →
      e'.awaits whom.id + w.carriage.between me whom ≤ e.awaits whom.id + c'.between me whom)
    (hframe : ∀ {a b}, a ∈ g.parties → b ∈ g.parties → a.id ≠ me.id → b.id ≠ me.id →
      c'.between a b = w.carriage.between a b) :
    World.Matched g ⟨w.engines.set n e', c', journal⟩ := by
  have hn : n < w.engines.length := (List.getElem?_eq_some_iff.mp he).1
  intro i j a b ea eb ha hb hab hea heb
  have hamem := List.mem_of_getElem? ha
  have hbmem := List.mem_of_getElem? hb
  rcases Orderly.of_set hn hme ha hea with ⟨rfl, rfl, rfl⟩ | ⟨-, haid, hspeaker⟩
  · rcases Orderly.of_set hn hme hb heb with ⟨-, rfl, -⟩ | ⟨-, hbid, hlistener⟩
    · exact absurd rfl hab
    · have hbefore := h ha hb hab he hlistener
      have hstep := hself hbmem hbid
      dsimp only
      omega
  · rcases Orderly.of_set hn hme hb heb with ⟨rfl, rfl, rfl⟩ | ⟨-, hbid, hlistener⟩
    · have hbefore := h ha hb hab hspeaker he
      have hstep := hself hamem haid
      rw [Recorded.between_comm] at hbefore
      rw [Recorded.between_comm]
      dsimp only
      omega
    · rw [hframe hamem hbmem haid hbid]
      exact h ha hb hab hspeaker hlistener

def Move.isShutdown : Move → Bool
  | .act _ _ op _ => decide (op = .shutdown)
  | .find .. | .deliver .. => false

/-- A gathering of running nodes on an open network. -/
structure Lively (g : Gathering) (w : World Recorded Network.Mailbox) : Prop where
  isOpen : w.carriage.IsOpen g
  running : ∀ e ∈ w.engines, e.stopped = false
  matched : w.Matched g

namespace Lively
variable {past : Nat → List Event} {w : World Recorded Network.Mailbox}

theorem running_set {n : Nat} {e : Engine Network.Mailbox} (h : Lively g w)
    (hrun : e.stopped = false) : ∀ f ∈ w.engines.set n e, f.stopped = false := by
  intro f hf
  rcases List.mem_or_eq_of_mem_set hf with hf | rfl
  · exact h.running f hf
  · exact hrun

theorem perform (h : Lively g w) (ho : Orderly g past w) (walk : Walk) (n : Nat) {op : Op}
    (hr : ∀ routingId frames now, op ≠ .receive routingId frames now)
    (hnear : ∀ {id endpoint}, op.Names id endpoint → g.near id endpoint) (hop : op ≠ .shutdown) :
    Lively g (w.perform walk n op).2 := by
  have hopen := World.isOpen_perform h.isOpen walk n op
  cases he : w.engines[n]? with
  | none =>
    rw [World.perform, World.visit, he]
    exact h
  | some e =>
    obtain ⟨me, hme⟩ := ho.party he
    have hs := ho.settled hme he
    have hrun := h.running e (List.mem_of_getElem? he)
    let s : Station Recorded Network.Mailbox := ⟨e, w.carriage, w.journal⟩
    have hperformed : s.Performed g.near op (s.step walk op) :=
      Station.performed_step hs.sound walk op hnear
    have hspreads := (hperformed.speaks hs).spreads
    rw [World.perform_of_some he] at hopen ⊢
    refine ⟨hopen, h.running_set ((hperformed.stopped hs.sound hop).trans hrun), World.Matched.update h.matched hme he ?_ ?_⟩
    · intro whom hwhom hid
      have hcovers : Station.Covers me whom s (s.step walk op) :=
        hperformed.covers hs (Orderly.apart hwhom) fun _ _ _ heq => absurd heq (hr _ _ _)
      exact hcovers.between hspreads hid
    · intro a b _ _ ha hb
      exact hspreads.between_other ha hb

theorem receive (h : Lively g w) (ho : Orderly g past w) (hparties : ∀ who ∈ g.parties, who.Presentable)
    {n : Nat} {e : Engine Network.Mailbox} (hme : g.parties[n]? = some me)
    (he : w.engines[n]? = some e) {d : Delivery} {c : Recorded} {m : Message}
    (ha : Orderly.Arrival g me e w.carriage d c who m) (hopen : c.IsOpen g) (walk : Walk) (now : Nat) :
    let t := (⟨e, c, w.journal⟩ : Station Recorded Network.Mailbox).step walk
      (.receive d.routingId d.content now)
    Lively g ⟨w.engines.set n t.engine, t.carriage, t.journal⟩ := by
  have hs := ho.settled hme he
  have hmem := List.mem_of_getElem? hme
  have hrun := h.running e (List.mem_of_getElem? he)
  let s : Station Recorded Network.Mailbox := ⟨e, c, w.journal⟩
  let t := s.step walk (.receive d.routingId d.content now)
  have hperformed : s.Performed g.near (.receive d.routingId d.content now) t :=
    Station.performed_step hs.sound walk _ (ha.near now)
  have hspreads := (hperformed.speaks hs).spreads
  have hkept : ∀ {a b : Party}, a ∈ g.parties → b ∈ g.parties → b.id ≠ me.id → b.id ≠ who.id →
      c.between a b = w.carriage.between a b := by
    intro a b _ hb hbid hwho
    refine ha.popped.between_other (fun _ => ?_) fun hep => ?_
    · rw [ha.routingId]
      exact fun hrouting => hwho (PeerId.routingId_inj hrouting).symm
    · exact absurd hep (Orderly.endpoint_ne hmem hb hbid)
  have hstopped := hperformed.stopped hs.sound fun heq => by cases heq
  refine ⟨Station.keeps_step (s := s) (Recorded.IsOpen.keeps g) hopen walk _,
    h.running_set (hstopped.trans hrun), World.Matched.update h.matched hme he ?_ ?_⟩
  · intro whom hwhom hid
    by_cases hwho : whom.id = who.id
    · obtain rfl := Gathering.eq_of_id hwhom ha.sender hwho
      exact Nat.le_of_eq (ha.balance hs hrun (hparties me hmem) (hparties whom hwhom) hopen
        (Orderly.endpoint_ne hmem hwhom hid) w.journal walk now)
    · have hcovers : Station.Covers me whom s t := by
        refine hperformed.covers hs (Orderly.apart hwhom) fun _ _ _ heq hfrom => ?_
        cases heq
        rw [ha.routingId, PeerId.ofRoutingId?_routingId] at hfrom
        exact hwho (Option.some.inj hfrom).symm
      rw [← hkept hmem hwhom hid hwho]
      exact hcovers.between hspreads hid
  · intro a b ha' hb' haid hbid
    rw [hspreads.between_other haid hbid]
    exact ha.popped.between_other (fun hep => absurd hep (Orderly.endpoint_ne hmem ha' haid))
      fun hep => absurd hep (Orderly.endpoint_ne hmem hb' hbid)

theorem deliver (h : Lively g w) (ho : Orderly g past w)
    (hparties : ∀ who ∈ g.parties, who.Presentable) (walk : Walk) (n now : Nat) :
    Lively g (w.deliver walk n now).2 := by
  cases he : w.engines[n]? with
  | none =>
    rw [World.deliver, he]
    exact h
  | some e =>
    obtain ⟨me, hme⟩ := ho.party he
    have hopen : (Inboxes.receive w.carriage e.endpoint).2.IsOpen g :=
      Network.IsOpen.receive h.isOpen e.endpoint
    rcases hrec : Inboxes.receive w.carriage e.endpoint with ⟨_ | d, c⟩
    · rw [World.deliver, he]
      dsimp only
      rw [hrec, Recorded.eq_of_receive_none hrec]
      exact h
    · obtain ⟨who, m, ha⟩ := ho.arrival hme he hrec
      rw [hrec] at hopen
      rw [World.deliver_of_some he hrec]
      exact h.receive ho hparties hme he ha hopen walk now

theorem move (h : Lively g w) (ho : Orderly g past w)
    (hparties : ∀ who ∈ g.parties, who.Presentable) {m : Move} (hm : m.isShutdown = false) :
    Lively g (w.move m) := by
  cases m with
  | act n walk op hop =>
    exact h.perform ho walk n (Op.ne_receive_of_isLocal hop)
      (fun hnames => absurd hnames (Op.not_names_of_isLocal hop)) (of_decide_eq_false hm)
  | find n k walk now =>
    rw [World.move]
    cases he : w.engines[k]? with
    | none => exact h
    | some e =>
      exact h.perform ho walk n (fun _ _ _ heq => by cases heq) (ho.near_found he) fun heq => by
        cases heq
  | deliver n walk now => exact h.deliver ho hparties walk n now

theorem run (h : Lively g w) (ho : Orderly g past w)
    (hparties : ∀ who ∈ g.parties, who.Presentable) {moves : List Move}
    (hmoves : ∀ m ∈ moves, m.isShutdown = false) : Lively g (w.run moves) := by
  induction moves generalizing past w with
  | nil => exact h
  | cons m moves ih =>
    obtain ⟨hm, hrest⟩ := List.forall_mem_cons.mp hmoves
    exact ih (h.move ho hparties hm) (ho.move m) hrest

theorem start (hopen : g.network.IsOpen g) : Lively g (g.world ⟨g.network, []⟩) where
  isOpen := hopen
  running := by
    intro e he
    obtain ⟨who, -, rfl⟩ := List.mem_map.mp he
    rfl
  matched := by
    intro i j a b e f ha hb _ he hf
    have hnew : ∀ {k : Nat} {who : Party} {e : Engine Network.Mailbox}, g.parties[k]? = some who →
        (g.parties.map Party.engine)[k]? = some e → ∀ id, e.awaits id = 0 := by
      intro k who e hwho he id
      rw [List.getElem?_map, hwho] at he
      cases he
      rfl
    rw [hnew ha he, hnew hb hf]
    exact Nat.zero_le _

/-- With nothing on its way, nobody waits. -/
theorem ready (h : Lively g w) (ho : Orderly g past w)
    (hrest : ∀ e ∈ w.engines, w.carriage.inner.waiting e.endpoint = [])
    {e : Engine Network.Mailbox} (he : e ∈ w.engines) {id : PeerId} {p : Peer Network.Mailbox}
    (hp : e.roster.get? id = some p) : p.ready = true := by
  obtain ⟨i, hi⟩ := List.mem_iff_getElem?.mp he
  obtain ⟨me, hme⟩ := ho.party hi
  have hs := ho.settled hme hi
  obtain ⟨who, hwho, rfl, -⟩ := (hs.placed hp).2
  obtain ⟨j, hj⟩ := List.mem_iff_getElem?.mp hwho
  obtain ⟨f, hf⟩ := ho.engine hj
  have hid : me.id ≠ who.id := by
    rw [← hs.id]
    exact Ne.symm (hs.sound.foreign_id hp)
  have hquiet : ∀ {k : Nat} {b : Party} {x : Engine Network.Mailbox}, g.parties[k]? = some b →
      w.engines[k]? = some x → ∀ from', w.carriage.greetings from' b.endpoint = 0 := by
    intro k b x hb hx from'
    have hnone := hrest x (List.mem_of_getElem? hx)
    rw [(ho.settled hb hx).endpoint] at hnone
    rw [Recorded.greetings, Recorded.waitingFrom, hnone]
    rfl
  have hmatch := h.matched hme hj hid hi hf
  rw [Recorded.between, hquiet hme hi, hquiet hj hf, Engine.awaits_of_some hp] at hmatch
  cases hr : p.ready with
  | true => rfl
  | false => simp [hr] at hmatch

end Lively

namespace Gathering

/-- Whatever moves were made, as long as nobody shut down, no handshake is half done once every
inbox is empty. -/
theorem ready_at_rest (g : Gathering) (hopen : g.network.IsOpen g)
    (hparties : ∀ who ∈ g.parties, who.Presentable) (moves : List Move)
    (hmoves : ∀ m ∈ moves, m.isShutdown = false)
    (hrest : ∀ e ∈ (g.after moves).engines, (g.after moves).carriage.waiting e.endpoint = [])
    {e : Engine Network.Mailbox} (he : e ∈ (g.after moves).engines) {id : PeerId}
    {p : Peer Network.Mailbox} (hp : e.roster.get? id = some p) : p.ready = true := by
  obtain ⟨past, horderly, -⟩ := Orderly.recorded g moves
  rw [after_eq_map_recorded] at hrest he
  have hlively := (Lively.start hopen).run (Orderly.start g) hparties hmoves
  exact hlively.ready horderly hrest he hp

/-- One of two nodes meets the other, and both handshakes are done at rest. -/
theorem ready_at_rest_found :
    let ann : Party := ⟨⟨.replicate 16 1, rfl⟩, "ann", "a", .usual⟩
    let bob : Party := ⟨⟨.replicate 16 2, rfl⟩, "bob", "b", .usual⟩
    let g : Gathering := .bound [ann, bob] (by decide) (by decide)
    let moves : List Move := [.find 0 1 .ascending 0, .deliver 1 .ascending 0,
      .deliver 0 .ascending 0]
    (∀ who ∈ g.parties, who.Presentable) ∧ (∀ m ∈ moves, m.isShutdown = false) ∧
      (∀ e ∈ (g.after moves).engines, (g.after moves).carriage.waiting e.endpoint = []) ∧
      (g.after moves).engines.map (·.roster.keys) = [[bob.id], [ann.id]] ∧
      ∀ e ∈ (g.after moves).engines, ∀ id p, e.roster.get? id = some p → p.ready = true := by
  intro ann bob g moves
  have hopen : g.network.IsOpen g := Network.isOpen_bound _ _ _
  have hparties : ∀ who ∈ g.parties, who.Presentable := by
    intro who hwho
    rcases List.mem_pair.mp hwho with rfl | rfl <;> exact ⟨by decide, by decide, by decide⟩
  have hmoves : ∀ m ∈ moves, m.isShutdown = false := by decide
  have hrest : ∀ e ∈ (g.after moves).engines, (g.after moves).carriage.waiting e.endpoint = [] := by
    decide +kernel
  exact ⟨hparties, hmoves, hrest, by decide +kernel,
    fun e he id p hp => ready_at_rest g hopen hparties moves hmoves hrest he hp⟩

end Gathering
end PeerMesh
