import Mathlib.Data.List.DropRight
import PeerMesh.Network
import PeerMesh.Proofs.Sorted

/-!
# The queues of a network

Whatever is done to a network leaves a trace: what was asked, and what was answered. The traces tell
all there is to know. From them alone it can be read whether an inbox exists, how much it may hold and
what waits in it, namely what it was sent in its lifetime and has not given out.
-/

namespace PeerMesh
set_option autoImplicit false

namespace Network
variable {net net' : Network} {endpoint place : String}

theorem waiting_insert (net : Network) (place endpoint : String) (queue : List Delivery) :
    { net with inboxes := net.inboxes.insert place queue }.waiting endpoint =
      if endpoint = place then queue else net.waiting endpoint := by
  rw [waiting, SortedMap.get?_insert]
  split <;> rfl

theorem waiting_of_get? {queue : List Delivery} (h : net.inboxes.get? endpoint = some queue) :
    net.waiting endpoint = queue := by
  rw [waiting, h]
  rfl

theorem waiting_of_not_contains (h : net.inboxes.contains endpoint = false) :
    net.waiting endpoint = [] := by
  rw [SortedMap.contains, Option.isSome_eq_false_iff, Option.isNone_iff_eq_none] at h
  rw [waiting, h]
  rfl

/-- What becomes of a message that is put into a mailbox. -/
inductive Sending (net : Network) (box : Mailbox) (content : Content) : SendResult × Network → Prop
  | disconnected (h : net.inboxes.contains box.endpoint = false) :
    Sending net box content (.error .disconnected, net)
  | wouldBlock (h : net.inboxes.contains box.endpoint = true)
    (hfull : net.isFull box.endpoint = true) : Sending net box content (.error .wouldBlock, net)
  | taken {queue : List Delivery} (h : net.inboxes.get? box.endpoint = some queue)
    (hroom : net.isFull box.endpoint = false) : Sending net box content
      (.ok (), { net with
        inboxes := net.inboxes.insert box.endpoint (queue ++ [⟨box.routingId, content⟩]) })

theorem sending_send (net : Network) (box : Mailbox) (content : Content) :
    Sending net box content (net.send box content) := by
  unfold send
  split
  · rename_i h
    exact .disconnected (by rw [SortedMap.contains, h]; rfl)
  · rename_i queue h
    split
    · exact .wouldBlock (SortedMap.contains_eq_true.mpr ⟨queue, h⟩) ‹_›
    · rename_i hroom
      exact .taken h (Bool.eq_false_iff.mpr hroom)

/-- A message that is taken comes last at its endpoint; any other one changes nothing, and is a failure
of the mailbox. -/
theorem send_taken_or_failed (net : Network) (box : Mailbox) (content : Content) :
    (net.send box content).1 = .ok () ∧ (net.send box content).2.inboxes.get? box.endpoint =
        some (net.waiting box.endpoint ++ [⟨box.routingId, content⟩]) ∨
      (net.send box content).1.isFatal = true ∧ (net.send box content).2 = net := by
  have hsend := sending_send net box content
  generalize net.send box content = outcome at hsend ⊢
  cases hsend with
  | disconnected | wouldBlock => exact .inr ⟨rfl, rfl⟩
  | taken hqueue => exact .inl ⟨rfl, by rw [SortedMap.get?_insert, if_pos rfl, waiting_of_get? hqueue]⟩

theorem isFull_eq_false : net.isFull endpoint = false ↔
    ∀ capacity, net.capacities.get? endpoint = some capacity →
      (net.waiting endpoint).length < capacity := by
  unfold isFull
  cases net.capacities.get? endpoint with
  | none => simp
  | some capacity => simp [pending]

/-! ### Other endpoints -/

/-- Nothing changes at the endpoint. -/
structure Untouched (endpoint : String) (net net' : Network) : Prop where
  inbox : net'.inboxes.get? endpoint = net.inboxes.get? endpoint
  capacity : net'.capacities.get? endpoint = net.capacities.get? endpoint

namespace Untouched

theorem refl (endpoint : String) (net : Network) : Untouched endpoint net net := ⟨rfl, rfl⟩

theorem trans {net'' : Network} (h : Untouched endpoint net net') (h' : Untouched endpoint net' net'') :
    Untouched endpoint net net'' :=
  ⟨h'.inbox.trans h.inbox, h'.capacity.trans h.capacity⟩

theorem waiting (h : Untouched endpoint net net') : net'.waiting endpoint = net.waiting endpoint := by
  rw [Network.waiting, Network.waiting, h.inbox]

theorem contains (h : Untouched endpoint net net') :
    net'.inboxes.contains endpoint = net.inboxes.contains endpoint := by
  rw [SortedMap.contains, SortedMap.contains, h.inbox]

end Untouched

theorem untouched_insert (h : endpoint ≠ place) (net : Network) (queue : List Delivery) :
    Untouched endpoint net { net with inboxes := net.inboxes.insert place queue } :=
  ⟨by rw [SortedMap.get?_insert, if_neg h], rfl⟩

theorem untouched_send {box : Mailbox} (h : endpoint ≠ box.endpoint) (net : Network)
    (content : Content) : Untouched endpoint net (net.send box content).2 := by
  have hsend := sending_send net box content
  generalize net.send box content = outcome at hsend ⊢
  cases hsend with
  | disconnected | wouldBlock => exact .refl endpoint net
  | taken => exact untouched_insert h net _

/-! ### Traces -/

/-- Something to do with a network. -/
inductive Use
  | bind (endpoint : String)
  | unbind (endpoint : String)
  | setCapacity (endpoint : String) (capacity : Nat)
  | refuse (endpoint : String)
  | connect (routingId : List UInt8) (endpoint : String)
  | receive (endpoint : String)
  | pending (endpoint : String)
  | send (box : Mailbox) (content : Content)

/-- What was done with a network, and what came of it. -/
inductive Trace
  | bound (endpoint : String)
  | unbound (endpoint : String)
  | limited (endpoint : String) (capacity : Nat)
  | refused (endpoint : String)
  | connected (routingId : List UInt8) (endpoint : String) (result : Except ConnectError Mailbox)
  | received (endpoint : String) (delivery : Option Delivery)
  | counted (endpoint : String) (count : Nat)
  | sent (box : Mailbox) (content : Content) (result : SendResult)
  deriving DecidableEq

def use (net : Network) : Use → Trace × Network
  | .bind endpoint => (.bound endpoint, net.bind endpoint)
  | .unbind endpoint => (.unbound endpoint, net.unbind endpoint)
  | .setCapacity endpoint capacity => (.limited endpoint capacity, net.setCapacity endpoint capacity)
  | .refuse endpoint => (.refused endpoint, net.refuse endpoint)
  | .connect routingId endpoint =>
    (.connected routingId endpoint (net.connect routingId endpoint), net)
  | .receive endpoint => (.received endpoint (net.receive endpoint).1, (net.receive endpoint).2)
  | .pending endpoint => (.counted endpoint (net.pending endpoint), net)
  | .send box content => (.sent box content (net.send box content).1, (net.send box content).2)

/-- A network after some uses, from its beginning, with the traces of all of them. -/
def history (uses : List Use) : List Trace × Network :=
  uses.foldl (fun h u => (h.1 ++ [(h.2.use u).1], (h.2.use u).2)) ([], empty)

theorem history_induction {motive : List Trace → Network → Prop} (start : motive [] empty)
    (step : ∀ {past net}, motive past net → ∀ u, motive (past ++ [(net.use u).1]) (net.use u).2)
    (uses : List Use) : motive (history uses).1 (history uses).2 := by
  induction uses using List.reverseRecOn with
  | nil => exact start
  | append_singleton uses u ih =>
    rw [history, List.foldl_append]
    exact step ih u

namespace Trace

/-- The endpoint that the trace may have mattered to. -/
def place? : Trace → Option String
  | bound endpoint | unbound endpoint | limited endpoint _ | received endpoint _ => some endpoint
  | sent box _ _ => some box.endpoint
  | refused _ | connected _ _ _ | counted _ _ => none

/-- What was taken from the endpoint. -/
def taken? (endpoint : String) : Trace → Option Delivery
  | received place (some d) => if place = endpoint then some d else none
  | _ => none

/-- What arrived at the endpoint: with a content, the routing id of its mailbox. -/
def arrived? (endpoint : String) : Trace → Option Delivery
  | sent box content (.ok ()) => if box.endpoint = endpoint then some ⟨box.routingId, content⟩ else none
  | _ => none

def capacity? (endpoint : String) : Trace → Option Nat
  | limited place capacity => if place = endpoint then some capacity else none
  | _ => none

end Trace

namespace Past
variable {past : List Trace} {x : Trace}

/-- All that happened after the endpoint was last unbound. -/
def sinceUnbound (endpoint : String) (past : List Trace) : List Trace :=
  past.rtakeWhile (· ≠ .unbound endpoint)

/-- All that happened since the endpoint was last created. Being bound again is not being created. -/
def sinceCreated (endpoint : String) (past : List Trace) : List Trace :=
  (sinceUnbound endpoint past).dropWhile (· ≠ .bound endpoint)

def IsBound (endpoint : String) (past : List Trace) : Prop :=
  .bound endpoint ∈ sinceUnbound endpoint past

/-- The capacity that was set last. Unbinding the endpoint takes it away. -/
def capacity? (endpoint : String) (past : List Trace) : Option Nat :=
  (sinceUnbound endpoint past).reverse.findSome? (Trace.capacity? endpoint)

/-- All that was taken from the endpoint since it was created. -/
def taken (endpoint : String) (past : List Trace) : List Delivery :=
  (sinceCreated endpoint past).filterMap (Trace.taken? endpoint)

/-- All that arrived at the endpoint since it was created. -/
def arrived (endpoint : String) (past : List Trace) : List Delivery :=
  (sinceCreated endpoint past).filterMap (Trace.arrived? endpoint)

theorem sinceUnbound_snoc (hx : x ≠ .unbound endpoint) :
    sinceUnbound endpoint (past ++ [x]) = sinceUnbound endpoint past ++ [x] :=
  List.rtakeWhile_concat_pos _ _ x (decide_eq_true hx)

theorem sinceUnbound_unbound : sinceUnbound endpoint (past ++ [.unbound endpoint]) = [] :=
  List.rtakeWhile_concat_neg _ _ _ (by simp)

theorem sinceCreated_of_not_bound (h : ¬ IsBound endpoint past) : sinceCreated endpoint past = [] := by
  refine List.dropWhile_eq_nil_iff.mpr fun x hx => decide_eq_true ?_
  rintro rfl
  exact h hx

theorem sinceCreated_snoc (h : IsBound endpoint past) (hx : x ≠ .unbound endpoint) :
    sinceCreated endpoint (past ++ [x]) = sinceCreated endpoint past ++ [x] := by
  have hne : (sinceCreated endpoint past).isEmpty = false := by
    rw [List.isEmpty_eq_false_iff]
    intro hnil
    exact of_decide_eq_true (List.dropWhile_eq_nil_iff.mp hnil _ h) rfl
  rw [sinceCreated, sinceUnbound_snoc hx, List.dropWhile_append, ← sinceCreated, hne]
  rfl

theorem isBound_snoc (hx : x ≠ .unbound endpoint) :
    IsBound endpoint (past ++ [x]) ↔ IsBound endpoint past ∨ x = .bound endpoint := by
  rw [IsBound, sinceUnbound_snoc hx, List.mem_append, List.mem_singleton, eq_comm (a := Trace.bound _)]
  rfl

theorem taken_snoc (h : IsBound endpoint past) (hx : x ≠ .unbound endpoint) :
    taken endpoint (past ++ [x]) = taken endpoint past ++ (x.taken? endpoint).toList := by
  rw [taken, sinceCreated_snoc h hx, List.filterMap_append]
  cases hd : x.taken? endpoint <;> simp [taken, hd]

theorem arrived_snoc (h : IsBound endpoint past) (hx : x ≠ .unbound endpoint) :
    arrived endpoint (past ++ [x]) = arrived endpoint past ++ (x.arrived? endpoint).toList := by
  rw [arrived, sinceCreated_snoc h hx, List.filterMap_append]
  cases hd : x.arrived? endpoint <;> simp [arrived, hd]

theorem capacity?_snoc (hx : x ≠ .unbound endpoint) : capacity? endpoint (past ++ [x]) =
    (x.capacity? endpoint).or (capacity? endpoint past) := by
  rw [capacity?, sinceUnbound_snoc hx, List.reverse_append]
  cases hc : x.capacity? endpoint <;> simp [capacity?, hc]

end Past

/-! ### What the traces tell -/

/-- A use of a network changes nothing but at the place of its trace. -/
theorem untouched_use (net : Network) (u : Use) (h : (net.use u).1.place? ≠ some endpoint) :
    Untouched endpoint net (net.use u).2 := by
  have other : ∀ {place}, some place ≠ some endpoint → endpoint ≠ place := fun hne heq =>
    hne (congrArg some heq.symm)
  cases u with
  | bind place =>
    change Untouched endpoint net (net.bind place)
    unfold bind
    split
    · exact .refl endpoint net
    · exact untouched_insert (other h) net []
  | unbind place =>
    exact ⟨by rw [use, unbind, SortedMap.get?_erase, if_neg (other h)],
      by rw [use, unbind, SortedMap.get?_erase, if_neg (other h)]⟩
  | setCapacity place capacity =>
    exact ⟨rfl, by rw [use, setCapacity, SortedMap.get?_insert, if_neg (other h)]⟩
  | receive place =>
    change Untouched endpoint net (net.receive place).2
    unfold receive
    split
    · exact .refl endpoint net
    · exact untouched_insert (other h) net _
  | send box content => exact untouched_send (other h) net content
  | refuse | connect | pending => exact ⟨rfl, rfl⟩

/-- The state of an endpoint is what the traces tell of it. -/
structure Told (endpoint : String) (past : List Trace) (net : Network) : Prop where
  bound : net.inboxes.contains endpoint = true ↔ Past.IsBound endpoint past
  queue : Past.taken endpoint past ++ net.waiting endpoint = Past.arrived endpoint past
  capacity : net.capacities.get? endpoint = Past.capacity? endpoint past

namespace Told
variable {past : List Trace} {x : Trace}

theorem empty (endpoint : String) : Told endpoint [] .empty where
  bound := iff_of_false Bool.false_ne_true nofun
  queue := rfl
  capacity := rfl

/-- Nothing is told of an inbox that does not exist. -/
theorem nothing (hnew : ¬ Past.IsBound endpoint past) (hwaiting : net.waiting endpoint = []) :
    Past.taken endpoint past ++ net.waiting endpoint = Past.arrived endpoint past := by
  rw [hwaiting, Past.taken, Past.arrived, Past.sinceCreated_of_not_bound hnew]
  rfl

/-- What neither creates nor removes the inbox adds to what was taken or arrived. -/
theorem grow (h : Told endpoint past net) (hunbound : x ≠ .unbound endpoint)
    (hbound : x ≠ .bound endpoint)
    (hcontains : net'.inboxes.contains endpoint = net.inboxes.contains endpoint)
    (hqueue : net.inboxes.contains endpoint = true →
      (x.taken? endpoint).toList ++ net'.waiting endpoint =
        net.waiting endpoint ++ (x.arrived? endpoint).toList)
    (hcapacity : net'.capacities.get? endpoint =
      (x.capacity? endpoint).or (net.capacities.get? endpoint)) : Told endpoint (past ++ [x]) net' where
  bound := by
    rw [hcontains, h.bound, Past.isBound_snoc hunbound]
    exact (or_iff_left hbound).symm
  queue := by
    cases hold : net.inboxes.contains endpoint with
    | true =>
      have hbound := h.bound.mp hold
      rw [Past.taken_snoc hbound hunbound, Past.arrived_snoc hbound hunbound, List.append_assoc,
        hqueue hold, ← List.append_assoc, h.queue]
    | false =>
      have hnew : ¬ Past.IsBound endpoint (past ++ [x]) := by
        rw [Past.isBound_snoc hunbound, ← h.bound, hold]
        exact not_or.mpr ⟨Bool.false_ne_true, hbound⟩
      exact nothing hnew (waiting_of_not_contains (hcontains.trans hold))
  capacity := by
    rw [hcapacity, h.capacity, Past.capacity?_snoc hunbound]

/-- What happens elsewhere tells nothing of the endpoint. -/
theorem aside (h : Told endpoint past net) (hx : x.place? ≠ some endpoint)
    (hnet : Untouched endpoint net net') : Told endpoint (past ++ [x]) net' := by
  have hnone : x.taken? endpoint = none ∧ x.arrived? endpoint = none ∧ x.capacity? endpoint = none := by
    cases x with
    | received place d =>
      refine ⟨?_, rfl, rfl⟩
      cases d with
      | none => rfl
      | some d => exact if_neg fun hplace => hx (congrArg some hplace)
    | sent box content result =>
      refine ⟨rfl, ?_, rfl⟩
      cases result with
      | error => rfl
      | ok => exact if_neg fun hplace => hx (congrArg some hplace)
    | limited place capacity => exact ⟨rfl, rfl, if_neg fun hplace => hx (congrArg some hplace)⟩
    | _ => exact ⟨rfl, rfl, rfl⟩
  refine h.grow ?_ ?_ hnet.contains ?_ ?_
  · rintro rfl
    exact hx rfl
  · rintro rfl
    exact hx rfl
  · intro _
    rw [hnone.1, hnone.2.1, hnet.waiting]
    exact (List.append_nil _).symm
  · rw [hnone.2.2, hnet.capacity]
    rfl

theorem bind (h : Told endpoint past net) :
    Told endpoint (past ++ [.bound endpoint]) (net.bind endpoint) := by
  have hne : Trace.bound endpoint ≠ .unbound endpoint := nofun
  have hcapacity : Past.capacity? endpoint (past ++ [.bound endpoint]) =
      Past.capacity? endpoint past := Past.capacity?_snoc hne
  have hbound : Past.IsBound endpoint (past ++ [.bound endpoint]) :=
    (Past.isBound_snoc hne).mpr (.inr rfl)
  unfold Network.bind
  split
  · rename_i hold
    refine ⟨iff_of_true hold hbound, ?_, h.capacity.trans hcapacity.symm⟩
    have hbefore := h.bound.mp hold
    rw [Past.taken_snoc hbefore hne, Past.arrived_snoc hbefore hne]
    exact (congrArg (· ++ _) (List.append_nil _)).trans (h.queue.trans (List.append_nil _).symm)
  · rename_i hnew
    have hcreated : Past.sinceCreated endpoint (past ++ [.bound endpoint]) = [.bound endpoint] := by
      have hbefore := Past.sinceCreated_of_not_bound (mt h.bound.mpr hnew)
      rw [Past.sinceCreated] at hbefore
      rw [Past.sinceCreated, Past.sinceUnbound_snoc hne, List.dropWhile_append, hbefore]
      simp
    refine ⟨iff_of_true ?_ hbound, ?_, h.capacity.trans hcapacity.symm⟩
    · exact SortedMap.contains_eq_true.mpr ⟨[], by rw [SortedMap.get?_insert, if_pos rfl]⟩
    · rw [waiting_insert, if_pos rfl, Past.taken, Past.arrived, hcreated]
      rfl

theorem unbind : Told endpoint (past ++ [.unbound endpoint]) (net.unbind endpoint) := by
  have hgone : (net.unbind endpoint).inboxes.get? endpoint = none := by
    rw [Network.unbind, SortedMap.get?_erase, if_pos rfl]
  have hnew : ¬ Past.IsBound endpoint (past ++ [.unbound endpoint]) := by
    rw [Past.IsBound, Past.sinceUnbound_unbound]
    exact List.not_mem_nil
  have hcontains : (net.unbind endpoint).inboxes.contains endpoint = false := by
    rw [SortedMap.contains, hgone]
    rfl
  refine ⟨iff_of_false (by simp [hcontains]) hnew,
    nothing hnew (waiting_of_not_contains hcontains), ?_⟩
  rw [Past.capacity?, Past.sinceUnbound_unbound, Network.unbind, SortedMap.get?_erase, if_pos rfl]
  rfl

theorem setCapacity (h : Told endpoint past net) (capacity : Nat) :
    Told endpoint (past ++ [.limited endpoint capacity]) (net.setCapacity endpoint capacity) := by
  refine h.grow nofun nofun rfl (fun _ => (List.append_nil _).symm) ?_
  rw [Network.setCapacity, SortedMap.get?_insert, if_pos rfl, Trace.capacity?, if_pos rfl]
  rfl

theorem receive (h : Told endpoint past net) :
    Told endpoint (past ++ [.received endpoint (net.receive endpoint).1]) (net.receive endpoint).2 := by
  unfold Network.receive
  split
  · exact h.grow nofun nofun rfl (fun _ => (List.append_nil _).symm) rfl
  · rename_i d rest hwaiting
    have hold : net.inboxes.contains endpoint = true := by
      rw [← Bool.not_eq_false]
      intro hnew
      cases hwaiting.symm.trans (waiting_of_not_contains hnew)
    refine h.grow nofun nofun ?_ (fun _ => ?_) rfl
    · rw [hold]
      exact SortedMap.contains_eq_true.mpr ⟨rest, by rw [SortedMap.get?_insert, if_pos rfl]⟩
    · rw [waiting_insert, if_pos rfl, hwaiting, Trace.taken?, if_pos rfl]
      exact (List.append_nil _).symm

theorem send (box : Mailbox) (h : Told box.endpoint past net) (content : Content) :
    Told box.endpoint (past ++ [.sent box content (net.send box content).1])
      (net.send box content).2 := by
  have hsend := sending_send net box content
  generalize net.send box content = outcome at hsend ⊢
  cases hsend with
  | disconnected | wouldBlock =>
    exact h.grow nofun nofun rfl (fun _ => (List.append_nil _).symm) rfl
  | @taken queue hqueue =>
    refine h.grow nofun nofun ?_ (fun _ => ?_) rfl
    · rw [SortedMap.contains_eq_true.mpr ⟨queue, hqueue⟩]
      exact SortedMap.contains_eq_true.mpr ⟨_, by rw [SortedMap.get?_insert, if_pos rfl]⟩
    · rw [waiting_insert, if_pos rfl, waiting_of_get? hqueue, Trace.arrived?, if_pos rfl]
      rfl

/-- One use of a network, at the endpoint or elsewhere. -/
theorem use (h : Told endpoint past net) (u : Use) :
    Told endpoint (past ++ [(net.use u).1]) (net.use u).2 := by
  by_cases hplace : (net.use u).1.place? = some endpoint
  · cases u with
    | refuse | connect | pending => cases hplace
    | bind =>
      obtain rfl := Option.some.inj hplace
      exact h.bind
    | unbind =>
      obtain rfl := Option.some.inj hplace
      exact unbind
    | setCapacity =>
      obtain rfl := Option.some.inj hplace
      exact h.setCapacity _
    | receive =>
      obtain rfl := Option.some.inj hplace
      exact h.receive
    | send box content =>
      obtain rfl := Option.some.inj hplace
      exact h.send box content
  · exact h.aside hplace (untouched_use net u hplace)

end Told

/-- Whatever was done to a network, the queue of every endpoint is told by the traces. -/
theorem told_history (uses : List Use) (endpoint : String) :
    Told endpoint (history uses).1 (history uses).2 :=
  history_induction (Told.empty endpoint) Told.use uses

theorem refused_use {past : List Trace}
    (h : net.refused.contains endpoint = true ↔ .refused endpoint ∈ past) (u : Use) :
    (net.use u).2.refused.contains endpoint = true ↔
      .refused endpoint ∈ past ++ [(net.use u).1] := by
  rw [List.mem_append, List.mem_singleton, ← h]
  cases u with
  | refuse place =>
    rw [use, refuse, SortedSet.contains_insert, Bool.or_eq_true, decide_eq_true_eq,
      Trace.refused.injEq, or_comm]
  | bind place =>
    rw [use, bind]
    split <;> exact (or_iff_left fun h => by cases h).symm
  | receive place =>
    rw [use, receive]
    split <;> exact (or_iff_left fun h => by cases h).symm
  | send box content =>
    have hsend := sending_send net box content
    rw [use]
    generalize net.send box content = outcome at hsend ⊢
    cases hsend <;> exact (or_iff_left fun h => by cases h).symm
  | unbind | setCapacity | connect | pending => exact (or_iff_left fun h => by cases h).symm

theorem refused_history (uses : List Use) (endpoint : String) :
    (history uses).2.refused.contains endpoint = true ↔ .refused endpoint ∈ (history uses).1 :=
  history_induction (motive := fun past net =>
    net.refused.contains endpoint = true ↔ .refused endpoint ∈ past)
    (iff_of_false Bool.false_ne_true List.not_mem_nil) refused_use uses

/-! ### What is answered -/

theorem connect_eq_ok {routingId : List UInt8} {box : Mailbox} :
    net.connect routingId endpoint = .ok box ↔ box = ⟨endpoint, routingId⟩ ∧ endpoint ≠ "" ∧
      net.inboxes.contains endpoint = true ∧ ¬ net.refused.contains endpoint = true := by
  unfold connect
  split
  · rename_i hempty
    refine iff_of_false (fun h => by cases h) fun h => h.2.1 ?_
    simpa using hempty
  · rename_i hne
    split
    · rename_i hclosed
      refine iff_of_false (fun h => by cases h) fun h => ?_
      simp [h.2.2.1, h.2.2.2] at hclosed
    · rename_i hopen
      rw [Bool.not_eq_true, Bool.or_eq_false_iff, Bool.not_eq_false'] at hopen
      rw [Except.ok.injEq, eq_comm]
      refine (and_iff_left ⟨?_, hopen.2, ?_⟩).symm
      · rintro rfl
        exact hne rfl
      · rw [hopen.1]
        exact Bool.false_ne_true

theorem bind_eq_self : net.bind endpoint = net ↔ net.inboxes.contains endpoint = true := by
  unfold bind
  split
  · rename_i hold
    exact iff_of_true rfl hold
  · rename_i hnew
    refine iff_of_false (fun h => hnew ?_) hnew
    rw [← h]
    exact SortedMap.contains_eq_true.mpr ⟨[], by rw [SortedMap.get?_insert, if_pos rfl]⟩

theorem receive_eq (net : Network) (endpoint : String) :
    (net.receive endpoint).1 = (net.waiting endpoint).head? ∧
      (net.receive endpoint).2.waiting endpoint = (net.waiting endpoint).tail := by
  unfold receive
  split
  · rename_i hnil
    rw [hnil]
    exact ⟨rfl, rfl⟩
  · rename_i d rest hwaiting
    rw [hwaiting, waiting_insert, if_pos rfl]
    exact ⟨rfl, rfl⟩

/-- A mailbox answers by whether its inbox exists and has room, and a message that is not taken leaves
no trace in the network. -/
theorem send_eq_iff (net : Network) (box : Mailbox) (content : Content) :
    ((net.send box content).1 = .ok () ↔ net.inboxes.contains box.endpoint = true ∧
      net.isFull box.endpoint = false) ∧
    ((net.send box content).1 = .error .disconnected ↔
      ¬ net.inboxes.contains box.endpoint = true) ∧
    ((net.send box content).1 = .error .wouldBlock ↔ net.inboxes.contains box.endpoint = true ∧
      net.isFull box.endpoint = true) ∧
    ((net.send box content).1 = .ok () ∨ (net.send box content).2 = net) := by
  have hsend := sending_send net box content
  generalize net.send box content = outcome at hsend ⊢
  cases hsend with
  | disconnected h => simp [h]
  | wouldBlock h hfull => simp [h, hfull]
  | taken h hroom => simp [SortedMap.contains, h, hroom]

/-- The network is a set of queues. Whatever was done to it, what was taken from an endpoint since it
was last created, and then what waits there, is what mailboxes were given for it since then, in that
order and each with the routing id of its mailbox. What is answered next is told by the same traces. -/
theorem queues_history (uses : List Use) :
    let past := (history uses).1
    let net := (history uses).2
    (∀ endpoint,
      Past.taken endpoint past ++ net.waiting endpoint = Past.arrived endpoint past ∧
      (net.receive endpoint).1 = (net.waiting endpoint).head? ∧
      (net.receive endpoint).2.waiting endpoint = (net.waiting endpoint).tail ∧
      net.pending endpoint = (net.waiting endpoint).length ∧
      (net.bind endpoint = net ↔ Past.IsBound endpoint past)) ∧
    (∀ box content,
      ((net.send box content).1 = .ok () ↔ Past.IsBound box.endpoint past ∧
        ∀ capacity, Past.capacity? box.endpoint past = some capacity →
          (net.waiting box.endpoint).length < capacity) ∧
      ((net.send box content).1 = .error .disconnected ↔ ¬ Past.IsBound box.endpoint past) ∧
      ((net.send box content).1 = .error .wouldBlock ↔ Past.IsBound box.endpoint past ∧
        ∃ capacity, Past.capacity? box.endpoint past = some capacity ∧
          capacity ≤ (net.waiting box.endpoint).length) ∧
      ((net.send box content).1 = .ok () ∨ (net.send box content).2 = net)) ∧
    ∀ routingId endpoint,
      (∀ box, net.connect routingId endpoint = .ok box ↔ box = ⟨endpoint, routingId⟩ ∧
        endpoint ≠ "" ∧ Past.IsBound endpoint past ∧ .refused endpoint ∉ past) ∧
      (net.use (.connect routingId endpoint)).2 = net := by
  intro past net
  have htold : ∀ endpoint, Told endpoint past net := told_history uses
  refine ⟨fun endpoint => ?_, fun box content => ?_, fun routingId endpoint => ⟨fun box => ?_, rfl⟩⟩
  · have hreceive := receive_eq net endpoint
    exact ⟨(htold endpoint).queue, hreceive.1, hreceive.2, rfl,
      bind_eq_self.trans (htold endpoint).bound⟩
  · have hbox := htold box.endpoint
    have hsend := send_eq_iff net box content
    have hroom : net.isFull box.endpoint = false ↔ ∀ capacity,
        Past.capacity? box.endpoint past = some capacity →
          (net.waiting box.endpoint).length < capacity := by
      rw [isFull_eq_false, hbox.capacity]
    have hfull : net.isFull box.endpoint = true ↔ ∃ capacity,
        Past.capacity? box.endpoint past = some capacity ∧
          capacity ≤ (net.waiting box.endpoint).length := by
      rw [← Bool.not_eq_false, hroom]
      simp only [not_forall, Nat.not_lt, exists_prop]
    exact ⟨hsend.1.trans (and_congr hbox.bound hroom), hsend.2.1.trans (not_congr hbox.bound),
      hsend.2.2.1.trans (and_congr hbox.bound hfull), hsend.2.2.2⟩
  · rw [connect_eq_ok, (htold endpoint).bound, refused_history uses endpoint]

/-- Binding an inbox that is there begins nothing, and unbinding it is an end. -/
example :
    let h := history [.bind "a", .send ⟨"a", [1]⟩ [], .bind "a", .send ⟨"a", [2]⟩ [], .receive "a"]
    let h' := history [.bind "a", .send ⟨"a", [1]⟩ [], .unbind "a", .bind "a", .send ⟨"a", [2]⟩ []]
    Past.arrived "a" h.1 = [⟨[1], []⟩, ⟨[2], []⟩] ∧ h.2.waiting "a" = [⟨[2], []⟩] ∧
      Past.arrived "a" h'.1 = [⟨[2], []⟩] ∧ h'.2.waiting "a" = [⟨[2], []⟩] := by
  decide +kernel

end Network
end PeerMesh
