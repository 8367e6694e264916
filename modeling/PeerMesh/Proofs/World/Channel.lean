import PeerMesh.Proofs.Network.Queues
import PeerMesh.Proofs.Wire.RoundTrip
import PeerMesh.Proofs.World.Gathering

/-!
# Channels

What waits at an endpoint comes from many nodes and is told apart by routing ids. The messages of
one of them form a channel. A mailbox that takes a message adds it to the channel of its owner and
to no other; a mailbox that does not take it loses the connection with it.
-/

namespace PeerMesh
set_option autoImplicit false

/-! ### The network -/

namespace Network

theorem waiting_receive {net net' : Network} {endpoint : String} {d : Delivery}
    (h : net.receive endpoint = (some d, net')) (place : String) :
    net.waiting place = if place = endpoint then d :: net'.waiting place else net'.waiting place := by
  unfold receive at h
  split at h
  · cases h
  · rename_i rest hwaiting
    cases h
    rw [waiting_insert]
    split
    · rename_i hplace
      rw [hplace, hwaiting]
    · rfl

theorem eq_of_receive_none {net net' : Network} {endpoint : String}
    (h : net.receive endpoint = (none, net')) : net' = net := by
  unfold receive at h
  split at h
  · cases h
    rfl
  · cases h

end Network

/-! ### The network with a record -/

/-- A network with a record of what its mailboxes took. -/
abbrev Recorded := Recorder Network Network.Mailbox

namespace Recorded
variable {c c' : Recorded} {box : Network.Mailbox} {frames : Content}

structure Took (c : Recorded) (box : Network.Mailbox) (frames : Content) (c' : Recorded) : Prop where
  waiting : ∀ endpoint, c'.inner.waiting endpoint = c.inner.waiting endpoint ++
    if endpoint = box.endpoint then [⟨box.routingId, frames⟩] else []
  taken : c'.taken = c.taken ++ [(box, frames)]

theorem took_of_send (h : Carriage.send c box frames = (.ok (), c')) : c.Took box frames c' := by
  change Recorder.send c box frames = _ at h
  unfold Recorder.send at h
  split at h
  · rename_i inner hinner
    cases h
    refine ⟨fun endpoint => ?_, rfl⟩
    change Network.send c.inner box frames = _ at hinner
    unfold Network.send at hinner
    split at hinner
    · cases hinner
    · rename_i queue hqueue
      split at hinner
      · cases hinner
      · cases hinner
        dsimp only
        rw [Network.waiting_insert]
        split
        · rename_i hplace
          rw [hplace, Network.waiting, hqueue]
          rfl
        · rw [List.append_nil]
  · cases h

/-- A message that is not taken leaves no trace, and its peer is lost. -/
theorem eq_of_send {e : SendError} (h : Carriage.send c box frames = (.error e, c')) :
    c' = c ∧ e.isFatal = true := by
  change Recorder.send c box frames = _ at h
  unfold Recorder.send at h
  split at h
  · cases h
  · rename_i e' inner hinner
    cases h
    change Network.send c.inner box frames = _ at hinner
    unfold Network.send at hinner
    split at hinner
    · cases hinner
      exact ⟨rfl, rfl⟩
    · split at hinner
      · cases hinner
        exact ⟨rfl, rfl⟩
      · cases hinner

theorem eq_of_connect {routingId : List UInt8} {endpoint : String}
    {result : Except ConnectError Network.Mailbox}
    (h : Carriage.connect c routingId endpoint = (result, c')) :
    c' = c ∧ ∀ {box}, result = .ok box → box = ⟨endpoint, routingId⟩ := by
  change (c.inner.connect routingId endpoint, c) = _ at h
  cases h
  refine ⟨rfl, fun {box} hbox => ?_⟩
  unfold Network.connect at hbox
  split at hbox
  · cases hbox
  · split at hbox
    · cases hbox
    · exact (Except.ok.inj hbox).symm

/-- The messages of one node that wait at an endpoint. -/
def waitingFrom (c : Recorded) (id : PeerId) (endpoint : String) : List Message :=
  (c.inner.waiting endpoint).filterMap fun d =>
    if d.routingId = id.routingId then (Wire.decode d.content).toOption else none

/-- The messages that the mailboxes of one node to an endpoint took. -/
def takenFrom (c : Recorded) (id : PeerId) (endpoint : String) : List Message :=
  c.taken.filterMap fun e =>
    if e.1 = ⟨endpoint, id.routingId⟩ then (Wire.decode e.2).toOption else none

/-- What there is of one direction between two nodes, given what the nodes themselves know. -/
def talk (c : Recorded) (who whom : Party) (voice : Voice) (heard : Option Heard)
    (told : List Event) : Talk :=
  ⟨voice, c.waitingFrom who.id whom.endpoint, heard, c.takenFrom who.id whom.endpoint, told⟩

namespace Took
variable {id : PeerId} {endpoint : String} {m : Message}

theorem waitingFrom_self (h : c.Took ⟨endpoint, id.routingId⟩ frames c')
    (hf : Wire.encode m = .ok frames) :
    c'.waitingFrom id endpoint = c.waitingFrom id endpoint ++ [m] := by
  rw [waitingFrom, h.waiting, if_pos rfl, List.filterMap_append, waitingFrom]
  simp [Wire.decode_of_encode hf, Except.toOption]

theorem takenFrom_self (h : c.Took ⟨endpoint, id.routingId⟩ frames c')
    (hf : Wire.encode m = .ok frames) :
    c'.takenFrom id endpoint = c.takenFrom id endpoint ++ [m] := by
  rw [takenFrom, h.taken, List.filterMap_append, takenFrom]
  simp [Wire.decode_of_encode hf, Except.toOption]

theorem waitingFrom_other (h : c.Took ⟨endpoint, id.routingId⟩ frames c') {place : String}
    (hp : place ≠ endpoint) (j : PeerId) : c'.waitingFrom j place = c.waitingFrom j place := by
  rw [waitingFrom, h.waiting, if_neg hp, List.append_nil, waitingFrom]

theorem takenFrom_other (h : c.Took ⟨endpoint, id.routingId⟩ frames c') {place : String}
    (hp : place ≠ endpoint) (j : PeerId) : c'.takenFrom j place = c.takenFrom j place := by
  have hbox : ¬ (⟨endpoint, id.routingId⟩ : Network.Mailbox) = ⟨place, j.routingId⟩ :=
    fun heq => hp (Network.Mailbox.mk.inj heq).1.symm
  rw [takenFrom, h.taken, List.filterMap_append, takenFrom]
  refine (congrArg _ (List.filterMap_cons_none ?_)).trans (List.append_nil _)
  exact if_neg hbox

end Took

structure Popped (c : Recorded) (endpoint : String) (d : Delivery) (c' : Recorded) : Prop where
  waiting : ∀ place, c.inner.waiting place =
    (if place = endpoint then [d] else []) ++ c'.inner.waiting place
  taken : c'.taken = c.taken

theorem popped_of_receive {endpoint : String} {d : Delivery}
    (h : Inboxes.receive c endpoint = (some d, c')) : c.Popped endpoint d c' := by
  rcases hinner : c.inner.receive endpoint with ⟨first, net⟩
  have hc : (first, (⟨net, c.taken⟩ : Recorded)) = (some d, c') := by
    rw [← h]
    change _ = ((c.inner.receive endpoint).1, (⟨(c.inner.receive endpoint).2, c.taken⟩ : Recorded))
    rw [hinner]
  cases hc
  refine ⟨fun place => ?_, rfl⟩
  rw [Network.waiting_receive hinner]
  split <;> rfl

theorem eq_of_receive_none {endpoint : String} (h : Inboxes.receive c endpoint = (none, c')) :
    c' = c := by
  rcases hinner : c.inner.receive endpoint with ⟨first, net⟩
  have hc : (first, (⟨net, c.taken⟩ : Recorded)) = (none, c') := by
    rw [← h]
    change _ = ((c.inner.receive endpoint).1, (⟨(c.inner.receive endpoint).2, c.taken⟩ : Recorded))
    rw [hinner]
  cases hc
  rw [Network.eq_of_receive_none hinner]

namespace Popped
variable {id : PeerId} {endpoint : String} {d : Delivery} {m : Message}

theorem takenFrom (h : c.Popped endpoint d c') (id : PeerId) (place : String) :
    c'.takenFrom id place = c.takenFrom id place := by
  rw [Recorded.takenFrom, h.taken, Recorded.takenFrom]

theorem waitingFrom_self (h : c.Popped endpoint d c') (hd : d.routingId = id.routingId)
    (hm : Wire.decode d.content = .ok m) :
    c.waitingFrom id endpoint = m :: c'.waitingFrom id endpoint := by
  rw [waitingFrom, h.waiting, if_pos rfl, List.filterMap_append, waitingFrom]
  simp [hd, hm, Except.toOption]

theorem waitingFrom_other (h : c.Popped endpoint d c') {place : String}
    (hother : place = endpoint → d.routingId ≠ id.routingId) :
    c'.waitingFrom id place = c.waitingFrom id place := by
  rw [waitingFrom, waitingFrom, h.waiting, List.filterMap_append]
  split
  · rename_i hplace
    simp [hother hplace]
  · rfl

theorem talk_self (h : c.Popped endpoint d c') {who whom : Party} (hw : whom.endpoint = endpoint)
    (hd : d.routingId = who.id.routingId) (hm : Wire.decode d.content = .ok m) (voice : Voice)
    (heard : Option Heard) (told : List Event) :
    c.talk who whom voice heard told = { c'.talk who whom voice heard told with
      waiting := m :: (c'.talk who whom voice heard told).waiting } := by
  rw [talk, talk, hw, h.waitingFrom_self hd hm, h.takenFrom]

theorem talk_other (h : c.Popped endpoint d c') {who whom : Party}
    (hother : whom.endpoint = endpoint → d.routingId ≠ who.id.routingId) (voice : Voice)
    (heard : Option Heard) (told : List Event) :
    c'.talk who whom voice heard told = c.talk who whom voice heard told := by
  rw [talk, talk, h.waitingFrom_other hother, h.takenFrom]

end Popped
end Recorded

/-! ### What one node adds -/

/-- The frames and the routing id are those of a message of one node, which gives its name and its
endpoint truly. -/
structure Party.Wrote (who : Party) (routingId : List UInt8) (frames : Content) : Prop where
  routingId : routingId = who.id.routingId
  message : ∃ m, Wire.encode m = .ok frames ∧
    ∀ h, m.body = .hello h → h.name = who.name ∧ h.endpoint = who.endpoint

namespace Recorded
variable {c c' c'' : Recorded} {who whom : Party}

/-- Whatever there is more in `c'` than in `c` is written by one node, and not to itself. -/
structure Spreads (who : Party) (c c' : Recorded) : Prop where
  waiting : ∀ endpoint, ∃ new, c'.inner.waiting endpoint = c.inner.waiting endpoint ++ new ∧
    ∀ d ∈ new, endpoint ≠ who.endpoint ∧ who.Wrote d.routingId d.content
  taken : ∃ new, c'.taken = c.taken ++ new ∧ ∀ e ∈ new, who.Wrote e.1.routingId e.2

namespace Spreads

theorem refl (who : Party) (c : Recorded) : c.Spreads who c := by
  constructor
  · intro endpoint
    exact ⟨[], (List.append_nil _).symm, fun d hd => by cases hd⟩
  · exact ⟨[], (List.append_nil _).symm, fun e he => by cases he⟩

theorem trans (h : Spreads who c c') (h' : Spreads who c' c'') : Spreads who c c'' := by
  constructor
  · intro endpoint
    obtain ⟨new, hnew, hwrote⟩ := h.waiting endpoint
    obtain ⟨new', hnew', hwrote'⟩ := h'.waiting endpoint
    refine ⟨new ++ new', by rw [hnew', hnew, List.append_assoc], fun d hd => ?_⟩
    rcases List.mem_append.mp hd with hd | hd
    · exact hwrote d hd
    · exact hwrote' d hd
  · obtain ⟨new, hnew, hwrote⟩ := h.taken
    obtain ⟨new', hnew', hwrote'⟩ := h'.taken
    refine ⟨new ++ new', by rw [hnew', hnew, List.append_assoc], fun e he => ?_⟩
    rcases List.mem_append.mp he with he | he
    · exact hwrote e he
    · exact hwrote' e he

theorem of_took {endpoint : String} {frames : Content}
    (h : c.Took ⟨endpoint, who.id.routingId⟩ frames c') (hep : endpoint ≠ who.endpoint)
    (hm : ∃ m, Wire.encode m = .ok frames ∧
      ∀ h, m.body = .hello h → h.name = who.name ∧ h.endpoint = who.endpoint) :
    Spreads who c c' := by
  have hwrote : who.Wrote who.id.routingId frames := ⟨rfl, hm⟩
  constructor
  · intro place
    refine ⟨_, h.waiting place, fun d hd => ?_⟩
    split at hd
    · rename_i hplace
      rw [List.mem_singleton.mp hd]
      exact ⟨hplace ▸ hep, hwrote⟩
    · cases hd
  · refine ⟨_, h.taken, fun e he => ?_⟩
    rw [List.mem_singleton.mp he]
    exact hwrote

theorem waiting_own (h : Spreads who c c') :
    c'.inner.waiting who.endpoint = c.inner.waiting who.endpoint := by
  obtain ⟨new, hnew, hwrote⟩ := h.waiting who.endpoint
  have hnone : new = [] :=
    List.eq_nil_iff_forall_not_mem.mpr fun d hd => (hwrote d hd).1 rfl
  rw [hnew, hnone, List.append_nil]

theorem talk_other (h : Spreads who c c') {a : Party} (ha : a.id ≠ who.id) (whom : Party)
    (voice : Voice) (heard : Option Heard) (told : List Event) :
    c'.talk a whom voice heard told = c.talk a whom voice heard told := by
  have hrouting : who.id.routingId ≠ a.id.routingId :=
    fun heq => ha (PeerId.routingId_inj heq).symm
  have hwaiting : c'.waitingFrom a.id whom.endpoint = c.waitingFrom a.id whom.endpoint := by
    obtain ⟨new, hnew, hwrote⟩ := h.waiting whom.endpoint
    rw [waitingFrom, hnew, List.filterMap_append, waitingFrom]
    refine (congrArg _ (List.filterMap_eq_nil_iff.mpr fun d hd => ?_)).trans (List.append_nil _)
    rw [if_neg]
    rw [(hwrote d hd).2.routingId]
    exact hrouting
  have htaken : c'.takenFrom a.id whom.endpoint = c.takenFrom a.id whom.endpoint := by
    obtain ⟨new, hnew, hwrote⟩ := h.taken
    rw [takenFrom, hnew, List.filterMap_append, takenFrom]
    refine (congrArg _ (List.filterMap_eq_nil_iff.mpr fun e he => ?_)).trans (List.append_nil _)
    rw [if_neg]
    intro heq
    apply hrouting
    rw [← (hwrote e he).routingId, heq]
  rw [talk, talk, hwaiting, htaken]

end Spreads

/-- Everything that waits for a node of the gathering was written by another one, and everything
that was taken was written by one of them. -/
structure Genuine (g : Gathering) (c : Recorded) : Prop where
  waiting : ∀ {whom}, whom ∈ g.parties → ∀ d ∈ c.inner.waiting whom.endpoint,
    ∃ who ∈ g.parties, who.id ≠ whom.id ∧ who.Wrote d.routingId d.content
  taken : ∀ e ∈ c.taken, ∃ who ∈ g.parties, who.Wrote e.1.routingId e.2

theorem Genuine.pop {g : Gathering} (h : c.Genuine g) {endpoint : String} {d : Delivery}
    (hp : c.Popped endpoint d c') : c'.Genuine g := by
  constructor
  · intro whom hwhom d' hd'
    apply h.waiting hwhom
    rw [hp.waiting]
    exact List.mem_append_right _ hd'
  · rw [hp.taken]
    exact h.taken

theorem Genuine.spread {g : Gathering} (h : c.Genuine g) (hwho : who ∈ g.parties)
    (hs : Spreads who c c') : c'.Genuine g := by
  constructor
  · intro whom hwhom d hd
    obtain ⟨new, hnew, hwrote⟩ := hs.waiting whom.endpoint
    rw [hnew] at hd
    rcases List.mem_append.mp hd with hd | hd
    · exact h.waiting hwhom d hd
    · obtain ⟨hep, hwrote⟩ := hwrote d hd
      refine ⟨who, hwho, fun hid => hep ?_, hwrote⟩
      exact ((Gathering.near_iff hwho (Gathering.near_of_mem hwhom)).mp hid.symm)
  · intro e he
    obtain ⟨new, hnew, hwrote⟩ := hs.taken
    rw [hnew] at he
    rcases List.mem_append.mp he with he | he
    · exact h.taken e he
    · exact ⟨who, hwho, hwrote e he⟩

end Recorded
end PeerMesh
