import PeerMesh.Proofs.World.Announcing

/-!
# Open networks

On an open network every node can be connected to, and its inbox takes whatever is sent there. No
operation closes a network, since it can do nothing to one but connect and send. A node that can
introduce itself is therefore never kept from greeting another one.
-/

namespace PeerMesh
set_option autoImplicit false

/-! ### What every operation keeps -/

section
variable {κ μ : Type} [Carriage κ μ]

/-- Connecting and sending keep what is known of a carriage. -/
structure Carriage.Keeps (K : κ → Prop) : Prop where
  connect : ∀ {c}, K c → ∀ routingId endpoint, K (Carriage.connect c routingId endpoint).2
  send : ∀ {c}, K c → ∀ (box : μ) content, K (Carriage.send c box content).2

/-- The carriages of which something is known make a carriage of their own. -/
@[reducible] def Carriage.Keeps.restrict {K : κ → Prop} (hK : Keeps K) : Carriage { c // K c } μ where
  connect c routingId endpoint := ((Carriage.connect c.1 routingId endpoint).1,
    ⟨(Carriage.connect c.1 routingId endpoint).2, hK.connect c.2 routingId endpoint⟩)
  send c box content := ((Carriage.send c.1 box content).1,
    ⟨(Carriage.send c.1 box content).2, hK.send c.2 box content⟩)

theorem Station.keeps_step {K : κ → Prop} (hK : Carriage.Keeps K) {s : Station κ μ}
    (hs : K s.carriage) (walk : Walk) (op : Op) : K (s.step walk op).carriage := by
  let _ := hK.restrict
  have hview : IsView (Subtype.val : { c // K c } → κ) := ⟨fun _ _ _ => rfl, fun _ _ _ => rfl⟩
  have hmap := perform_map hview walk ⟨s.engine, ⟨s.carriage, hs⟩, s.journal⟩ op
  have hstep : s.step walk op = Station.map Subtype.val
      (perform walk ⟨s.engine, ⟨s.carriage, hs⟩, s.journal⟩ op).2 := hmap
  rw [hstep]
  exact Subtype.property _

end

/-! ### Networks -/

namespace Network

/-- Whoever is in the gathering can be reached. -/
structure IsOpen (g : Gathering) (net : Network) : Prop where
  bound : ∀ {who}, who ∈ g.parties → net.inboxes.contains who.endpoint = true
  unlimited : net.capacities = .empty
  welcoming : net.refused = .empty

theorem contains_insert (inboxes : SortedMap String (List Delivery)) (place endpoint : String)
    (queue : List Delivery) (h : inboxes.contains endpoint = true) :
    (inboxes.insert place queue).contains endpoint = true := by
  rw [SortedMap.contains, SortedMap.get?_insert]
  split
  · rfl
  · exact h

namespace IsOpen
variable {g : Gathering} {net : Network} {who : Party}

theorem fill (h : net.IsOpen g) (place : String) (queue : List Delivery) :
    { net with inboxes := net.inboxes.insert place queue }.IsOpen g :=
  ⟨fun hwho => contains_insert _ _ _ _ (h.bound hwho), h.unlimited, h.welcoming⟩

theorem connect (h : net.IsOpen g) (hwho : who ∈ g.parties) (hne : who.endpoint ≠ "")
    (routingId : List UInt8) :
    net.connect routingId who.endpoint = .ok ⟨who.endpoint, routingId⟩ := by
  have hempty : who.endpoint.isEmpty = false := by simpa using hne
  have hrefused : net.refused.contains who.endpoint = false := by
    rw [h.welcoming]
    rfl
  rw [Network.connect, hempty, hrefused, h.bound hwho]
  rfl

theorem send (h : net.IsOpen g) (hwho : who ∈ g.parties) (routingId : List UInt8)
    (frames : Content) : (net.send ⟨who.endpoint, routingId⟩ frames).1 = .ok () := by
  obtain ⟨queue, hqueue⟩ := SortedMap.contains_eq_true.mp (h.bound hwho)
  have hroom : net.isFull who.endpoint = false := by
    rw [isFull, h.unlimited, SortedMap.get?_empty]
  rw [Network.send, hqueue]
  dsimp only
  rw [hroom, if_neg Bool.false_ne_true]

theorem keeps (g : Gathering) : Carriage.Keeps (IsOpen g) where
  connect h _ _ := h
  send := by
    intro net h box frames
    change (Network.send net box frames).2.IsOpen g
    unfold Network.send
    split
    · exact h
    · split
      · exact h
      · exact h.fill box.endpoint _

theorem receive (h : net.IsOpen g) (endpoint : String) : (net.receive endpoint).2.IsOpen g := by
  unfold Network.receive
  split
  · exact h
  · exact h.fill endpoint _

end IsOpen

theorem contains_bind (net : Network) (place endpoint : String) :
    (net.bind place).inboxes.contains endpoint =
      (decide (endpoint = place) || net.inboxes.contains endpoint) := by
  unfold bind
  split
  · by_cases hplace : endpoint = place
    · simp_all
    · simp [hplace]
  · rw [SortedMap.contains, SortedMap.get?_insert]
    by_cases hplace : endpoint = place
    · simp [hplace]
    · simp [hplace, SortedMap.contains]

theorem bind_rest (net : Network) (place : String) :
    (net.bind place).capacities = net.capacities ∧ (net.bind place).refused = net.refused := by
  unfold bind
  split <;> exact ⟨rfl, rfl⟩

theorem foldl_bind_rest (parties : List Party) (net : Network) :
    let net' := parties.foldl (fun net who => net.bind who.endpoint) net
    net'.capacities = net.capacities ∧ net'.refused = net.refused := by
  induction parties generalizing net with
  | nil => exact ⟨rfl, rfl⟩
  | cons who parties ih =>
    have hbind := net.bind_rest who.endpoint
    have hrest := ih (net.bind who.endpoint)
    exact ⟨hrest.1.trans hbind.1, hrest.2.trans hbind.2⟩

theorem contains_foldl_bind (parties : List Party) (net : Network) {endpoint : String}
    (h : endpoint ∈ parties.map Party.endpoint ∨ net.inboxes.contains endpoint = true) :
    (parties.foldl (fun net who => net.bind who.endpoint) net).inboxes.contains endpoint = true := by
  induction parties generalizing net with
  | nil => exact h.resolve_left (List.not_mem_nil)
  | cons who parties ih =>
    apply ih
    rw [contains_bind]
    rcases h with h | h
    · rcases List.mem_cons.mp h with h | h
      · simp [h]
      · exact .inl h
    · simp [h]

theorem isOpen_bound (parties : List Party) (ids_apart : (parties.map Party.id).Nodup)
    (endpoints_apart : (parties.map Party.endpoint).Nodup) :
    (Gathering.bound parties ids_apart endpoints_apart).network.IsOpen
      (.bound parties ids_apart endpoints_apart) where
  bound hwho := contains_foldl_bind parties .empty (.inl (List.mem_map_of_mem hwho))
  unlimited := (foldl_bind_rest parties .empty).1
  welcoming := (foldl_bind_rest parties .empty).2

end Network

/-! ### Introducing oneself -/

/-- A node that can be connected to, and that can say so in a greeting. -/
structure Party.Presentable (who : Party) : Prop where
  endpoint_ne : who.endpoint ≠ ""
  endpoint_bytes : who.endpoint.utf8ByteSize ≤ Wire.limit
  name_bytes : who.name.utf8ByteSize ≤ Wire.limit

theorem Engine.Settled.encode_hello {near : PeerId → String → Prop} {who : Party}
    {e : Engine Network.Mailbox} (hs : e.Settled near who) (hwho : who.Presentable) :
    ∃ frames, Wire.encode ⟨1, .hello e.hello⟩ = .ok frames := by
  obtain ⟨hjoined, hgroup, hheaders, hheader⟩ := hs.sound.presentable
  apply Wire.encode_hello
  · change e.endpoint.utf8ByteSize ≤ Wire.limit
    rw [hs.endpoint]
    exact hwho.endpoint_bytes
  · change e.name.utf8ByteSize ≤ Wire.limit
    rw [hs.name]
    exact hwho.name_bytes
  · rw [Engine.hello, SortedSet.toList, SortedMap.keys, List.length_map]
    exact hjoined
  · exact fun group hmem => hgroup (SortedSet.mem_toList.mp hmem)
  · exact hheaders
  · exact hheader

namespace Recorded

def IsOpen (g : Gathering) (c : Recorded) : Prop := c.inner.IsOpen g

theorem IsOpen.keeps (g : Gathering) : Carriage.Keeps (IsOpen g) where
  connect h _ _ := h
  send := by
    intro c h box frames
    have hsend := Recorder.isView_inner.send c box frames
    have hkept := (Network.IsOpen.keeps g).send h box frames
    rw [hsend] at hkept
    exact hkept

end Recorded

namespace World
variable {g : Gathering} {w : World Recorded Network.Mailbox}

theorem isOpen_perform (h : w.carriage.IsOpen g) (walk : Walk) (n : Nat) (op : Op) :
    (w.perform walk n op).2.carriage.IsOpen g := by
  cases he : w.engines[n]? with
  | none =>
    rw [perform, visit, he]
    exact h
  | some e =>
    rw [perform_of_some he]
    exact Station.keeps_step (s := ⟨e, w.carriage, w.journal⟩) (Recorded.IsOpen.keeps g) h walk op

theorem isOpen_deliver (h : w.carriage.IsOpen g) (walk : Walk) (n now : Nat) :
    (w.deliver walk n now).2.carriage.IsOpen g := by
  cases he : w.engines[n]? with
  | none =>
    rw [deliver, he]
    exact h
  | some e =>
    have hrest : (Inboxes.receive w.carriage e.endpoint).2.IsOpen g :=
      Network.IsOpen.receive h e.endpoint
    rcases hrec : Inboxes.receive w.carriage e.endpoint with ⟨_ | d, c⟩
    · rw [hrec] at hrest
      rw [deliver, he]
      dsimp only
      rw [hrec]
      exact hrest
    · rw [hrec] at hrest
      rw [deliver_of_some he hrec]
      exact Station.keeps_step (s := ⟨e, c, w.journal⟩) (Recorded.IsOpen.keeps g) hrest walk _

theorem isOpen_move (h : w.carriage.IsOpen g) (m : Move) : (w.move m).carriage.IsOpen g := by
  cases m with
  | act n walk op => exact isOpen_perform h walk n op
  | find n k walk now =>
    rw [move]
    split
    · exact h
    · exact isOpen_perform h walk n _
  | deliver n walk now => exact isOpen_deliver h walk n now

theorem isOpen_run (h : w.carriage.IsOpen g) (moves : List Move) :
    (w.run moves).carriage.IsOpen g := by
  induction moves generalizing w with
  | nil => exact h
  | cons m moves ih => exact ih (isOpen_move h m)

end World

namespace Station
variable {g : Gathering} {who whom : Party} {s : Station Recorded Network.Mailbox}

/-- On an open network a node that can introduce itself meets whom it wants. -/
theorem meet_of_isOpen (hs : s.engine.Settled g.near who) (hwho : who.Presentable)
    (hopen : s.carriage.IsOpen g) (hwhom : whom ∈ g.parties) (hne : whom.endpoint ≠ "")
    (id : PeerId) (now : Nat) :
    let t := (s.meet id whom.endpoint now).2
    (s.meet id whom.endpoint now).1 = true ∧
      (∃ frames, Wire.encode ⟨1, .hello s.engine.hello⟩ = .ok frames ∧
        s.carriage.Took ⟨whom.endpoint, who.id.routingId⟩ frames t.carriage) ∧
      ∃ p, t.engine = s.engine.putPeer p ∧ p.id = id ∧ p.ready = false := by
  have hconnect : ∀ {result c}, Carriage.connect s.carriage s.engine.id.routingId whom.endpoint =
      (result, c) → result = .ok ⟨whom.endpoint, who.id.routingId⟩ ∧ c = s.carriage := by
    intro result c hc
    change (s.carriage.inner.connect s.engine.id.routingId whom.endpoint, s.carriage) = _ at hc
    rw [hopen.connect hwhom hne, hs.id] at hc
    cases hc
    exact ⟨rfl, rfl⟩
  have hsend : ∀ {frames result c}, Carriage.send s.carriage
      (⟨whom.endpoint, who.id.routingId⟩ : Network.Mailbox) frames = (result, c) → result = .ok () := by
    intro frames result c hc
    have htaken := hopen.send hwhom who.id.routingId frames
    have hview := Recorder.isView_inner.send s.carriage ⟨whom.endpoint, who.id.routingId⟩ frames
    rw [hc] at hview
    exact (congrArg Prod.fst hview).symm.trans htaken
  have hmeet := s.meeting_meet id whom.endpoint now
  generalize s.meet id whom.endpoint now = r at hmeet ⊢
  cases hmeet with
  | unreached hc => cases (hconnect hc).1
  | formless _ hf =>
    obtain ⟨frames, hframes⟩ := hs.encode_hello hwho
    rw [hframes] at hf
    cases hf
  | shut hc hshut =>
    obtain ⟨hbox, rfl⟩ := hconnect hc
    obtain rfl := Except.ok.inj hbox
    cases hsend hshut
  | met hc hf htaken he =>
    obtain ⟨hbox, rfl⟩ := hconnect hc
    obtain rfl := Except.ok.inj hbox
    exact ⟨rfl, ⟨_, hf, Recorded.took_of_send htaken⟩, _, he, rfl, rfl⟩

end Station
end PeerMesh
