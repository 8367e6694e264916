import PeerMesh.Proofs.Engine.Alike

/-!
# Stations that agree about a peer

On a network every endpoint has an owner, and the mailbox of a peer leads to an endpoint of its own.
Two stations are alike about a peer if their engines are and the inboxes at its endpoints hold the
same. What is sent to the peer then meets the same fate at both; notes do not count.
-/

namespace PeerMesh
set_option autoImplicit false

variable {owner : String → PeerId} {a b id : PeerId}

/-! ### Networks -/

namespace Network
variable {net net' net'' : Network} {box : Mailbox} {frames : Content}

/-- Connecting leaves the network as it is. -/
theorem of_connect {net net' : Network} {routingId : List UInt8} {endpoint : String}
    {result : Except ConnectError Mailbox}
    (h : Carriage.connect net routingId endpoint = (result, net')) :
    net' = net ∧ ∀ {box}, result = .ok box → box.endpoint = endpoint := by
  obtain ⟨rfl, rfl⟩ := Prod.mk.inj h
  refine ⟨rfl, fun {box} hbox => ?_⟩
  unfold connect at hbox
  split at hbox
  · cases hbox
  · split at hbox
    · cases hbox
    · exact Except.ok.inj hbox ▸ rfl

/-- The networks are the same as far as the owner of some endpoints can tell. -/
structure Alike (owner : String → PeerId) (a : PeerId) (net net' : Network) : Prop where
  inbox : ∀ {endpoint}, owner endpoint = a → net'.inboxes.get? endpoint = net.inboxes.get? endpoint
  capacities : net'.capacities = net.capacities
  refused : net'.refused = net.refused

namespace Alike

theorem refl (owner : String → PeerId) (a : PeerId) (net : Network) : net.Alike owner a net :=
  ⟨fun _ => rfl, rfl, rfl⟩

theorem symm (h : net.Alike owner a net') : net'.Alike owner a net :=
  ⟨fun ha => (h.inbox ha).symm, h.capacities.symm, h.refused.symm⟩

theorem trans (h : net.Alike owner a net') (h' : net'.Alike owner a net'') :
    net.Alike owner a net'' :=
  ⟨fun ha => (h'.inbox ha).trans (h.inbox ha), h'.capacities.trans h.capacities,
    h'.refused.trans h.refused⟩

theorem connect (h : net.Alike owner a net') (routingId : List UInt8) {endpoint : String}
    (ha : owner endpoint = a) : Carriage.connect net' routingId endpoint =
      ((Carriage.connect net routingId endpoint).1, net') := by
  change (Network.connect net' routingId endpoint, net') = (net.connect routingId endpoint, net')
  rw [Network.connect, Network.connect, h.refused, SortedMap.contains, SortedMap.contains, h.inbox ha]

theorem send (h : net.Alike owner a net') (ha : owner box.endpoint = a) (frames : Content) :
    (net'.send box frames).1 = (net.send box frames).1 ∧
      (net.send box frames).2.Alike owner a (net'.send box frames).2 := by
  have hfull : net'.isFull box.endpoint = net.isFull box.endpoint := by
    rw [isFull, isFull, h.capacities, pending, pending, waiting, waiting, h.inbox ha]
  rw [Network.send, Network.send, h.inbox ha, hfull]
  cases net.inboxes.get? box.endpoint with
  | none => exact ⟨rfl, h⟩
  | some queue =>
    dsimp only
    split
    · exact ⟨rfl, h⟩
    · refine ⟨rfl, fun {endpoint} hend => ?_, h.capacities, h.refused⟩
      dsimp only
      rw [SortedMap.get?_insert, SortedMap.get?_insert, h.inbox hend]

end Alike

theorem alike_of_send {result : SendResult} (hb : owner box.endpoint ≠ b)
    (h : Carriage.send net box frames = (result, net')) : net.Alike owner b net' := by
  obtain rfl : (net.send box frames).2 = net' := congrArg Prod.snd h
  unfold send
  split
  · exact .refl owner b net
  · split
    · exact .refl owner b net
    · refine ⟨fun {endpoint} hend => ?_, rfl, rfl⟩
      dsimp only
      rw [SortedMap.get?_insert, if_neg]
      rintro rfl
      exact hb hend

theorem ext_alike (h : ∀ a, net.Alike owner a net') : net' = net := by
  have hinboxes : net'.inboxes = net.inboxes :=
    SortedMap.ext_get? fun endpoint => (h (owner endpoint)).inbox rfl
  have hcapacities := (h default).capacities
  have hrefused := (h default).refused
  cases net
  cases net'
  dsimp only at hinboxes hcapacities hrefused
  rw [hinboxes, hcapacities, hrefused]

end Network

/-! ### Peers in their place -/

/-- The peer has an open mailbox, which leads to an endpoint of its own. -/
structure Peer.Placed (owner : String → PeerId) (id : PeerId) (p : Peer Network.Mailbox) : Prop where
  filed : p.id = id
  owned : owner p.lastEndpoint = id
  mailbox : ∃ box, p.mailbox = some box ∧ box.endpoint = p.lastEndpoint

def Roster.Placed (owner : String → PeerId) (roster : Roster Network.Mailbox) : Prop :=
  ∀ {id p}, roster.get? id = some p → p.Placed owner id

namespace Peer
variable {p : Peer Network.Mailbox} {net net' : Network} {body : Body}

theorem Placed.owner_mailbox (h : p.Placed owner id) {box : Network.Mailbox}
    (hbox : p.mailbox = some box) : owner box.endpoint = id := by
  obtain ⟨box', hbox', hend⟩ := h.mailbox
  obtain rfl := Option.some.inj (hbox.symm.trans hbox')
  rw [hend, h.owned]

theorem Placed.congr {p' : Peer Network.Mailbox} (h : p.Placed owner id) (hid : p'.id = p.id)
    (hlast : p'.lastEndpoint = p.lastEndpoint) (hbox : p'.mailbox = p.mailbox) :
    p'.Placed owner id :=
  ⟨hid.trans h.filed, hlast ▸ h.owned, hlast ▸ hbox ▸ h.mailbox⟩

theorem Placed.endpoint (h : p.Placed owner id) : p.endpoint = p.lastEndpoint := by
  obtain ⟨box, hbox, -⟩ := h.mailbox
  rw [Peer.endpoint, Peer.isConnected, hbox, Option.isSome_some, if_pos rfl]

/-- Sending looks at nothing but the peer and the inbox that its mailbox leads to. -/
theorem send_alike (h : net.Alike owner id net') (hp : p.Placed owner id) (body : Body) :
    (p.send net' body).result = (p.send net body).result ∧
      (p.send net' body).peer = (p.send net body).peer ∧
      (p.send net body).carriage.Alike owner id (p.send net' body).carriage := by
  obtain ⟨box, hbox, -⟩ := hp.mailbox
  unfold send
  rw [hbox]
  dsimp only
  cases Wire.encode ⟨p.sent + 1, body⟩ with
  | error e => exact ⟨rfl, rfl, h⟩
  | ok frames =>
    obtain ⟨hresult, hrest⟩ := h.send (hp.owner_mailbox hbox) frames
    change (Network.send net' box frames).1 = (Network.send net box frames).1 at hresult
    dsimp only [Carriage.send]
    rcases hs : Network.send net box frames with ⟨result, c⟩
    rcases hs' : Network.send net' box frames with ⟨result', c'⟩
    rw [hs, hs'] at hresult hrest
    dsimp only at hresult hrest
    subst hresult
    cases result' with
    | ok => exact ⟨rfl, rfl, hrest⟩
    | error e =>
      dsimp only
      split
      · exact ⟨rfl, rfl, hrest⟩
      · exact ⟨rfl, rfl, hrest⟩

end Peer

/-! ### Stations -/

namespace Station
variable {s s' s'' t u : Station Network Network.Mailbox}

structure Alike (owner : String → PeerId) (a : PeerId) (s s' : Station Network Network.Mailbox) :
    Prop where
  engine : s.engine.Alike a s'.engine
  carriage : s.carriage.Alike owner a s'.carriage

namespace Alike

theorem refl (owner : String → PeerId) (a : PeerId) (s : Station Network Network.Mailbox) :
    s.Alike owner a s :=
  ⟨.refl a _, .refl owner a _⟩

theorem symm (h : s.Alike owner a s') : s'.Alike owner a s := ⟨h.engine.symm, h.carriage.symm⟩

theorem trans (h : s.Alike owner a s') (h' : s'.Alike owner a s'') : s.Alike owner a s'' :=
  ⟨h.engine.trans h'.engine, h.carriage.trans h'.carriage⟩

theorem of_same (he : t.engine = s.engine) (hc : t.carriage = s.carriage) : s.Alike owner a t :=
  ⟨he ▸ .refl a _, hc ▸ .refl owner a _⟩

theorem note (h : s.Alike owner a s') (notes notes' : List Note) :
    (s.note notes).Alike owner a (s'.note notes') :=
  ⟨h.engine, h.carriage⟩

theorem edit (h : s.Alike owner a s') {f f' : Engine Network.Mailbox → Engine Network.Mailbox}
    (hf : (f s.engine).Alike a (f' s'.engine)) : (s.edit f).Alike owner a (s'.edit f') :=
  ⟨hf, h.carriage⟩

theorem remove (h : s.Alike owner id s') : (s.remove id).Alike owner id (s'.remove id) := by
  refine ⟨?_, ?_⟩
  · rw [engine_remove, engine_remove]
    exact h.engine.drop
  · rw [carriage_remove, carriage_remove]
    exact h.carriage

theorem removeIfLost (h : s.Alike owner id s') (result : SendResult) :
    (s.removeIfLost id result).Alike owner id (s'.removeIfLost id result) := by
  unfold Station.removeIfLost
  split
  · exact h.remove
  · exact h

theorem nameOf (h : s.Alike owner id s') : s'.engine.nameOf id = s.engine.nameOf id := by
  rw [Engine.nameOf, Engine.nameOf, h.engine.entry]

theorem readyPeer? (h : s.Alike owner id s') : s'.engine.readyPeer? id = s.engine.readyPeer? id := by
  rw [Engine.readyPeer?, Engine.readyPeer?, h.engine.entry]

theorem tell (h : s.Alike owner id s') {p : Peer Network.Mailbox} (hp : p.Placed owner id)
    (body : Body) : (s'.tell p body).1 = (s.tell p body).1 ∧
      (s.tell p body).2.Alike owner id (s'.tell p body).2 := by
  obtain ⟨hresult, hpeer, hcarriage⟩ := Peer.send_alike h.carriage hp body
  refine ⟨hresult, ?_, hcarriage⟩
  change Engine.Alike id { s.engine with roster := s.engine.roster.insert p.id _ }
    { s'.engine with roster := s'.engine.roster.insert p.id _ }
  rw [hpeer]
  exact h.engine.insert p.id _

end Alike

end Station
end PeerMesh
