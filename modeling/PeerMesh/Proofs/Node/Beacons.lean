import PeerMesh.Proofs.Node.Start
import PeerMesh.Proofs.Tcp.Address
import PeerMesh.Proofs.Wire.Fields
import PeerMesh.Tcp.Node

/-!
# What a node makes of datagrams

Every beacon is written in one way, and nothing else is a beacon. Whatever datagrams come in, a node
passes on what the beacons of other nodes say, one by one and in their order, and nothing of the
rest. The endpoint under which it knows a node from then on is the one that this node has, as long
as its beacon comes from the address in it.
-/

namespace PeerMesh
set_option autoImplicit false

theorem Wire.ofUInt16_eq_iff {n : UInt16} {hi lo : UInt8} :
    ofUInt16 n = [hi, lo] ↔ hi.toUInt16 <<< 8 ||| lo.toUInt16 = n := by
  have hself : WordForm n (n >>> 8).toUInt8 n.toUInt8 := by
    rw [wordForm_iff]
    have hread := readUInt16_ofUInt16 .sequence n []
    exact congrArg Prod.fst (Except.ok.inj hread)
  rw [← wordForm_iff]
  constructor
  · intro h
    obtain ⟨hhi, h⟩ := List.cons.inj h
    obtain ⟨hlo, -⟩ := List.cons.inj h
    rw [← hhi, ← hlo]
    exact hself
  · intro h
    have hhi := hi.toNat_lt
    have hlo := lo.toNat_lt
    have hhigh := (n >>> 8).toUInt8.toNat_lt
    have hlow := n.toUInt8.toNat_lt
    rw [WordForm] at h hself
    have hsame : (n >>> 8).toUInt8.toNat = hi.toNat ∧ n.toUInt8.toNat = lo.toNat := by omega
    rw [ofUInt16, UInt8.toNat_inj.mp hsame.1, UInt8.toNat_inj.mp hsame.2]

namespace Beacon
variable {self : PeerId} {source : Tcp.IPv4} {datagram bytes : List UInt8} {b : Beacon}

theorem length_encode (b : Beacon) : b.encode.length = size := by
  rw [encode, List.length_append, List.length_append, b.peer.length_bytes]
  rfl

theorem take_encode (b : Beacon) : b.encode.take 4 = opening := by
  rw [encode, List.append_assoc]
  exact List.take_left' rfl

theorem peer_encode (b : Beacon) : (b.encode.drop 4).take 16 = b.peer.bytes := by
  have hopening : opening.length = 4 := rfl
  rw [encode, List.append_assoc, List.drop_left' hopening]
  exact List.take_left' b.peer.length_bytes

theorem port_encode (b : Beacon) : b.encode.drop 20 = Wire.ofUInt16 b.port := by
  rw [encode]
  refine List.drop_left' ?_
  rw [List.length_append, b.peer.length_bytes]
  rfl

/-- The parts of a datagram of the right size. -/
theorem eq_parts (bytes : List UInt8) :
    bytes = bytes.take 4 ++ (bytes.drop 4).take 16 ++ bytes.drop 20 := by
  rw [← List.take_add, List.take_append_drop]

theorem decode_eq_ok : decode bytes = .ok b ↔ bytes = b.encode := by
  constructor
  · intro h
    unfold decode at h
    split at h
    · cases h
    · split at h
      · cases h
      · rename_i hopening
        split at h
        · rename_i peer hi lo hpeer hport
          obtain rfl := Except.ok.inj h
          rw [encode, Wire.ofUInt16_eq_iff.mpr rfl, ← PeerId.ofBytes?_eq_some.mp hpeer, ← hport,
            ← Decidable.not_not.mp hopening]
          exact eq_parts bytes
        · cases h
  · rintro rfl
    have hport : Wire.ofUInt16 b.port = [(b.port >>> 8).toUInt8, b.port.toUInt8] := rfl
    rw [decode, if_neg (not_not_intro b.length_encode), if_neg (not_not_intro b.take_encode),
      b.peer_encode, PeerId.ofBytes?_eq_some.mpr rfl, b.port_encode, hport]
    dsimp only
    rw [Wire.ofUInt16_eq_iff.mp hport]

theorem encode_inj {a b : Beacon} (h : a.encode = b.encode) : a = b :=
  Except.ok.inj ((decode_eq_ok.mpr rfl).symm.trans (decode_eq_ok.mpr h))

/-- Every datagram of the right size with the right opening is a beacon. -/
theorem exists_encode : (∃ b : Beacon, b.encode = bytes) ↔ bytes.length = size ∧ opening <+: bytes := by
  constructor
  · rintro ⟨b, rfl⟩
    refine ⟨b.length_encode, ?_⟩
    rw [encode, List.append_assoc]
    exact List.prefix_append ..
  · rintro ⟨hsize, hopening⟩
    have hsize' : bytes.length = 22 := hsize
    have hpeer : ((bytes.drop 4).take 16).length = 16 := by
      rw [List.length_take, List.length_drop]
      omega
    have hport : (bytes.drop 20).length = 2 := by
      rw [List.length_drop]
      omega
    obtain ⟨hi, lo, hword⟩ := List.length_eq_two.mp hport
    refine ⟨⟨⟨_, hpeer⟩, hi.toUInt16 <<< 8 ||| lo.toUInt16⟩, ?_⟩
    rw [encode, Wire.ofUInt16_eq_iff.mpr rfl, ← hword, List.prefix_iff_eq_take.mp hopening]
    exact (eq_parts bytes).symm

/-! ### One datagram -/

/-- A beacon is much shorter than what is looked at of a datagram, so nothing becomes one when it is
cut. -/
theorem take_eq_encode : datagram.take bufferSize = b.encode ↔ datagram = b.encode := by
  have hsize : size < bufferSize := by decide
  constructor
  · intro h
    have hlength := congrArg List.length h
    rw [b.length_encode, List.length_take] at hlength
    rw [← h, List.take_of_length_le (by omega)]
  · rintro rfl
    exact List.take_of_length_le (by rw [b.length_encode]; exact Nat.le_of_lt hsize)

theorem sighting?_encode (b : Beacon) : sighting? self source b.encode =
    if b.peer = self then none
    else if b.port = 0 then some (.lost b.peer)
    else some (.found b.peer (Tcp.SocketAddress.endpoint ⟨.v4 source, 0, b.port⟩)) := by
  rw [sighting?, decode_eq_ok.mpr (take_eq_encode.mpr rfl)]

theorem sighting?_of_other (h : ∀ b : Beacon, datagram ≠ b.encode) :
    sighting? self source datagram = none := by
  unfold sighting?
  split
  · rfl
  · rename_i b hb
    exact absurd (take_eq_encode.mp (decode_eq_ok.mp hb)) (h b)

/-! ### Datagram after datagram -/

/-- Where the inbox of a node is, by the address that its beacon came from and the port in it. -/
def inbox (source : Tcp.IPv4) (port : UInt16) : String :=
  "tcp://" ++ source.text ++ ":" ++ toString port.toNat

theorem inbox_eq (source : Tcp.IPv4) (port : UInt16) :
    inbox source port = Tcp.SocketAddress.endpoint ⟨.v4 source, 0, port⟩ := by
  rw [inbox, Tcp.endpoint_v4, Tcp.scheme]
  simp only [String.append_assoc]

/-- What there is to report of datagrams, each with the address that it came from. -/
inductive Reports (self : PeerId) : List (Tcp.IPv4 × List UInt8) → List Sighting → Prop
  | nil : Reports self [] []
  | found {source : Tcp.IPv4} {peer : PeerId} {port : UInt16} {rest : List (Tcp.IPv4 × List UInt8)}
      {sightings : List Sighting} (hpeer : peer ≠ self) (hport : port ≠ 0)
      (h : Reports self rest sightings) :
    Reports self ((source, encode ⟨peer, port⟩) :: rest) (.found peer (inbox source port) :: sightings)
  | lost {source : Tcp.IPv4} {peer : PeerId} {rest : List (Tcp.IPv4 × List UInt8)}
      {sightings : List Sighting} (hpeer : peer ≠ self) (h : Reports self rest sightings) :
    Reports self ((source, encode ⟨peer, 0⟩) :: rest) (.lost peer :: sightings)
  | own {source : Tcp.IPv4} {port : UInt16} {rest : List (Tcp.IPv4 × List UInt8)}
      {sightings : List Sighting} (h : Reports self rest sightings) :
    Reports self ((source, encode ⟨self, port⟩) :: rest) sightings
  | other {source : Tcp.IPv4} {datagram : List UInt8} {rest : List (Tcp.IPv4 × List UInt8)}
      {sightings : List Sighting} (hother : ∀ b : Beacon, datagram ≠ b.encode)
      (h : Reports self rest sightings) :
    Reports self ((source, datagram) :: rest) sightings

def sightings (self : PeerId) (datagrams : List (Tcp.IPv4 × List UInt8)) : List Sighting :=
  datagrams.filterMap fun d => sighting? self d.1 d.2

theorem sightings_cons (self : PeerId) (d : Tcp.IPv4 × List UInt8)
    (rest : List (Tcp.IPv4 × List UInt8)) :
    sightings self (d :: rest) = (sighting? self d.1 d.2).toList ++ sightings self rest := by
  rw [sightings, List.filterMap_cons]
  split
  · rename_i h
    rw [h]
    rfl
  · rename_i s h
    rw [h]
    rfl

theorem reports_iff {datagrams : List (Tcp.IPv4 × List UInt8)} {found : List Sighting} :
    Reports self datagrams found ↔ found = sightings self datagrams := by
  constructor
  · intro h
    induction h with
    | nil => rfl
    | found hpeer hport _ ih =>
      rw [sightings_cons, sighting?_encode, if_neg hpeer, if_neg hport, ← inbox_eq, ih]
      rfl
    | lost hpeer _ ih =>
      rw [sightings_cons, sighting?_encode, if_neg hpeer, if_pos rfl, ih]
      rfl
    | own _ ih =>
      rw [sightings_cons, sighting?_encode, if_pos rfl, ih]
      rfl
    | other hother _ ih =>
      rw [sightings_cons, sighting?_of_other hother, ih]
      rfl
  · rintro rfl
    induction datagrams with
    | nil => exact .nil
    | cons d rest ih =>
      obtain ⟨source, datagram⟩ := d
      rw [sightings_cons]
      by_cases hbeacon : ∃ b : Beacon, datagram = b.encode
      · obtain ⟨b, rfl⟩ := hbeacon
        rw [sighting?_encode]
        split
        · rename_i hself
          rw [← hself] at ih ⊢
          exact .own ih
        · rename_i hpeer
          split
          · rename_i hport
            have hb : b = ⟨b.peer, 0⟩ := hport ▸ rfl
            rw [hb]
            exact .lost hpeer ih
          · rename_i hport
            rw [← inbox_eq]
            exact .found hpeer hport ih
      · rw [sighting?_of_other fun b hb => hbeacon ⟨b, hb⟩]
        exact .other (fun b hb => hbeacon ⟨b, hb⟩) ih

end Beacon

/-! ### What is passed on -/

namespace Node
variable {κ μ : Type}

theorem editActor_editActor (n : Node κ μ) (f g : Actor κ μ → Actor κ μ) :
    (n.editActor f).editActor g = n.editActor fun a => g (f a) := by
  unfold editActor
  cases n.phase <;> rfl

theorem editActor_id (n : Node κ μ) : n.editActor (fun a => a) = n := by
  obtain ⟨settings, id, name, headers, groups, outlet, phase⟩ := n
  cases phase <;> rfl

section
variable [Carriage κ μ] {n m : Node κ μ} {walk : Walk} {bound : Except Tcp.BindError Tcp.SocketAddress}
  {outward : Option Tcp.IpAddress} {published : Except Tcp.BindError Unit} {carriage : κ}

/-- What a node that starts tells others of where it is. -/
theorem announced_of_start
    (h : (Act.start walk bound outward published carriage).outcome n = (.ok (), m)) :
    ∃ listener ip, bound = .ok listener ∧ n.advertised listener.ip outward = .ok ip ∧
      m.endpoint? = some (Tcp.SocketAddress.endpoint ⟨ip, 0, listener.port⟩) ∧
      (n.settings.beaconEnabled = true → m.phase.beacon? = some ⟨n.id, listener.port⟩) := by
  simp only [Act.start, Act.outcome_get_bind, Act.ofExcept_bind_eq_ok,
    takeOutlet_bind_eq_ok, mapError_eq_ok] at h
  obtain ⟨_, -, _, -, listener, hbound, ip, hip, s, -, beacon, hbeacon, -, hend⟩ := h
  obtain rfl := congrArg Prod.snd hend
  refine ⟨listener, ip, hbound, hip, rfl, fun henabled => ?_⟩
  rw [publish, if_pos henabled] at hbeacon
  cases published with
  | error e => cases hbeacon
  | ok => exact (Except.ok.inj hbeacon).symm

end
end Node

theorem Actor.foldl_sight {κ μ : Type} (sightings : List Sighting) (a : Actor κ μ) :
    sightings.foldl sight a =
      if a.ended then a else { a with sightings := a.sightings ++ sightings } := by
  induction sightings generalizing a with
  | nil =>
    rw [List.foldl_nil, List.append_nil]
    exact (ite_self a).symm
  | cons s sightings ih =>
    rw [List.foldl_cons, ih, sight]
    split
    · rfl
    · dsimp only
      rw [List.append_assoc]
      rfl

namespace TcpNode

/-- Hears one datagram after the other. -/
def hearAll (n : TcpNode) (datagrams : List (Tcp.IPv4 × List UInt8)) : TcpNode :=
  datagrams.foldl (fun n d => hear n d.1 d.2) n

theorem hear_eq (n : TcpNode) (source : Tcp.IPv4) (datagram : List UInt8) :
    hear n source datagram =
      n.editActor fun a => (Beacon.sighting? n.id source datagram).toList.foldl Actor.sight a := by
  unfold hear
  split
  · rename_i s h
    rw [h]
    rfl
  · rename_i h
    rw [h]
    exact (Node.editActor_id n).symm

/-- Neither a datagram that is no beacon nor one of the node's own stops anything. -/
theorem hearAll_eq (n : TcpNode) (datagrams : List (Tcp.IPv4 × List UInt8)) :
    hearAll n datagrams =
      n.editActor fun a => (Beacon.sightings n.id datagrams).foldl Actor.sight a := by
  induction datagrams generalizing n with
  | nil => exact (Node.editActor_id n).symm
  | cons d rest ih =>
    change hearAll (hear n d.1 d.2) rest = _
    rw [ih, hear_eq, Node.editActor_editActor]
    congr 1
    funext a
    rw [Beacon.sightings_cons, List.foldl_append]
    rfl

end TcpNode

/-- Beacons are the datagrams of 22 bytes that start as they do, each in one way. Of whatever comes
in, a node whose task goes on passes on what the beacons of others say, in order. The endpoint that
it makes of a beacon is one that can be read, as the address the beacon came from and the port in
it; and a node at this address and port has the very same one. -/
theorem Beacon.heard_as_sent {κ μ : Type} [Carriage κ μ] :
    (∀ (bytes : List UInt8) (b : Beacon), decode bytes = .ok b ↔ bytes = b.encode) ∧
    (∀ bytes : List UInt8, (∃! b : Beacon, b.encode = bytes) ↔
      bytes.length = 22 ∧ [0x5a, 0x52, 0x45, 0x01] <+: bytes) ∧
    (∀ (n : TcpNode) (datagrams : List (Tcp.IPv4 × List UInt8)), ∃ sightings : List Sighting,
      (∀ others, Reports n.id datagrams others ↔ others = sightings) ∧
      TcpNode.hearAll n datagrams = n.editActor fun a =>
        if a.ended then a else { a with sightings := a.sightings ++ sightings }) ∧
    (∀ (source : Tcp.IPv4) (port : UInt16),
      Tcp.SocketAddress.ofEndpoint? (inbox source port) = some ⟨.v4 source, 0, port⟩) ∧
    ∀ (n m : Node κ μ) (walk : Walk) (listener : Tcp.SocketAddress) (outward : Option Tcp.IpAddress)
      (published : Except Tcp.BindError Unit) (carriage : κ) (source : Tcp.IPv4),
      (Node.Act.start walk (.ok listener) outward published carriage).outcome n = (.ok (), m) →
      n.advertised listener.ip outward = .ok (.v4 source) →
      m.endpoint? = some (inbox source listener.port) ∧
        (n.settings.beaconEnabled = true → m.phase.beacon? = some ⟨n.id, listener.port⟩) := by
  refine ⟨fun _ _ => decode_eq_ok, fun bytes => ?_, fun n datagrams => ?_, fun source port => ?_, ?_⟩
  · refine Iff.trans ?_ exists_encode
    refine ⟨fun ⟨b, hb, _⟩ => ⟨b, hb⟩, ?_⟩
    rintro ⟨b, rfl⟩
    exact ⟨b, rfl, fun _ => encode_inj⟩
  · refine ⟨sightings n.id datagrams, fun _ => reports_iff, ?_⟩
    rw [TcpNode.hearAll_eq]
    congr 1
    funext a
    exact a.foldl_sight (sightings n.id datagrams)
  · rw [inbox_eq]
    exact Tcp.ofEndpoint?_endpoint source port
  · intro n m walk listener outward published carriage source hstart hsource
    obtain ⟨listener', ip, hbound, hip, hendpoint, hbeacon⟩ := Node.announced_of_start hstart
    obtain rfl := Except.ok.inj hbound
    obtain rfl := Except.ok.inj (hip.symm.trans hsource)
    rw [inbox_eq]
    exact ⟨hendpoint, hbeacon⟩

/-- A node that is bound to an address of its own. -/
theorem Beacon.heard_as_sent_bound :
    let n : Node Network Network.Mailbox := .new Settings.usual ⟨.replicate 16 1, rfl⟩
    let started := (Node.Act.start .ascending (.ok ⟨.v4 ⟨10, 1, 2, 3⟩, 0, 7000⟩) none (.ok ())
      Network.empty).outcome n
    started.1 = .ok () ∧ started.2.endpoint? = some "tcp://10.1.2.3:7000" ∧
      started.2.phase.beacon? = some ⟨n.id, 7000⟩ := by
  intro n started
  have hok : started.1 = .ok () := by decide +kernel
  have hheard := (Beacon.heard_as_sent (κ := Network)).2.2.2.2 n started.2 .ascending
    ⟨.v4 ⟨10, 1, 2, 3⟩, 0, 7000⟩ none (.ok ()) Network.empty ⟨10, 1, 2, 3⟩ (Prod.ext hok rfl) rfl
  have hinbox : inbox ⟨10, 1, 2, 3⟩ 7000 = "tcp://10.1.2.3:7000" := by decide +kernel
  exact ⟨hok, hheard.1.trans (congrArg some hinbox), hheard.2 rfl⟩

end PeerMesh
