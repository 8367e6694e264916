import PeerMesh.Text.Hex

/-! Who a node is: the 16 bytes that every node picks once, the text in which they are shown, and the
routing id under which a node's mailboxes present it to a remote inbox. -/

namespace PeerMesh
set_option autoImplicit false

/-- The identity of a node: 16 bytes, ordered as the text that shows them. -/
structure PeerId where
  bytes : List UInt8
  length_bytes : bytes.length = 16

namespace PeerId

theorem ext_bytes {a b : PeerId} (h : a.bytes = b.bytes) : a = b := by
  cases a; cases b; simp_all

instance : DecidableEq PeerId := fun a b =>
  decidable_of_iff (a.bytes = b.bytes) ⟨ext_bytes, fun h => h ▸ rfl⟩

instance : Inhabited PeerId := ⟨List.replicate 16 0, List.length_replicate⟩

instance : LT PeerId := ⟨fun a b => a.bytes < b.bytes⟩

instance : LE PeerId := ⟨fun a b => a.bytes ≤ b.bytes⟩

instance : DecidableLT PeerId := fun a b => inferInstanceAs (Decidable (a.bytes < b.bytes))

instance : DecidableLE PeerId := fun a b => inferInstanceAs (Decidable (a.bytes ≤ b.bytes))

instance : Std.IsLinearOrder PeerId where
  le_refl a := Std.le_refl a.bytes
  le_trans _ _ _ h₁ h₂ := Std.le_trans (α := List UInt8) h₁ h₂
  le_antisymm _ _ h₁ h₂ := ext_bytes (Std.le_antisymm (α := List UInt8) h₁ h₂)
  le_total a b := Std.le_total (a := a.bytes) (b := b.bytes)

instance : Std.LawfulOrderLT PeerId where
  lt_iff a b := Std.LawfulOrderLT.lt_iff a.bytes b.bytes

def ofBytes? (bytes : List UInt8) : Option PeerId :=
  if h : bytes.length = 16 then some ⟨bytes, h⟩ else none

/-- The shown form: 32 upper-case hexadecimal digits. -/
def text (id : PeerId) : String := String.ofList (Hex.encode .upper id.bytes)

/-- The name of a node that was given none: the first six digits of its identity. -/
def shortName (id : PeerId) : String := String.ofList ((Hex.encode .upper id.bytes).take 6)

/-- The identity made of 16 random bytes, of which six bits say that it is a random one. -/
def ofRandom? (bytes : List UInt8) : Option PeerId :=
  ofBytes? ((bytes.modify 6 fun b => b &&& 0x0f ||| 0x40).modify 8 fun b => b &&& 0x3f ||| 0x80)

/-! ### Reading -/

/-- The text is no identity. -/
structure ParseError where
  text : String
  deriving DecidableEq

def ParseError.message (e : ParseError) : String := "invalid peer id: " ++ e.text

/-- Reads an identity. What texts there are for 16 bytes is for `uuid?` to say. -/
def parse (uuid? : String → Option (Vector UInt8 16)) (s : String) : Except ParseError PeerId :=
  match uuid? s with
  | some bytes => .ok ⟨bytes.toList, bytes.length_toList⟩
  | none => .error ⟨s⟩

/-! ### Routing ids -/

/-- The byte before the identity in a routing id; it keeps the id from starting with zero. -/
def routingMarker : UInt8 := 1

def routingId (id : PeerId) : List UInt8 := routingMarker :: id.bytes

/-- The sender behind a routing id; `none` for anything but the marker and 16 bytes. -/
def ofRoutingId? : List UInt8 → Option PeerId
  | marker :: bytes => if marker = routingMarker then ofBytes? bytes else none
  | [] => none

theorem ofBytes?_eq_some {bytes : List UInt8} {id : PeerId} :
    ofBytes? bytes = some id ↔ bytes = id.bytes := by
  unfold ofBytes?
  split
  · simp only [Option.some.injEq]
    exact ⟨fun h => h ▸ rfl, fun h => ext_bytes h⟩
  · rename_i h
    simp only [reduceCtorEq, false_iff]
    exact fun hb => h (hb ▸ id.length_bytes)

theorem routingId_inj {a b : PeerId} (h : a.routingId = b.routingId) : a = b :=
  ext_bytes (List.cons.inj h).2

theorem ofRoutingId?_routingId (id : PeerId) : ofRoutingId? id.routingId = some id := by
  rw [routingId, ofRoutingId?, if_pos rfl]
  exact ofBytes?_eq_some.mpr rfl

end PeerId
end PeerMesh
