import PeerMesh.Proofs.Sorted
import PeerMesh.Wire

/-!
# How a message is laid out

A layout is a head frame cut into segments, each with the field that its bytes belong to. Only one
thing is open when a message is written down: in which order the header entries stand, and which of
them are overridden by later ones. With the entries given, the message has one layout. What is written
is the layout with the headers in ascending order of key.
-/

namespace PeerMesh
set_option autoImplicit false

namespace Wire

def entryText (entry : String × String) : String := entry.1 ++ "=" ++ entry.2

end Wire

/-- All strings and lists of a HELLO are as short as their length bytes and count bytes ask for, if
its headers are written as `entries`. -/
structure Hello.WithinLimits (h : Hello) (entries : List (String × String)) : Prop where
  endpoint : h.endpoint.utf8ByteSize ≤ Wire.limit
  groups : h.groups.length ≤ Wire.limit
  group : ∀ group ∈ h.groups, group.utf8ByteSize ≤ Wire.limit
  name : h.name.utf8ByteSize ≤ Wire.limit
  headers : entries.length ≤ Wire.limit
  key : ∀ entry ∈ entries, '=' ∉ entry.1.toList
  header : ∀ entry ∈ entries, (Wire.entryText entry).utf8ByteSize ≤ Wire.limit

namespace Body

def WithinLimits (entries : List (String × String)) : Body → Prop
  | .hello h => h.WithinLimits entries
  | .shout group _ | .join group _ | .leave group _ => group.utf8ByteSize ≤ Wire.limit
  | .whisper _ | .ping | .pingOk => True

/-- The headers of a body in ascending order of key. -/
def entries : Body → List (String × String)
  | .hello h => h.headers.entries
  | _ => []

end Body

namespace Wire

/-- Bytes of a head frame that are read in one go, and the field that they belong to. -/
structure Segment where
  field : Field
  bytes : List UInt8

def Segment.ofString (field : Field) (s : String) : Segment :=
  ⟨field, UInt8.ofNat s.utf8ByteSize :: utf8 s⟩

abbrev Layout := List Segment

namespace Layout

def bytes (layout : Layout) : List UInt8 := layout.flatMap Segment.bytes

/-- The field that the byte at a place belongs to. -/
def fieldAt? : Layout → Nat → Option Field
  | [], _ => none
  | segment :: layout, place =>
    if place < segment.bytes.length then some segment.field
    else fieldAt? layout (place - segment.bytes.length)

def ofStrings (field : Field) (list : List String) : Layout :=
  ⟨field, [UInt8.ofNat list.length]⟩ :: list.map (.ofString field)

def ofBody (entries : List (String × String)) : Body → Layout
  | .hello h => .ofString .endpoint h.endpoint :: (ofStrings .groups h.groups ++
      ⟨.status, [h.status]⟩ :: .ofString .name h.name :: ofStrings .headers (entries.map entryText))
  | .shout group _ => [.ofString .group group]
  | .join group status | .leave group status => [.ofString .group group, ⟨.status, [status]⟩]
  | .whisper _ | .ping | .pingOk => []

def ofMessage (m : Message) (entries : List (String × String)) : Layout :=
  ⟨.signature, ofUInt16 signature⟩ :: ⟨.id, [m.body.command.code]⟩ :: ⟨.version, [version]⟩ ::
    ⟨.sequence, ofUInt16 m.sequence⟩ :: ofBody entries m.body

theorem bytes_cons (segment : Segment) (layout : Layout) :
    bytes (segment :: layout) = segment.bytes ++ bytes layout := rfl

theorem bytes_append (layout layout' : Layout) :
    bytes (layout ++ layout') = bytes layout ++ bytes layout' := List.flatMap_append

theorem bytes_ofStrings (field : Field) (list : List String) : bytes (ofStrings field list) =
    UInt8.ofNat list.length :: bytes (list.map (.ofString field)) := rfl

theorem bytes_ofMessage (m : Message) (entries : List (String × String)) :
    bytes (ofMessage m entries) = preamble m ++ bytes (ofBody entries m.body) := rfl

end Layout

/-! ### Writing -/

theorem bind_eq_ok {ε α β : Type} {x : Except ε α} {f : α → Except ε β} {b : β} :
    x >>= f = .ok b ↔ ∃ a, x = .ok a ∧ f a = .ok b := by
  constructor
  · intro h
    cases x with
    | error e => cases h
    | ok a => exact ⟨a, rfl, h⟩
  · intro h
    obtain ⟨a, ha, hb⟩ := h
    rw [ha]
    exact hb

theorem ofString_eq_ok {field : Field} {s : String} {bytes : List UInt8} :
    ofString field s = .ok bytes ↔
      s.utf8ByteSize ≤ limit ∧ bytes = UInt8.ofNat s.utf8ByteSize :: utf8 s := by
  unfold ofString
  split
  · simp_all [eq_comm]
  · simp only [reduceCtorEq, false_iff, not_and]
    omega

theorem ofString_of_le (field : Field) {s : String} (h : s.utf8ByteSize ≤ limit) :
    ofString field s = .ok (UInt8.ofNat s.utf8ByteSize :: utf8 s) :=
  ofString_eq_ok.mpr ⟨h, rfl⟩

theorem ofEach_eq_ok {field : Field} {list : List String} {bytes : List UInt8} :
    ofEach field list = .ok bytes ↔ (∀ s ∈ list, s.utf8ByteSize ≤ limit) ∧
      bytes = Layout.bytes (list.map (.ofString field)) := by
  induction list generalizing bytes with
  | nil => simp [ofEach, Layout.bytes, eq_comm]
  | cons s list ih =>
    rw [ofEach, bind_eq_ok, List.forall_mem_cons, List.map_cons, Layout.bytes_cons]
    constructor
    · rintro ⟨_, hs, h⟩
      obtain ⟨_, ht, h⟩ := bind_eq_ok.mp h
      obtain ⟨hsize, rfl⟩ := ofString_eq_ok.mp hs
      obtain ⟨hsizes, rfl⟩ := ih.mp ht
      exact ⟨⟨hsize, hsizes⟩, (Except.ok.inj h).symm⟩
    · rintro ⟨⟨hsize, hsizes⟩, rfl⟩
      exact ⟨_, ofString_of_le field hsize, bind_eq_ok.mpr ⟨_, ih.mpr ⟨hsizes, rfl⟩, rfl⟩⟩

theorem ofStrings_eq_ok {field : Field} {list : List String} {bytes : List UInt8} :
    ofStrings field list = .ok bytes ↔ list.length ≤ limit ∧ (∀ s ∈ list, s.utf8ByteSize ≤ limit) ∧
      bytes = (Layout.ofStrings field list).bytes := by
  unfold ofStrings
  split
  · rename_i hn
    rw [bind_eq_ok, Layout.bytes_ofStrings]
    constructor
    · rintro ⟨_, hitems, h⟩
      obtain ⟨hsizes, rfl⟩ := ofEach_eq_ok.mp hitems
      exact ⟨hn, hsizes, (Except.ok.inj h).symm⟩
    · rintro ⟨-, hsizes, rfl⟩
      exact ⟨_, ofEach_eq_ok.mpr ⟨hsizes, rfl⟩, rfl⟩
  · rename_i hn
    exact iff_of_false (fun h => by cases h) fun h => hn h.1

theorem ofHeader_eq_ok {entry : String × String} {bytes : List UInt8} :
    ofHeader entry.1 entry.2 = .ok bytes ↔ '=' ∉ entry.1.toList ∧
      (entryText entry).utf8ByteSize ≤ limit ∧ bytes = (Segment.ofString .headers (entryText entry)).bytes := by
  unfold ofHeader
  split
  · rename_i hkey
    exact iff_of_false (fun h => by cases h) fun h => h.1 hkey
  · rename_i hkey
    exact ofString_eq_ok.trans (and_iff_right hkey).symm

theorem ofEachHeader_eq_ok {list : List (String × String)} {bytes : List UInt8} :
    ofEachHeader list = .ok bytes ↔ (∀ entry ∈ list, '=' ∉ entry.1.toList) ∧
      (∀ entry ∈ list, (entryText entry).utf8ByteSize ≤ limit) ∧
      bytes = Layout.bytes ((list.map entryText).map (.ofString .headers)) := by
  induction list generalizing bytes with
  | nil => simp [ofEachHeader, Layout.bytes, eq_comm]
  | cons entry list ih =>
    rw [ofEachHeader, bind_eq_ok, List.forall_mem_cons, List.forall_mem_cons, List.map_cons,
      List.map_cons, Layout.bytes_cons]
    constructor
    · rintro ⟨_, hs, h⟩
      obtain ⟨_, ht, h⟩ := bind_eq_ok.mp h
      obtain ⟨hkey, hsize, rfl⟩ := ofHeader_eq_ok.mp hs
      obtain ⟨hkeys, hsizes, rfl⟩ := ih.mp ht
      exact ⟨⟨hkey, hkeys⟩, ⟨hsize, hsizes⟩, (Except.ok.inj h).symm⟩
    · rintro ⟨⟨hkey, hkeys⟩, ⟨hsize, hsizes⟩, rfl⟩
      exact ⟨_, ofHeader_eq_ok.mpr ⟨hkey, hsize, rfl⟩,
        bind_eq_ok.mpr ⟨_, ih.mpr ⟨hkeys, hsizes, rfl⟩, rfl⟩⟩

theorem ofHeaders_eq_ok {headers : Headers} {bytes : List UInt8} :
    ofHeaders headers = .ok bytes ↔ headers.entries.length ≤ limit ∧
      (∀ entry ∈ headers.entries, '=' ∉ entry.1.toList) ∧
      (∀ entry ∈ headers.entries, (entryText entry).utf8ByteSize ≤ limit) ∧
      bytes = (Layout.ofStrings .headers (headers.entries.map entryText)).bytes := by
  rw [Layout.bytes_ofStrings, List.length_map]
  unfold ofHeaders
  split
  · rename_i hn
    rw [bind_eq_ok]
    constructor
    · rintro ⟨_, hitems, h⟩
      obtain ⟨hkeys, hsizes, rfl⟩ := ofEachHeader_eq_ok.mp hitems
      exact ⟨hn, hkeys, hsizes, (Except.ok.inj h).symm⟩
    · rintro ⟨-, hkeys, hsizes, rfl⟩
      exact ⟨_, ofEachHeader_eq_ok.mpr ⟨hkeys, hsizes, rfl⟩, rfl⟩
  · rename_i hn
    exact iff_of_false (fun h => by cases h) fun h => hn h.1

theorem ofFields_hello_eq_ok {h : Hello} {bytes : List UInt8} :
    ofFields (.hello h) = .ok bytes ↔ h.WithinLimits h.headers.entries ∧
      bytes = (Layout.ofBody h.headers.entries (.hello h)).bytes := by
  rw [ofFields, bind_eq_ok, Layout.ofBody, Layout.bytes_cons, Layout.bytes_append]
  constructor
  · rintro ⟨_, he, hrest⟩
    obtain ⟨_, hg, hrest⟩ := bind_eq_ok.mp hrest
    obtain ⟨_, hn, hrest⟩ := bind_eq_ok.mp hrest
    obtain ⟨_, hh, hrest⟩ := bind_eq_ok.mp hrest
    obtain ⟨hendpoint, rfl⟩ := ofString_eq_ok.mp he
    obtain ⟨hgroups, hgroup, rfl⟩ := ofStrings_eq_ok.mp hg
    obtain ⟨hname, rfl⟩ := ofString_eq_ok.mp hn
    obtain ⟨hheaders, hkey, hheader, rfl⟩ := ofHeaders_eq_ok.mp hh
    refine ⟨⟨hendpoint, hgroups, hgroup, hname, hheaders, hkey, hheader⟩, (Except.ok.inj hrest).symm.trans ?_⟩
    simp only [List.append_assoc]
    rfl
  · rintro ⟨hlimits, rfl⟩
    refine ⟨_, ofString_of_le .endpoint hlimits.endpoint, bind_eq_ok.mpr
      ⟨_, ofStrings_eq_ok.mpr ⟨hlimits.groups, hlimits.group, rfl⟩, bind_eq_ok.mpr
      ⟨_, ofString_of_le .name hlimits.name, bind_eq_ok.mpr
      ⟨_, ofHeaders_eq_ok.mpr ⟨hlimits.headers, hlimits.key, hlimits.header, rfl⟩, ?_⟩⟩⟩⟩
    refine congrArg Except.ok ?_
    simp only [List.append_assoc]
    rfl

theorem ofFields_eq_ok {body : Body} {bytes : List UInt8} : ofFields body = .ok bytes ↔
    body.WithinLimits body.entries ∧ bytes = (Layout.ofBody body.entries body).bytes := by
  have hgroup : ∀ (group : String) (status : UInt8),
      (ofString .group group >>= fun front => .ok (front ++ [status])) = .ok bytes ↔
        group.utf8ByteSize ≤ limit ∧
          bytes = Layout.bytes [.ofString .group group, ⟨.status, [status]⟩] := by
    intro group status
    rw [bind_eq_ok]
    constructor
    · rintro ⟨_, hs, h⟩
      obtain ⟨hsize, rfl⟩ := ofString_eq_ok.mp hs
      exact ⟨hsize, (Except.ok.inj h).symm⟩
    · rintro ⟨hsize, rfl⟩
      exact ⟨_, ofString_of_le .group hsize, rfl⟩
  cases body with
  | hello h => exact ofFields_hello_eq_ok
  | shout group content =>
    refine ofString_eq_ok.trans (and_congr_right fun _ => ?_)
    change _ ↔ bytes = _ :: (utf8 group ++ [])
    rw [List.append_nil]
  | join group status | leave group status => exact hgroup group status
  | whisper | ping | pingOk => simp [ofFields, Body.WithinLimits, Layout.ofBody, Layout.bytes, eq_comm]

theorem encode_eq_ok {m : Message} {frames : Content} : encode m = .ok frames ↔
    m.body.WithinLimits m.body.entries ∧
      frames = ⟨(Layout.ofMessage m m.body.entries).bytes.toArray⟩ :: contentFrames m.body := by
  rw [encode, bind_eq_ok]
  constructor
  · rintro ⟨_, hhead, h⟩
    obtain ⟨_, hfields, hhead⟩ := bind_eq_ok.mp hhead
    obtain ⟨hlimits, rfl⟩ := ofFields_eq_ok.mp hfields
    obtain rfl := Except.ok.inj hhead
    exact ⟨hlimits, (Except.ok.inj h).symm⟩
  · rintro ⟨hlimits, rfl⟩
    exact ⟨_, bind_eq_ok.mpr ⟨_, ofFields_eq_ok.mpr ⟨hlimits, rfl⟩, rfl⟩, rfl⟩

end Wire
end PeerMesh
