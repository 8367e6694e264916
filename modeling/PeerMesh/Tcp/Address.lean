import PeerMesh.Text.Reader

/-! Addresses of sockets, and their text: four decimal octets for version 4, groups of hexadecimal
digits with the longest run of zeros left out for version 6. The endpoint of a node is such an
address after `tcp://`. -/

namespace PeerMesh.Tcp
set_option autoImplicit false

structure IPv4 where
  a : UInt8
  b : UInt8
  c : UInt8
  d : UInt8
  deriving DecidableEq

/-- An address of version 6: eight groups of sixteen bits. -/
structure IPv6 where
  groups : List UInt16
  length_groups : groups.length = 8

instance : DecidableEq IPv6 := fun x y =>
  decidable_of_iff (x.groups = y.groups) ⟨fun h => by cases x; cases y; simp_all, fun h => h ▸ rfl⟩

inductive IpAddress
  | v4 (ip : IPv4)
  | v6 (ip : IPv6)
  deriving DecidableEq

/-- An address with a number for the socket, and for version 6 the zone in which the address is
meant; zone 0 is no zone. -/
structure SocketAddress where
  ip : IpAddress
  zone : Nat
  port : UInt16
  deriving DecidableEq

/-! ### Text -/

def IPv4.text (ip : IPv4) : String :=
  ".".intercalate ([ip.a, ip.b, ip.c, ip.d].map fun octet => toString octet.toNat)

/-- The version 4 address inside `::ffff:a.b.c.d`. -/
def IPv6.mapped? (ip : IPv6) : Option IPv4 :=
  match ip.groups with
  | [0, 0, 0, 0, 0, 0xffff, x, y] =>
    some ⟨(x >>> 8).toUInt8, x.toUInt8, (y >>> 8).toUInt8, y.toUInt8⟩
  | _ => none

/-- Groups in hexadecimal without leading zeros, separated by colons. -/
def groupsText (groups : List UInt16) : String :=
  ":".intercalate (groups.map fun g => String.ofList (Nat.toDigits 16 g.toNat))

def leadingZeros (groups : List UInt16) : Nat := (groups.takeWhile (· = 0)).length

/-- Start and length of the longest run of zeros, the first one of that length. -/
def longestZeros (groups : List UInt16) : Nat × Nat :=
  (List.range groups.length).foldl (fun best i =>
    let n := leadingZeros (groups.drop i)
    if n > best.2 then (i, n) else best) (0, 0)

def IPv6.text (ip : IPv6) : String :=
  match ip.mapped? with
  | some v4 => "::ffff:" ++ v4.text
  | none =>
    let (start, length) := longestZeros ip.groups
    if length > 1 then
      groupsText (ip.groups.take start) ++ "::" ++ groupsText (ip.groups.drop (start + length))
    else groupsText ip.groups

/-- The address as it stands before the port number, version 6 in brackets. -/
def SocketAddress.hostText (s : SocketAddress) : String :=
  match s.ip with
  | .v4 ip => ip.text
  | .v6 ip =>
    let zone := if s.zone = 0 then "" else "%" ++ toString s.zone
    "[" ++ ip.text ++ zone ++ "]"

def SocketAddress.text (s : SocketAddress) : String :=
  s.hostText ++ ":" ++ toString s.port.toNat

def scheme : String := "tcp://"

def SocketAddress.endpoint (s : SocketAddress) : String := scheme ++ s.text

/-! ### Kinds of addresses -/

namespace IpAddress

def isUnspecified : IpAddress → Bool
  | v4 ip => ip = ⟨0, 0, 0, 0⟩
  | v6 ip => ip.groups.all (· = 0)

def isLoopback : IpAddress → Bool
  | v4 ip => ip.a = 127
  | v6 ip => ip.groups = [0, 0, 0, 0, 0, 0, 0, 1]

/-- A version 4 address in the form of version 6 is that address; all others are what they are. -/
def plain : IpAddress → IpAddress
  | v6 ip => (ip.mapped?.map v4).getD (v6 ip)
  | ip => ip

def isV4 : IpAddress → Bool
  | v4 _ => true
  | v6 _ => false

/-- Whether a socket that listens at one address takes what is sent to another. The address of
version 6 for all addresses stands for those of version 4 as well. -/
def covers (listener ip : IpAddress) : Bool :=
  listener.plain = ip.plain ||
    (listener.plain.isUnspecified && (!listener.plain.isV4 || ip.plain.isV4))

/-- An address of version 4 that many machines have at the same time, as all on a network do. -/
def isSharedV4 : IpAddress → Bool
  | v4 ip => ip = ⟨255, 255, 255, 255⟩ || ip = ⟨127, 255, 255, 255⟩ || (224 ≤ ip.a && ip.a < 240)
  | v6 _ => false

def firstGroup : IpAddress → UInt16
  | v4 _ => 0
  | v6 ip => ip.groups.headD 0

/-- An address of version 6 that many machines have at the same time. -/
def isGroupV6 (ip : IpAddress) : Bool := ip.firstGroup ≥ 0xff00

/-- An address of version 6 that is good on one network alone, so that the network has to be said
beside it. -/
def isLinkLocal (ip : IpAddress) : Bool := ip.firstGroup &&& 0xffc0 = 0xfe80

/-- An address for which a network can be said by its name. -/
def isNamedZone (ip : IpAddress) : Bool :=
  ip.isLinkLocal || [0xff01, 0xff02].contains (ip.firstGroup &&& 0xff0f)

end IpAddress

def localhost : IpAddress := .v4 ⟨127, 0, 0, 1⟩

def localhostV6 : IpAddress := .v6 ⟨[0, 0, 0, 0, 0, 0, 0, 1], rfl⟩

/-! ### Reading -/

open Text (Reader)
open Text.Reader (Numeral char number whole)

/-- An octet has at most three digits and no leading zero. -/
def octet : Numeral := ⟨10, some 3, false, 255⟩

/-- A group has at most four digits. -/
def group : Numeral := ⟨16, some 4, true, 65535⟩

def portNumber : Numeral := ⟨10, none, true, 65535⟩

def zoneNumber : Numeral := ⟨10, none, true, 4294967295⟩

def readIPv4 : Reader IPv4 := fun cs => do
  let (a, cs) ← number octet cs
  let (b, cs) ← number octet (← char '.' cs)
  let (c, cs) ← number octet (← char '.' cs)
  let (d, cs) ← number octet (← char '.' cs)
  return (⟨.ofNat a, .ofNat b, .ofNat c, .ofNat d⟩, cs)

def IPv4.groups (ip : IPv4) : List UInt16 :=
  [ip.a.toUInt16 <<< 8 ||| ip.b.toUInt16, ip.c.toUInt16 <<< 8 ||| ip.d.toUInt16]

/-- Reads up to `most` groups separated by colons, the last two perhaps in the form of a version 4
address, and says whether they were. -/
def readGroups : Bool → Nat → List Char → List UInt16 × Bool × List Char
  | _, 0, cs => ([], false, cs)
  | isFirst, most + 1, cs =>
    let start := if isFirst then some cs else char ':' cs
    match (if most = 0 then none else start.bind readIPv4) with
    | some (ip, rest) => (ip.groups, true, rest)
    | none =>
      match start.bind (number group) with
      | some (g, rest) =>
        let (more, isV4, rest) := readGroups false most rest
        (.ofNat g :: more, isV4, rest)
      | none => ([], false, cs)

def IPv6.ofGroups? (groups : List UInt16) : Option IPv6 :=
  if h : groups.length = 8 then some ⟨groups, h⟩ else none

/-- Reads a version 6 address. A `::` stands for one group of zeros or more, and no version 4 form
comes before it. -/
def readIPv6 : Reader IPv6 := fun cs =>
  let (front, isV4, rest) := readGroups true 8 cs
  if front.length = 8 then (IPv6.ofGroups? front).map (·, rest)
  else if isV4 then none
  else do
    let rest ← char ':' rest
    let rest ← char ':' rest
    let (back, _, rest) := readGroups true (7 - front.length) rest
    let zeros := List.replicate (8 - front.length - back.length) 0
    return (← IPv6.ofGroups? (front ++ zeros ++ back), rest)

def readPort (cs : List Char) : Option (UInt16 × List Char) := do
  let (n, rest) ← number portNumber (← char ':' cs)
  return (.ofNat n, rest)

/-- Reads the number of a zone after `%`; without one the zone is 0 and nothing is read. -/
def readZone (cs : List Char) : Nat × List Char :=
  ((char '%' cs).bind (number zoneNumber)).getD (0, cs)

def readSocketV4 : Reader SocketAddress := fun cs => do
  let (ip, cs) ← readIPv4 cs
  let (port, cs) ← readPort cs
  return (⟨.v4 ip, 0, port⟩, cs)

def readSocketV6 : Reader SocketAddress := fun cs => do
  let (ip, cs) ← readIPv6 (← char '[' cs)
  let (zone, cs) := readZone cs
  let (port, cs) ← readPort (← char ']' cs)
  return (⟨.v6 ip, zone, port⟩, cs)

def IpAddress.parse? (s : String) : Option IpAddress :=
  (whole readIPv4 s.toList).map .v4 <|> (whole readIPv6 s.toList).map .v6

def SocketAddress.parse? (cs : List Char) : Option SocketAddress :=
  whole readSocketV4 cs <|> whole readSocketV6 cs

def SocketAddress.ofEndpoint? (endpoint : String) : Option SocketAddress :=
  let cs := endpoint.toList
  if scheme.toList.isPrefixOf cs then SocketAddress.parse? (cs.drop scheme.length) else none

end PeerMesh.Tcp
