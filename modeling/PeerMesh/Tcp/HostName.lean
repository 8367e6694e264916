import PeerMesh.Tcp.Address

/-! Names of hosts: addresses in all the forms that people write, and names proper, of which none
is known but that of the machine itself. -/

namespace PeerMesh.Tcp.HostName
set_option autoImplicit false

inductive Error
  /-- It has not the form of a name. -/
  | unknown
  /-- There is nobody to ask about it. -/
  | unanswered
  /-- It contains the character that ends names. -/
  | zeroByte
  deriving DecidableEq

def Error.message : Error → String
  | unknown => "failed to lookup address information: Name or service not known"
  | unanswered => "failed to lookup address information: Temporary failure in name resolution"
  | zeroByte => "file name contained an unexpected NUL byte"

/-- An address and the zone in which it is meant; zone 0 is no zone. -/
structure Address where
  ip : IpAddress
  zone : Nat
  deriving DecidableEq

/-! ### Addresses in numbers -/

/-- One part of an address in numbers: hexadecimal after `0x`, octal after `0`, else decimal. -/
def readPart : Text.Reader Nat
  | '0' :: 'x' :: cs | '0' :: 'X' :: cs => Text.Reader.number ⟨16, none, true, 4294967295⟩ cs
  | '0' :: cs => Text.Reader.number ⟨8, none, true, 4294967295⟩ ('0' :: cs)
  | cs => Text.Reader.number ⟨10, none, true, 4294967295⟩ cs

def readParts : Nat → Text.Reader (List Nat)
  | 0, _ => none
  | most + 1, cs => do
    let (part, rest) ← readPart cs
    match rest with
    | '.' :: rest =>
      let (parts, rest) ← readParts most rest
      return (part :: parts, rest)
    | rest => return ([part], rest)

/-- The number that parts of an address stand for. All but the last are single bytes, and the last
fills the bytes that are left. -/
def ofParts? : Nat → List Nat → Option Nat
  | left, [last] => if last < 256 ^ left then some last else none
  | left, part :: parts => do
    let n ← ofParts? (left - 1) parts
    if part < 256 then return part * 256 ^ (left - 1) + n else none
  | _, [] => none

/-- A version 4 address with up to four parts. -/
def numeric? (name : String) : Option IpAddress := do
  let parts ← Text.Reader.whole (readParts 4) name.toList
  let n ← ofParts? 4 parts
  return .v4 ⟨.ofNat (n / 16777216), .ofNat (n / 65536), .ofNat (n / 256), .ofNat n⟩

/-! ### Zones -/

def loopbackZone : Nat := 1

/-- Whether a text names the loopback network. A colon and what follows it do not matter, but for the
length. -/
def namesLoopback (cs : List Char) : Bool :=
  cs.takeWhile (· ≠ ':') = ['l', 'o'] && (String.ofList cs).utf8ByteSize ≤ 15

/-- The zone that the text after a percent sign stands for: its number, or its name where an
address has a meaning within it alone. -/
def zone? (ip : IpAddress) (cs : List Char) : Option Nat :=
  if ip.isNamedZone && namesLoopback cs then some loopbackZone
  else Text.Reader.whole (Text.Reader.number zoneNumber) cs

def zoned? (name : String) : Option Address := do
  let (ip, rest) ← readIPv6 name.toList
  return ⟨.v6 ip, ← zone? (.v6 ip) (← Text.Reader.char '%' rest)⟩

/-! ### Names proper -/

def push (c : Char) : List (List Char) → List (List Char)
  | part :: parts => (c :: part) :: parts
  | [] => [[c]]

/-- The parts of a name between its points. A backslash and three digits stand for the character of
that number; a backslash and another character stand for that character, even if it is a point. -/
def parts? : List Char → Option (List (List Char))
  | [] => some [[]]
  | '.' :: cs => (parts? cs).map ([] :: ·)
  | ['\\'] => none
  | ['\\', c] => if c.isDigit then none else some [[c]]
  | '\\' :: c :: d :: cs =>
    if c.isDigit then
      match cs with
      | [] => none
      | e :: rest =>
        let n := Text.Reader.ofDigits 10 [c, d, e]
        if d.isDigit && e.isDigit && n < 256 then (parts? rest).map (push (.ofNat n)) else none
    else (parts? (d :: cs)).map (push c)
  | c :: cs => (parts? cs).map (push c)

def isLabel (cs : List Char) : Bool :=
  !cs.isEmpty && cs.length ≤ 63 && cs.all fun c => c.isAlphanum || c = '-' || c = '_'

/-- Whether parts make up a name: with the points between them they have at most 253 characters, and
the first of these is no hyphen. -/
def isName (parts : List (List Char)) : Bool :=
  !parts.isEmpty && parts.all isLabel && parts.foldl (fun length part => length + (part.length + 1)) 0 ≤ 254 &&
    parts.head?.bind List.head? ≠ some '-'

/-- Whether a text has the form of a name. There may be one more point at the end of it. -/
def isWellFormed (name : String) : Bool :=
  name = "." ||
    match parts? name.toList with
    | none => false
    | some parts => isName (if parts.getLast? = some [] then parts.dropLast else parts)

def resolve (name : String) : Except Error Address :=
  match (IpAddress.parse? name <|> numeric? name).map (⟨·, 0⟩) <|> zoned? name with
  | some a => .ok a
  | none =>
    if name.contains '\x00' then .error .zeroByte
    else if name.toList.map Char.toLower = "localhost".toList then .ok ⟨localhost, 0⟩
    else if isWellFormed name then .error .unanswered
    else .error .unknown

end PeerMesh.Tcp.HostName
