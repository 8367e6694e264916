import PeerMesh.Message
import PeerMesh.Text.Hex
import PeerMesh.Text.Quoted

/-! The wire form of messages. A message is a head frame, followed by its content frames if it is
a WHISPER or a SHOUT. The head frame holds, with every number in big-endian order,

    signature  2 bytes  AA A1
    id         1 byte   the command
    version    1 byte   2
    sequence   2 bytes
    …                   the fields of the command

A string is a length byte and that many bytes of UTF-8; a list of strings is a count byte and the
strings; headers are a count byte and strings of the form `key=value`. -/

namespace PeerMesh.Wire
set_option autoImplicit false

def signature : UInt16 := 0xAAA1

def version : UInt8 := 2

/-- The longest string, and the longest list, that a length or count byte can describe. -/
def limit : Nat := 255

/-- The parts of a head frame, as errors name them. -/
inductive Field
  | signature
  | id
  | version
  | sequence
  | endpoint
  | groups
  | group
  | status
  | name
  | headers
  deriving DecidableEq

def Field.text : Field → String
  | signature => "signature"
  | id => "id"
  | version => "version"
  | sequence => "sequence"
  | endpoint => "endpoint"
  | groups => "groups"
  | group => "group"
  | status => "status"
  | name => "name"
  | headers => "headers"

/-! ### Encoding -/

inductive EncodeError
  | stringTooLong (field : Field) (bytes : Nat)
  | tooManyItems (field : Field) (count : Nat)
  | headerKey (key : String)
  deriving DecidableEq

def EncodeError.message : EncodeError → String
  | stringTooLong field bytes =>
    field.text ++ " string is " ++ toString bytes ++ " bytes, limit is " ++ toString limit
  | tooManyItems field count =>
    field.text ++ " has " ++ toString count ++ " entries, limit is " ++ toString limit
  | headerKey key => "header key " ++ Text.quoted key ++ " contains '='"

/-- The two bytes of a number, high byte first. -/
def ofUInt16 (n : UInt16) : List UInt8 := [(n >>> 8).toUInt8, n.toUInt8]

def utf8 (s : String) : List UInt8 := s.toByteArray.data.toList

def ofString (field : Field) (s : String) : Except EncodeError (List UInt8) :=
  if s.utf8ByteSize ≤ limit then .ok (UInt8.ofNat s.utf8ByteSize :: utf8 s)
  else .error (.stringTooLong field s.utf8ByteSize)

def ofEach (field : Field) : List String → Except EncodeError (List UInt8)
  | [] => .ok []
  | s :: rest => do
    let head ← ofString field s
    let tail ← ofEach field rest
    return head ++ tail

def ofStrings (field : Field) (list : List String) : Except EncodeError (List UInt8) :=
  if list.length ≤ limit then do
    let items ← ofEach field list
    return UInt8.ofNat list.length :: items
  else .error (.tooManyItems field list.length)

/-- A header as the string `key=value`. The first `=` ends the key, so a key holds none. -/
def ofHeader (key value : String) : Except EncodeError (List UInt8) :=
  if '=' ∈ key.toList then .error (.headerKey key)
  else ofString .headers (key ++ "=" ++ value)

def ofEachHeader : List (String × String) → Except EncodeError (List UInt8)
  | [] => .ok []
  | (key, value) :: rest => do
    let head ← ofHeader key value
    let tail ← ofEachHeader rest
    return head ++ tail

def ofHeaders (headers : Headers) : Except EncodeError (List UInt8) :=
  if headers.size ≤ limit then do
    let items ← ofEachHeader headers.entries
    return UInt8.ofNat headers.size :: items
  else .error (.tooManyItems .headers headers.size)

/-- The fields of a command, in the order in which they stand on the wire. -/
def ofFields : Body → Except EncodeError (List UInt8)
  | .hello h => do
    let endpoint ← ofString .endpoint h.endpoint
    let groups ← ofStrings .groups h.groups
    let name ← ofString .name h.name
    let headers ← ofHeaders h.headers
    return endpoint ++ groups ++ h.status :: name ++ headers
  | .shout group _ => ofString .group group
  | .join group status | .leave group status => do
    let group ← ofString .group group
    return group ++ [status]
  | .whisper _ | .ping | .pingOk => .ok []

/-- The bytes before the fields. -/
def preamble (m : Message) : List UInt8 :=
  ofUInt16 signature ++ [m.body.command.code, version] ++ ofUInt16 m.sequence

def encodeHead (m : Message) : Except EncodeError (List UInt8) := do
  let fields ← ofFields m.body
  return preamble m ++ fields

def contentFrames : Body → Content
  | .whisper content | .shout _ content => content
  | _ => []

def encode (m : Message) : Except EncodeError Content := do
  let head ← encodeHead m
  return ⟨head.toArray⟩ :: contentFrames m.body

/-! ### Decoding -/

inductive DecodeError
  | empty
  | truncated (field : Field)
  | badSignature (found : UInt16)
  | unknownCommand (code : UInt8)
  | badVersion (found : UInt8)
  | invalidUtf8 (field : Field)
  | badHeader
  deriving DecidableEq

def DecodeError.message : DecodeError → String
  | empty => "no frames"
  | truncated field => "truncated while reading " ++ field.text
  | badSignature found =>
    "invalid signature 0x" ++ String.ofList (Hex.encode .lower (ofUInt16 found))
  | unknownCommand code => "unknown command id " ++ toString code.toNat
  | badVersion found => "unsupported protocol version " ++ toString found.toNat
  | invalidUtf8 field => "invalid utf-8 in " ++ field.text
  | badHeader => "header entry without '='"

/-- Reads a value off the front of a head frame and leaves the rest. -/
abbrev Reader (α : Type) := List UInt8 → Except DecodeError (α × List UInt8)

/-- The first `n` elements and the rest; `none` if there are fewer. -/
def takeExact {α : Type} : Nat → List α → Option (List α × List α)
  | 0, l => some ([], l)
  | _ + 1, [] => none
  | n + 1, a :: l => (takeExact n l).map fun (taken, rest) => (a :: taken, rest)

def readByte (field : Field) : Reader UInt8
  | b :: rest => .ok (b, rest)
  | [] => .error (.truncated field)

def readUInt16 (field : Field) : Reader UInt16
  | hi :: lo :: rest => .ok (hi.toUInt16 <<< 8 ||| lo.toUInt16, rest)
  | _ => .error (.truncated field)

def readString (field : Field) : Reader String := fun bytes => do
  let (length, rest) ← readByte field bytes
  match takeExact length.toNat rest with
  | none => .error (.truncated field)
  | some (text, rest) =>
    match String.fromUTF8? ⟨text.toArray⟩ with
    | some s => .ok (s, rest)
    | none => .error (.invalidUtf8 field)

def readEach (field : Field) : Nat → Reader (List String)
  | 0, bytes => .ok ([], bytes)
  | n + 1, bytes => do
    let (s, bytes) ← readString field bytes
    let (list, bytes) ← readEach field n bytes
    return (s :: list, bytes)

def readStrings (field : Field) : Reader (List String) := fun bytes => do
  let (count, rest) ← readByte field bytes
  readEach field count.toNat rest

/-- The parts of `key=value` around the first `=`. -/
def splitHeader? (entry : String) : Option (String × String) :=
  match entry.toList.span (· ≠ '=') with
  | (key, _ :: value) => some (String.ofList key, String.ofList value)
  | (_, []) => none

/-- Reads `n` headers into the ones read before; a repeated key takes its last value. -/
def readEachHeader : Nat → Headers → Reader Headers
  | 0, headers, bytes => .ok (headers, bytes)
  | n + 1, headers, bytes => do
    let (entry, bytes) ← readString .headers bytes
    match splitHeader? entry with
    | none => .error .badHeader
    | some (key, value) => readEachHeader n (headers.insert key value) bytes

def readHeaders : Reader Headers := fun bytes => do
  let (count, rest) ← readByte .headers bytes
  readEachHeader count.toNat .empty rest

def readHello : Reader Hello := fun bytes => do
  let (endpoint, bytes) ← readString .endpoint bytes
  let (groups, bytes) ← readStrings .groups bytes
  let (status, bytes) ← readByte .status bytes
  let (name, bytes) ← readString .name bytes
  let (headers, bytes) ← readHeaders bytes
  return (⟨endpoint, groups, status, name, headers⟩, bytes)

/-- Reads the fields of a command; the content of a message comes from elsewhere. -/
def readFields (content : Content) : Command → Reader Body
  | .hello, bytes => do
    let (hello, bytes) ← readHello bytes
    return (.hello hello, bytes)
  | .whisper, bytes => .ok (.whisper content, bytes)
  | .shout, bytes => do
    let (group, bytes) ← readString .group bytes
    return (.shout group content, bytes)
  | .join, bytes => do
    let (group, bytes) ← readString .group bytes
    let (status, bytes) ← readByte .status bytes
    return (.join group status, bytes)
  | .leave, bytes => do
    let (group, bytes) ← readString .group bytes
    let (status, bytes) ← readByte .status bytes
    return (.leave group status, bytes)
  | .ping, bytes => .ok (.ping, bytes)
  | .pingOk, bytes => .ok (.pingOk, bytes)

def readHead (content : Content) : Reader Message := fun bytes => do
  let (sig, bytes) ← readUInt16 .signature bytes
  if sig ≠ signature then throw (.badSignature sig)
  let (code, bytes) ← readByte .id bytes
  let some command := Command.ofCode? code | throw (.unknownCommand code)
  let (ver, bytes) ← readByte .version bytes
  if ver ≠ version then throw (.badVersion ver)
  let (sequence, bytes) ← readUInt16 .sequence bytes
  let (body, bytes) ← readFields content command bytes
  return (⟨sequence, body⟩, bytes)

/-- The message of a head frame and the frames behind it, which only WHISPER and SHOUT use. Bytes
after the last field have no meaning. -/
def decodeHead (head : ByteArray) (content : Content) : Except DecodeError Message :=
  (readHead content head.data.toList).map (·.1)

def decode : Content → Except DecodeError Message
  | [] => .error .empty
  | head :: content => decodeHead head content

/-- The message of a head frame that stands alone. -/
def decodeFrame (head : ByteArray) : Except DecodeError Message := decodeHead head []

end PeerMesh.Wire
