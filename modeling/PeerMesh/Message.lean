import PeerMesh.Sorted.Map

/-! What nodes say to each other. A message is a sequence number and a body; who sent it is not
part of it and travels as the routing id of the connection. -/

namespace PeerMesh
set_option autoImplicit false

/-- Equality of bytes is decided in one way, whatever other ways are in scope. -/
instance (priority := high) instDecidableEqBytes : DecidableEq ByteArray := ByteArray.instDecidableEq

/-- Opaque payload, one entry for each frame of the carriage. -/
abbrev Content := List ByteArray

/-- The headers a node publishes about itself, in ascending order of key. -/
abbrev Headers := SortedMap String String

/-- What a node says first on every connection. -/
structure Hello where
  /-- Where the sender's inbox listens. -/
  endpoint : String
  groups : List String
  /-- The sender's count of joins and leaves. -/
  status : UInt8
  name : String
  headers : Headers
  deriving DecidableEq, Inhabited

inductive Body
  | hello (hello : Hello)
  | whisper (content : Content)
  | shout (group : String) (content : Content)
  | join (group : String) (status : UInt8)
  | leave (group : String) (status : UInt8)
  | ping
  | pingOk
  deriving DecidableEq

inductive Command
  | hello
  | whisper
  | shout
  | join
  | leave
  | ping
  | pingOk
  deriving DecidableEq

namespace Command

def code : Command → UInt8
  | hello => 1
  | whisper => 2
  | shout => 3
  | join => 4
  | leave => 5
  | ping => 6
  | pingOk => 7

def ofCode? (b : UInt8) : Option Command :=
  [hello, whisper, shout, join, leave, ping, pingOk].find? fun c => decide (c.code = b)

def name : Command → String
  | hello => "HELLO"
  | whisper => "WHISPER"
  | shout => "SHOUT"
  | join => "JOIN"
  | leave => "LEAVE"
  | ping => "PING"
  | pingOk => "PING_OK"

theorem ofCode?_eq_some {b : UInt8} {c : Command} : ofCode? b = some c ↔ b = c.code := by
  constructor
  · intro h
    exact (by simpa using List.find?_some h : c.code = b).symm
  · rintro rfl
    cases c <;> rfl

end Command

def Body.command : Body → Command
  | .hello _ => .hello
  | .whisper _ => .whisper
  | .shout _ _ => .shout
  | .join _ _ => .join
  | .leave _ _ => .leave
  | .ping => .ping
  | .pingOk => .pingOk

/-- One message on a connection. The sequence number counts the messages of the connection,
starting over after 65535. -/
structure Message where
  sequence : UInt16
  body : Body
  deriving DecidableEq

def Message.isHello (m : Message) : Bool := m.body.command = .hello

end PeerMesh
