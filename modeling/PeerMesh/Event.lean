import PeerMesh.Identity
import PeerMesh.Message

/-! What a node reports to its application, in the order in which it happened. -/

namespace PeerMesh
set_option autoImplicit false

/-- One report. All but the last concern a peer and carry its name. -/
inductive Event
  /-- A peer completed its greeting and is visible from now on. -/
  | enter (peer : PeerId) (name : String) (headers : Headers) (endpoint : String)
  | exit (peer : PeerId) (name : String)
  /-- A peer was silent long enough to be pinged. -/
  | evasive (peer : PeerId) (name : String)
  | join (peer : PeerId) (name : String) (group : String)
  | leave (peer : PeerId) (name : String) (group : String)
  | whisper (peer : PeerId) (name : String) (content : Content)
  | shout (peer : PeerId) (name : String) (group : String) (content : Content)
  /-- The node has shut down; nothing follows. -/
  | stop
  deriving DecidableEq

namespace Event

def kind : Event → String
  | enter .. => "ENTER"
  | exit .. => "EXIT"
  | evasive .. => "EVASIVE"
  | join .. => "JOIN"
  | leave .. => "LEAVE"
  | whisper .. => "WHISPER"
  | shout .. => "SHOUT"
  | stop => "STOP"

def peer? : Event → Option PeerId
  | enter peer .. | exit peer _ | evasive peer _ | join peer .. | leave peer .. | whisper peer ..
  | shout peer .. => some peer
  | stop => none

def name? : Event → Option String
  | enter _ name _ _ | exit _ name | evasive _ name | join _ name _ | leave _ name _
  | whisper _ name _ | shout _ name _ _ => some name
  | stop => none

def group? : Event → Option String
  | join _ _ group | leave _ _ group | shout _ _ group _ => some group
  | _ => none

def content? : Event → Option Content
  | whisper _ _ content | shout _ _ _ content => some content
  | _ => none

end Event
end PeerMesh
