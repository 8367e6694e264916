import PeerMesh.Engine.State
import PeerMesh.Text.Blank
import PeerMesh.Toml.Document

/-! How a node is set up: from a TOML file if there is one, and from variables of the environment,
which take precedence. A file that is no valid setup counts as if it were not there. -/

namespace PeerMesh
set_option autoImplicit false

/-- The setup of a node. Times are in milliseconds. -/
structure Settings where
  /-- The public name; the short form of the identity if absent. -/
  name : Option String
  discoveryPort : UInt16
  beaconInterval : Nat
  beaconEnabled : Bool
  /-- The address on which the inbox listens. -/
  bindHost : String
  /-- The port of the inbox; 0 for any that is free. -/
  inboxPort : UInt16
  /-- The address in the endpoint of the node; found out if absent. -/
  advertiseHost : Option String
  evasiveTimeout : Nat
  expiredTimeout : Nat
  reapInterval : Nat
  /-- How many messages may wait for one peer. -/
  mailboxCapacity : Nat
  /-- The groups to join at the start, perhaps with repetitions. -/
  groups : List String
  headers : Headers

namespace Settings

/-- The setup of a node that nobody set up. -/
def usual : Settings where
  name := none
  discoveryPort := 5670
  beaconInterval := 1000
  beaconEnabled := true
  bindHost := "0.0.0.0"
  inboxPort := 0
  advertiseHost := none
  evasiveTimeout := Timing.usual.evasive
  expiredTimeout := Timing.usual.expired
  reapInterval := Timing.usual.reap
  mailboxCapacity := 3000
  groups := []
  headers := .empty

/-- The timing of the engine. It looks for silence at most once in a millisecond. -/
def timing (s : Settings) : Timing := ⟨s.evasiveTimeout, s.expiredTimeout, max 1 s.reapInterval⟩

/-- The time between two beacons, a millisecond at least. -/
def beaconPeriod (s : Settings) : Nat := max 1 s.beaconInterval

/-! ### Settings in a file -/

section
open Toml (Value)

def text? : Value → Option String
  | .text s => some s
  | _ => none

def boolean? : Value → Option Bool
  | .boolean b => some b
  | _ => none

def natural? : Value → Option Nat
  | .integer (.ofNat n) => some n
  | _ => none

def port? (v : Value) : Option UInt16 := do
  let n ← natural? v
  if n < 65536 then some (.ofNat n) else none

def texts? : Value → Option (List String)
  | .array items => items.mapM text?
  | _ => none

/-- The key under which a date or a time stands that is given in place of headers. -/
def momentKey : String := "$__toml_private_datetime"

/-- Headers are a table of texts, or a date or a time, which counts as a table with one entry. -/
def headers? : Value → Option Headers
  | .table _ entries => do
    return .ofList (← entries.mapM fun (key, v) => do return (key, ← text? v))
  | .moment m => some (.ofList [(momentKey, m.text)])
  | _ => none

/-- Changes the setting of a name. There are no others, and each takes one kind of value. -/
def set? (s : Settings) (key : String) (v : Value) : Option Settings :=
  match key with
  | "name" => do return { s with name := some (← text? v) }
  | "discovery_port" => do return { s with discoveryPort := ← port? v }
  | "beacon_interval_ms" => do return { s with beaconInterval := ← natural? v }
  | "beacon_enabled" => do return { s with beaconEnabled := ← boolean? v }
  | "bind_host" => do return { s with bindHost := ← text? v }
  | "inbox_port" => do return { s with inboxPort := ← port? v }
  | "advertise_host" => do return { s with advertiseHost := some (← text? v) }
  | "evasive_timeout_ms" => do return { s with evasiveTimeout := ← natural? v }
  | "expired_timeout_ms" => do return { s with expiredTimeout := ← natural? v }
  | "reap_interval_ms" => do return { s with reapInterval := ← natural? v }
  | "mailbox_capacity" => do return { s with mailboxCapacity := ← natural? v }
  | "groups" => do return { s with groups := ← texts? v }
  | "headers" => do return { s with headers := ← headers? v }
  | _ => none

/-- The setup that a text describes; what it does not mention is as usual. -/
def ofToml? (text : String) : Option Settings := do
  match ← Toml.parse? text with
  | .table _ entries => entries.foldlM (fun s (key, v) => s.set? key v) usual
  | _ => none

end

/-! ### Settings in the environment -/

/-- The port that a variable names: digits, perhaps after a plus sign. -/
def portOf? (s : String) : Option UInt16 :=
  let digits := match s.toList with
    | '+' :: cs => cs
    | cs => cs
  (Text.Reader.whole (Text.Reader.number ⟨10, none, true, 65535⟩) digits).map .ofNat

/-- The groups in a list with commas, without blank ones and without the blanks around them. -/
def groupsOf (s : String) : List String :=
  (s.splitOn ",").filterMap fun part =>
    match Text.trim part.toList with
    | [] => none
    | cs => some (String.ofList cs)

/-- The setup with what the variables of an environment say. A port that is none is ignored. -/
def withEnvironment (s : Settings) (look : String → Option String) : Settings :=
  { s with
    name := look "ZRE_NAME" <|> s.name
    discoveryPort := ((look "ZRE_DISCOVERY_PORT").bind portOf?).getD s.discoveryPort
    inboxPort := ((look "ZRE_INBOX_PORT").bind portOf?).getD s.inboxPort
    advertiseHost := look "ZRE_ADVERTISE_HOST" <|> s.advertiseHost
    groups := ((look "ZRE_GROUPS").map groupsOf).getD s.groups }

/-- The files that may hold the setup; the first that exists counts. -/
def paths (home : Option String) : List String :=
  (home.map fun dir => (if dir.isEmpty then "" else dir ++ "/") ++ ".config/zre/config.toml").toList ++
    ["/etc/zre/config.toml"]

def load (file : Option ByteArray) (look : String → Option String) : Settings :=
  let fromFile := do ofToml? (← String.fromUTF8? (← file))
  (fromFile.getD usual).withEnvironment look

end Settings
end PeerMesh
