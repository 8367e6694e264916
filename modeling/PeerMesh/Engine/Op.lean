import PeerMesh.Engine.Station

/-! Everything that can be done to an engine, as data. -/

namespace PeerMesh
set_option autoImplicit false

inductive Op
  | setHeader (key value : String)
  | join (group : String)
  | leave (group : String)
  | whisper (peer : PeerId) (content : Content)
  | shout (group : String) (content : Content)
  | shutdown
  | discover (sighting : Sighting) (now : Nat)
  | receive (routingId : List UInt8) (frames : Content) (now : Nat)
  | reap (now : Nat)
  | drain
  deriving DecidableEq

namespace Station
variable {κ μ : Type} [Carriage κ μ]

/-- Does one thing to an engine. Only the commands that add to the greeting can be refused. -/
def perform (walk : Walk) (s : Station κ μ) : Op → Except CommandError Unit × Station κ μ
  | .setHeader key value => s.setHeader key value
  | .join group => s.join walk group
  | .leave group => (.ok (), s.leave walk group)
  | .whisper peer content => (.ok (), s.whisper peer content)
  | .shout group content => (.ok (), s.shout group content)
  | .shutdown => (.ok (), s.shutdown walk)
  | .discover sighting now => (.ok (), s.discover walk sighting now)
  | .receive routingId frames now => (.ok (), s.receive walk routingId frames now)
  | .reap now => (.ok (), s.reap walk now)
  | .drain => (.ok (), s.drain.2)

def step (walk : Walk) (s : Station κ μ) (op : Op) : Station κ μ := (s.perform walk op).2

end Station
end PeerMesh
