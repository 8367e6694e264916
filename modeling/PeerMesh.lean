import PeerMesh.Main
import PeerMesh.Site
import PeerMesh.World
import PeerMesh.Proofs.Station.Reporting
import PeerMesh.Proofs.World.Agreement
import PeerMesh.Proofs.World.Delivery
import PeerMesh.Proofs.World.Rest
import PeerMesh.Proofs.World.Settling
import PeerMesh.Proofs.Tcp.Crossing
import PeerMesh.Proofs.World.Sequence
import PeerMesh.Proofs.Station.Books
import PeerMesh.Proofs.Station.Outbound
import PeerMesh.Proofs.Station.Abiding
import PeerMesh.Proofs.Station.Calls
import PeerMesh.Proofs.Station.Answers
import PeerMesh.Proofs.Station.Hearing
import PeerMesh.Proofs.Station.Gaps
import PeerMesh.Proofs.Wire.Grammar
import PeerMesh.Proofs.Tcp.Sizes
import PeerMesh.Proofs.Station.Commuting
import PeerMesh.Proofs.Tcp.Usage
import PeerMesh.Proofs.Tcp.Connections
import PeerMesh.Proofs.Station.Liveness
import PeerMesh.Proofs.World.Rounds
import PeerMesh.Proofs.Station.Containment
import PeerMesh.Proofs.Actor.Order
import PeerMesh.Proofs.Node.InStep
import PeerMesh.Proofs.Wire.Cuts
import PeerMesh.Proofs.Wire.Violations
import PeerMesh.Proofs.Wire.Normal
import PeerMesh.Proofs.Station.Entrance
import PeerMesh.Proofs.Station.Room
import PeerMesh.Proofs.Network.Queues
import PeerMesh.Proofs.Station.Fanout
import PeerMesh.Proofs.Station.Sweeping
import PeerMesh.Proofs.Identity
import PeerMesh.Proofs.Tcp.Address
import PeerMesh.Proofs.Node.Beacons
import PeerMesh.Proofs.Node.Refusals
import PeerMesh.Proofs.Station.Numbering
