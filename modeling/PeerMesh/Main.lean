import PeerMesh.Program
import PeerMesh.Tcp.Feed
import Std.Async.DNS
import Std.Async.Signal
import Std.Async.TCP
import Std.Async.Timer
import Std.Async.UDP
import Std.Sync.Channel

/-! The program itself: sockets, signals, the clock and the log. Everything that happens is put into
one queue, and one loop lets the node take it and then does what the mailboxes of the node ask for.
What is decided, the library decides; here it is only carried out. -/

namespace PeerMesh.Daemon
set_option autoImplicit false
open Std.Async
open Std.Async.TCP.Socket (Client Server)

/-- What the loop waits for: something around the node, or the wish to end. -/
abbrev Notice := Option Happening

abbrev Tell := Notice → BaseIO Unit

/-! ### Addresses -/

def toNet (a : Tcp.SocketAddress) : Std.Net.SocketAddress :=
  match a.ip with
  | .v4 ip => .v4 ⟨.ofParts ip.a ip.b ip.c ip.d, a.port⟩
  | .v6 ip => .v6 ⟨⟨⟨ip.groups.toArray, by simp [ip.length_groups]⟩⟩, a.port⟩

def ofNetIp : Std.Net.IPAddr → Tcp.IpAddress
  | .v4 ip => .v4 ⟨ip.octets[0], ip.octets[1], ip.octets[2], ip.octets[3]⟩
  | .v6 ip => .v6 ⟨ip.segments.toList, by simp⟩

def ofNet (a : Std.Net.SocketAddress) : Tcp.SocketAddress := ⟨ofNetIp a.ipAddr, 0, a.port⟩

/-- The address from which datagrams leave. Nothing is sent to find it out. -/
def outward : IO (Option Tcp.IpAddress) := do
  try
    let socket ← UDP.Socket.mk
    socket.connect (.v4 ⟨.ofParts 192 0 2 1, 9⟩)
    let ip := ofNetIp (← socket.getSockName).ipAddr
    return if ip.isUnspecified then none else some ip
  catch _ => return none

def resolve (host : String) : IO (List Tcp.IpAddress) := do
  match Tcp.IpAddress.parse? host with
  | some ip => return [ip]
  | none => return (← (DNS.getAddrInfo host "").block).toList.map ofNetIp

/-! ### The inbox -/

/-- Binds the inbox to the first address of a host that takes it. -/
def listen (host : String) (port : UInt16) : IO (Server × Tcp.SocketAddress) := do
  let ips ← resolve host
  let attempts := ips.map fun ip => show IO (Server × Tcp.SocketAddress) from do
    let server ← Server.mk
    server.bind (toNet ⟨ip, 0, port⟩)
    server.listen 1024
    return (server, ofNet (← server.getSockName))
  attempts.foldr (fun attempt rest => try attempt catch _ => rest)
    (attempts.headD (throw (.userError "no address")))

def readConnection (tell : Tell) (client : Client) : Async Unit := do
  let feed ← IO.mkRef Tcp.Feed.new
  repeat
    let some piece ← client.recv? 65536 | break
    let (messages, next) := (← feed.get).push piece
    feed.set next
    for content in messages do
      tell (some (.message ⟨next.routingId.getD [], content⟩))
    if next.broken then break

def accept (tell : Tell) (server : Server) : Async Unit := do
  repeat
    let client ← server.accept
    let _ ← async (readConnection tell client)

/-! ### Mailboxes -/

/-- The bytes that the writer of a mailbox is to put on its connection; closed at the end. -/
abbrev Outbox := Std.CloseableChannel ByteArray

def write (tell : Tell) (box : Tcp.Mailbox) (link : Tcp.Link) (outbox : Outbox) : Async Unit := do
  let say (act : Tcp.Link.Act) : Async Unit := tell (some (.link box act))
  let client ← Client.mk
  try
    client.connect (toNet link.address)
    client.noDelay
    client.send ⟨link.routingId.toArray⟩
  catch _ =>
    say (.connect false)
    return
  say (.connect true)
  repeat
    let some bytes ← await (← outbox.recv) | break
    try
      client.send bytes
    catch _ =>
      say (.write false)
      return
    say (.write true)

/-- Starts the writers of new mailboxes, and hands every idle writer its next message. What was
written before need not be remembered. -/
def serve (tell : Tell) (outboxes : Array Outbox) (node : TcpNode) :
    IO (Array Outbox × TcpNode) := do
  let mut outboxes := outboxes
  let mut node := node
  for (link, i) in (TcpNode.links node).zipIdx do
    let box : Tcp.Mailbox := ⟨i⟩
    if i ≥ outboxes.size then
      let outbox ← Std.CloseableChannel.new
      outboxes := outboxes.push outbox
      let _ ← EAsync.asTask (write tell box link outbox)
    if link.writer = .idle then
      node := node.editLink box fun l => { l.act .take with written := [] }
      match (link.act .take).writer, outboxes[i]? with
      | .writing content, some outbox =>
        if let .ok bytes := Tcp.writeMessage content then let _ ← outbox.send bytes
      | .ended, some outbox => outbox.close
      | _, _ => pure ()
  return (outboxes, node)

/-! ### Beacons -/

def openBeaconing (settings : Settings) : IO UDP.Socket := do
  let socket ← UDP.Socket.mk
  socket.bind (.v4 ⟨.ofParts 0 0 0 0, settings.discoveryPort⟩)
  socket.setBroadcast true
  return socket

def announce (tell : Tell) (socket : UDP.Socket) (beacon : Beacon) (settings : Settings) :
    IO Unit := do
  let hear : Async Unit := do
    repeat
      let (bytes, source) ← socket.recv (UInt64.ofNat Beacon.bufferSize)
      match source.map (ofNetIp ·.ipAddr) with
      | some (.v4 ip) => tell (some (.datagram ip bytes.data.toList))
      | _ => pure ()
  let speak : Async Unit := do
    repeat
      try
        socket.send ⟨beacon.encode.toArray⟩
          (some (.v4 ⟨.ofParts 255 255 255 255, settings.discoveryPort⟩))
      catch _ => pure ()
      sleep (.ofNat settings.beaconPeriod)
  let _ ← EAsync.asTask hear
  let _ ← EAsync.asTask speak

def withdraw (socket : UDP.Socket) (beacon : Beacon) (settings : Settings) : IO Unit := do
  try
    (socket.send ⟨{ beacon with port := 0 }.encode.toArray⟩
      (some (.v4 ⟨.ofParts 255 255 255 255, settings.discoveryPort⟩))).block
  catch _ => pure ()

/-! ### The clock, signals and the log -/

def tick (tell : Tell) (settings : Settings) : Async Unit := do
  repeat
    sleep (.ofNat settings.timing.reap)
    tell (some .sweep)

def watch (tell : Tell) (signal : Signal) : Async Unit := do
  let waiter ← Signal.Waiter.mk signal false
  let _ ← await (← waiter.wait)
  tell none

def log (filter : Log.Filter) (r : Log.Record) : IO Unit := do
  if filter.passes r then
    let now := Std.Time.WallTime.ofTimestamp (← Std.Time.Timestamp.now) Std.Time.TimeZone.UTC.offset
    let time := (Std.Time.PlainDateTime.ofWallTime now).format "uuuu-MM-dd'T'HH:mm:ss.SSSSSS'Z'"
    let out ← IO.getStdout
    out.putStrLn (time ++ " " ++ (if r.level.name.length < 5 then " " else "") ++ r.line)
    out.flush

def logNode (filter : Log.Filter) (node : TcpNode) : IO TcpNode := do
  let (records, node) := Program.takeRecords node
  records.forM (log filter)
  return node

/-! ### The program -/

/-- Lets the node take one thing after the other until the program is to end, or until the task of the
node has broken down. -/
def run (filter : Log.Filter) (next : IO Notice) (tell : Tell) (node : TcpNode) : IO TcpNode := do
  let mut node := node
  let mut outboxes : Array Outbox := #[]
  repeat
    let (more, served) ← serve tell outboxes node
    outboxes := more
    node ← logNode filter served
    let some happening ← next | break
    node := TcpNode.absorb (← IO.monoMsNow) node happening
    if node.actor?.any (·.ended) then break
  return node

/-- Starts a node on a new inbox, with a socket for its beacons if it is to announce itself. -/
def start (node : TcpNode) : IO (Option Server × Option UDP.Socket × Except NodeError TcpNode) := do
  let settings := node.settings
  let (server, bound) ← try
      let (server, address) ← listen settings.bindHost settings.inboxPort
      pure (some server, Except.ok address)
    catch e => pure (none, .error (.other (toString e)))
  let (socket, published) ← if settings.beaconEnabled then
      try pure (some (← openBeaconing settings), Except.ok ())
      catch e => pure (none, .error (.other (toString e)))
    else pure (none, .ok ())
  let started := node.start .ascending bound (← outward) published (.new settings.mailboxCapacity)
  return (server, socket, started)

/-- The settings in the first file that exists, if it can be read, and in the environment. -/
def load : IO Settings := do
  let names := ["ZRE_NAME", "ZRE_DISCOVERY_PORT", "ZRE_INBOX_PORT", "ZRE_ADVERTISE_HOST", "ZRE_GROUPS"]
  let values ← names.filterMapM fun name => do return (← IO.getEnv name).map (name, ·)
  let home ← IO.getEnv "HOME"
  let file ← (Settings.paths home).findSomeM? fun (path : String) => do
    try return some (some (← IO.FS.readBinFile path))
    catch
      | .noFileOrDirectory .. => return none
      | _ => return some none
  return Settings.load file.join fun name => values.lookup name

def main : IO UInt32 := do
  let filter := Program.filterOf (← IO.getEnv "RUST_LOG")
  let settings ← load
  let noise ← IO.getRandomBytes 16
  let id := (PeerId.ofRandom? noise.data.toList).getD default
  let (server, socket, started) ← start (Node.new settings id)
  match started, server with
  | .ok node, some server =>
    let queue ← Std.Channel.new
    let tell : Tell := fun notice => do let _ ← queue.send notice
    let beaconing := node.phase.beacon?.bind fun beacon => socket.map (beacon, ·)
    if let some (beacon, socket) := beaconing then announce tell socket beacon settings
    for signal in [Signal.sigint, .sigterm] do
      let _ ← EAsync.asTask (watch tell signal)
    let _ ← EAsync.asTask (accept tell server)
    let _ ← EAsync.asTask (tick tell settings)
    let node ← logNode filter node
    log filter (Program.runningRecord id node.name (node.endpoint?.getD ""))
    let node ← run filter queue.sync.recv tell node
    if let some (beacon, socket) := beaconing then withdraw socket beacon settings
    let _ ← logNode filter (TcpNode.halt (← IO.monoMsNow) node)
    return 0
  | .error e, _ =>
    IO.eprint (Program.startFailure e)
    return 1
  | .ok _, none => return 1

end PeerMesh.Daemon

def main (args : List String) : IO UInt32 := do
  if PeerMesh.Program.asksVersion args then
    IO.println PeerMesh.Program.versionLine
    return 0
  PeerMesh.Daemon.main
