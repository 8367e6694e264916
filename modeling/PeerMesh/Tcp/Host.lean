import PeerMesh.Tcp.HostName

/-! The machine on which nodes listen: which of its addresses a socket can be bound to, and which
addresses can be reached from it. -/

namespace PeerMesh.Tcp
set_option autoImplicit false

structure Host where
  loopback : Bool
  /-- The addresses of the other interfaces. -/
  addresses : List IpAddress
  /-- The address of the interface that leads outward. -/
  outward : Option IpAddress
  deriving DecidableEq

inductive BindError
  | addressInUse
  | addressNotAvailable
  /-- The address belongs to a group of machines, or it is good on one network alone and that network
  is not said. -/
  | invalidArgument
  | noSuchDevice
  | name (error : HostName.Error)
  /-- Any other cause, in the words of the system. -/
  | other (text : String)
  deriving DecidableEq

def BindError.message : BindError → String
  | addressInUse => "Address already in use (os error 98)"
  | addressNotAvailable => "Cannot assign requested address (os error 99)"
  | invalidArgument => "Invalid argument (os error 22)"
  | noSuchDevice => "No such device (os error 19)"
  | name error => error.message
  | other text => text

def Host.unreachableMessage : String := "Network is unreachable (os error 101)"

namespace Host

/-- A machine none of whose interfaces is up. -/
def isolated : Host := ⟨false, [], none⟩

def owns (h : Host) (ip : IpAddress) : Bool :=
  (h.loopback && ip.isLoopback) || h.addresses.contains ip

def hasV4 (h : Host) : Bool := h.loopback || h.addresses.any (·.isV4)

/-- Whether a socket can be bound to an address. A machine that has no address of version 4 cannot
tell which ones are foreign, and takes them all. -/
def allows (h : Host) (ip : IpAddress) : Bool :=
  ip.plain.isUnspecified || ip.plain.isSharedV4 || h.owns ip.plain || (ip.plain.isV4 && !h.hasV4)

def destination (ip : IpAddress) : IpAddress :=
  if ip.plain.isUnspecified then if ip.plain.isV4 then localhost else localhostV6 else ip.plain

/-- Whether what the machine sends to an address arrives at the machine itself. Nothing can be sent
to one socket at an address that many machines have. -/
def reaches (h : Host) (ip : IpAddress) : Bool :=
  !(destination ip).isSharedV4 && h.owns (destination ip)

/-! ### Sockets -/

/-- Whether two sockets would listen for the same connections. -/
def conflicts (a b : SocketAddress) : Bool :=
  a.port = b.port && (a.ip.covers b.ip || b.ip.covers a.ip)

/-- The first port of those that are given out. -/
def firstPort : Nat := 32768

def freePort (taken : List SocketAddress) : UInt16 :=
  let ports := (List.range (taken.length + 1)).map fun i => UInt16.ofNat (firstPort + i)
  (ports.find? fun p => taken.all (·.port ≠ p)).getD 0

/-- Whether a socket can listen at an address of its kind. Of the networks on which an address can be
good alone, only the loopback network is known by its number. -/
def checkForm (a : HostName.Address) : Except BindError Unit :=
  if a.ip.isGroupV6 || (a.ip.isLinkLocal && a.zone = 0) then .error .invalidArgument
  else if a.ip.isLinkLocal && a.zone ≠ HostName.loopbackZone then .error .noSuchDevice
  else .ok ()

/-- Binds a socket beside those that are taken; port 0 is for any that is free. -/
def bind (h : Host) (taken : List SocketAddress) (name : String) (port : UInt16) :
    Except BindError SocketAddress := do
  let a ← (HostName.resolve name).mapError .name
  checkForm a
  if !h.allows a.ip then throw .addressNotAvailable
  let address := ⟨a.ip, if a.ip.isLinkLocal then a.zone else 0,
    if port = 0 then freePort taken else port⟩
  if taken.any (conflicts address) then throw .addressInUse
  return address

def connects (h : Host) (address listener : SocketAddress) : Bool :=
  h.reaches address.ip && address.port = listener.port &&
    listener.ip.covers (destination address.ip)

end Host
end PeerMesh.Tcp
