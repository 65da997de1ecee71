import AppHost.IoError
import AppHost.Net.Ip

/-!
# Bind addresses

The host and port that a server is told to listen on, and what the network makes of them. An
empty host means all interfaces. A host that is an IP address is never looked up by name.
-/

namespace AppHost.Net

structure BindAddress where
  host : String
  port : UInt16
  deriving DecidableEq, Repr

inductive ListenerError where
  | resolve (address : String) (source : IoError)
  | bind (address : String) (source : IoError)
  deriving DecidableEq, Repr

namespace ListenerError

def message : ListenerError → String
  | resolve address source => s!"Failed to resolve {address}: {source.message}"
  | bind address source => s!"Failed to bind {address}: {source.message}"

def inspect : ListenerError → String
  | resolve address source =>
    s!"Resolve \x7b address: {Text.quote address}, source: {source.inspect} \x7d"
  | bind address source =>
    s!"Bind \x7b address: {Text.quote address}, source: {source.inspect} \x7d"

end ListenerError

/-- The network as a server sees it: which names have addresses, and which addresses it may
listen on. Listening yields the address in use, whose port is never zero. -/
structure Network where
  lookup : String → Except IoError (List Ip)
  listen : SocketAddr → Except IoError SocketAddr

/-- Whether nobody can listen on `b` while somebody listens on `a`: the ports are equal, and the
addresses are equal or one of them stands for all. -/
def SocketAddr.collides (a b : SocketAddr) : Bool :=
  a.port = b.port && (a.ip = b.ip || a.ip.coversAll || b.ip.coversAll)

/-- The network as it is while somebody listens on `a`. -/
def Network.occupied (net : Network) (a : SocketAddr) : Network :=
  { net with
    listen b := if a.collides b then .error .addressInUse else net.listen b }

namespace BindAddress

/-- The host in brackets if it holds a colon, a star if it is empty, then the port. -/
def «show» (a : BindAddress) : String :=
  if a.host.isEmpty then s!"*:{a.port.toNat}"
  else if a.host.toList.contains ':' then s!"[{a.host}]:{a.port.toNat}"
  else s!"{a.host}:{a.port.toNat}"

def inspect (a : BindAddress) : String :=
  s!"BindAddress \x7b host: {Text.quote a.host}, port: {a.port.toNat} \x7d"

/-- The host to look up. -/
def resolverHost (a : BindAddress) : String := if a.host.isEmpty then "0.0.0.0" else a.host

/-- The addresses of a host: itself if it is one, else what the network knows. -/
def lookupHost (net : Network) (host : String) : Except IoError (List Ip) :=
  match Ip.parse? host with
  | some ip => .ok [ip]
  | none => if host.toList.contains '\x00' then .error .nulInName else net.lookup host

/-- The first socket address that the host stands for. -/
def resolve (net : Network) (a : BindAddress) : Except ListenerError SocketAddr :=
  match lookupHost net a.resolverHost with
  | .error e => .error (.resolve a.show e)
  | .ok [] => .error (.resolve a.show (.other "no addresses found"))
  | .ok (ip :: _) => .ok { ip, port := a.port }

def bind (net : Network) (a : BindAddress) : Except ListenerError SocketAddr := do
  let addr ← a.resolve net
  match net.listen addr with
  | .ok bound => .ok bound
  | .error e => .error (.bind a.show e)

theorem resolve_of_literal (net : Network) {a : BindAddress} {ip : Ip}
    (h : Ip.parse? a.resolverHost = some ip) : a.resolve net = .ok { ip, port := a.port } := by
  simp [resolve, lookupHost, h]

end BindAddress

end AppHost.Net
