import AppHost.Admin.Page
import AppHost.Config.Validation
import AppHost.Server.Basic

/-!
# The host

A host loads its server from a configuration, at most one at a time. Loading again replaces the
server: the tables of the old one are emptied, and the new one begins with empty tables. Those who
hold a server that is no longer loaded can go on using it, but its entries are its own: nothing
done to one server touches another.
-/

namespace AppHost

structure Host where
  ports : Config.PortConfig := {}
  policy : RetryPolicy := {}
  /-- The number of the server that is loaded. -/
  current : Option Nat := none
  /-- All servers that somebody still holds. -/
  servers : List Server := []
  /-- The number of the next server. -/
  next : Nat := 0

namespace Host

/-! ## Servers -/

def server? (h : Host) (n : Nat) : Option Server := h.servers.find? fun s => s.number == n

/-- The server that is loaded. -/
def loaded? (h : Host) : Option Server := h.current.bind h.server?

/-- With `s` in place of the server of its number. -/
def put (h : Host) (s : Server) : Host :=
  { h with servers := h.servers.map fun t => if t.number = s.number then s else t }

/-- Change the router of the server `n`; nothing happens if nobody holds that server any more. -/
def onRouter {α : Type} (h : Host) (n : Nat) (f : Router → Journaled (Router × α)) :
    Journaled (Host × Option α) := do
  match h.server? n with
  | none => return (h, none)
  | some s =>
    let (router, a) ← f s.router
    return (h.put { s with router }, some a)

/-- What applications find around them. -/
def surroundings (h : Host) (requestIds : Nat → Http.HeaderValue) : Surroundings where
  servers n := (h.server? n).map Server.view
  requestIds := requestIds

/-- Whether an application in a table keeps the server `n` alive. -/
def keeps (t : List MountEntry) (n : Nat) : Bool :=
  t.any fun e => e.application.keeps == some n

/-- Forget the servers that nobody holds: neither somebody outside, who holds those in `held`, nor
the host, nor an application of theirs. -/
def sweep (h : Host) (held : List Nat) : Host :=
  { h with servers := h.servers.filter fun s =>
      held.contains s.number || h.current == some s.number ||
        keeps s.router.mounts.entries s.number }

/-! ## Events -/

def event (level : Log.Level) (message : String) (fields : List (String × String)) :
    Log.Event where
  level := level
  part := ["extension", "http_server"]
  message := message
  fields := fields

def loadedTwice : Log.Event :=
  event .warn "HTTP server extension loaded twice, replacing previous instance" []

def loadedNow (s : Server) : Log.Event :=
  event .info "HTTP server extension loaded"
    [("address", s.address.show), ("secure", toString s.isSecure)]

def unloaded (s : Server) : Log.Event :=
  event .info "HTTP server extension unloaded" [("address", s.address.show)]

def notConfigured : Log.Event :=
  event .warn "HTTP server address is not configured, not serving" []

/-! ## Loading -/

def name : String := "http_server"

/-- Unload the server, if one is loaded: its mounts and proposals go. -/
def unload (h : Host) : Journaled Host := do
  match h.loaded? with
  | none => return { h with current := none }
  | some s =>
    let router := (← s.router.clearMounts).clearIndex
    Journal.note (unloaded s)
    return { h.put { s with router } with current := none }

/-- The port to listen on: the configured one, else that of the `http` service. -/
def portOf (h : Host) (c : Config.HttpServerConfig) : Option UInt16 :=
  c.port.or (h.ports.portOf "http")

/-- Load a server; a server that is loaded already is unloaded first, whatever comes of it. -/
def load (h : Host) (c : Config.HttpServerConfig) :
    Journaled (Host × Except Config.ConfigError Nat) := do
  let h ← if h.current.isSome then do
      Journal.note loadedTwice
      h.unload
    else pure h
  match h.portOf c with
  | none => return (h, .error (.validation [Config.noPort]))
  | some port =>
    let s : Server := {
      number := h.next
      address := ⟨c.host, port⟩
      tls := c.tlsFiles
      grace := .ofSecs c.shutdownGraceSecs
      policy := h.policy }
    Journal.note (loadedNow s)
    return ({ h with current := some s.number, servers := h.servers ++ [s], next := h.next + 1 },
      .ok s.number)

/-! ## Serving -/

/-- Serve until the serve loop ends; without a server there is nothing to do. Yields the run, if
there was one. `meanwhile` lists what else happens as long as the loop goes on, before what the
loop does in the same millisecond. -/
def run (h : Host) (m : Machine) (signal : StopSignal) (dice : Dice) (fuel : Nat)
    (meanwhile : Trace := []) : Journaled (Host × Except NoEnd (Option ServeRun)) := do
  match h.loaded? with
  | none =>
    Journal.note notConfigured
    return (h, .ok none)
  | some s =>
    match (s.plan m signal).run fuel { dice } with
    | .error e => return (h, .error e)
    | .ok r =>
      let trace := Trace.interleave (meanwhile.filter (·.1 ≤ r.last.now)) r.trace
      Trace.journal s.state trace
      return (h.put (s.afterTrace trace), .ok (some r))

def inspect (h : Host) : String :=
  let exports := match h.loaded? with
    | some s => s!"Some({s.inspect})"
    | none => "None"
  s!"HttpServerExtension \x7b ports: {h.ports.inspect}, policy: {h.policy.inspect}, " ++
    s!"exports: {exports} \x7d"

end Host

end AppHost
