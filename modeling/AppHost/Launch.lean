import AppHost.Server.Host

/-!
# Launching a host

From a valid configuration to the end of the host: the counters are offered, the server is loaded
and gets its status page, and it serves until it is stopped or fails for good. Then all that was
set up is taken back.
-/

namespace AppHost

/-- Why a launch comes to nothing. -/
inductive LaunchError where
  | load (e : Config.ConfigError)
  | page (e : MountError)
  | serve (e : RetriesExhausted)
  deriving DecidableEq

def LaunchError.inspect : LaunchError → String
  | load e => s!"Config({e.inspect})"
  | page e => e.inspect
  | serve e => s!"Serve({e.inspect})"

namespace Launch

/-! ## Events -/

def starting (version : String) : Log.Event where
  level := .info
  part := []
  message := s!"http-host v{version} starting"

def complete : Log.Event where
  level := .info
  part := []
  message := "Shutdown complete"

def failed (e : RetriesExhausted) : Log.Event where
  level := .error
  part := []
  message := "HTTP server failed"
  fields := [("error", e.message)]

def unreadableAddress (text : String) : Log.Event where
  level := .error
  part := []
  message := "Failed to parse metrics address"
  fields := [("metrics_address", text)]

def exporting (a : Net.SocketAddr) : Log.Event where
  level := .info
  part := ["observability", "metrics"]
  message := "Metrics exporter listening"
  fields := [("address", a.show)]

def notExporting (a : Net.SocketAddr) (e : IoError) : Log.Event where
  level := .error
  part := ["observability", "metrics"]
  message := "Failed to install metrics exporter"
  fields := [("address", a.show), ("error", s!"failed to create HTTP listener: {e.message}")]

def stopAsked : Log.Event where
  level := .info
  part := ["lifecycle", "signals"]
  message := "Shutdown signal received"

/-! ## Setting up -/

/-- Offer the counters if that is asked for; yields the network that is left to the server. -/
def exportMetrics (c : Config.ObservabilityConfig) (net : Net.Network) : Journaled Net.Network := do
  if !c.metricsEnabled then return net
  match Net.SocketAddr.parse? c.metricsAddress with
  | none =>
    Journal.note (unreadableAddress c.metricsAddress)
    return net
  | some a =>
    match net.listen a with
    | .ok bound =>
      Journal.note (exporting a)
      return net.occupied bound
    | .error e =>
      Journal.note (notExporting a e)
      return net

/-- A host with its server loaded. -/
structure Ready where
  host : Host
  server : Nat
  /-- The status page, if there is one. -/
  page : Option Admin.StatusPage := none

/-- Load the server and mount its status page. -/
def prepare (c : Config.HostConfig) : Journaled (Except LaunchError Ready) := do
  match ← ({ ports := c.ports : Host }).load c.httpServer with
  | (_, .error e) => return .error (.load e)
  | (host, .ok server) =>
    if !c.admin.enabled then return .ok { host, server }
    match ← host.onRouter server (Admin.mountStatus 1 server c.admin) with
    | (host, some (.ok page)) => return .ok { host, server, page := some page }
    | (_, some (.error e)) => return .error (.page e)
    | (host, none) => return .ok { host, server }

/-- Take back the status page and unload the server. -/
def Ready.close (r : Ready) : Journaled Host := do
  let host ← match r.page with
    | some p =>
      let (host, _) ← r.host.onRouter r.server fun router => return (← p.drop router, ())
      pure host
    | none => pure r.host
  host.unload

/-! ## From start to end -/

/-- What happens when the signal to stop arrives. -/
def announcement : StopSignal → Trace
  | .atOnce => [(0, .logs stopAsked)]
  | .triggeredAt t => [(t, .logs stopAsked)]
  | .never => []
  | .abandonedAt _ => []

/-- Launch a host and let it serve. -/
def run (c : Config.HostConfig) (version : String) (m : Machine) (signal : StopSignal)
    (fuel : Nat) : Journaled (Except NoEnd (Except LaunchError Unit)) := do
  Journal.note (starting version)
  let network ← exportMetrics c.observability m.network
  match ← prepare c with
  | .error e => return .ok (.error e)
  | .ok ready =>
    match ← ready.host.run { m with network } signal {} fuel (announcement signal) with
    | (_, .error e) => return .error e
    | (host, .ok served) =>
      let _ ← { ready with host }.close
      match served.elim (.ok ()) ServeRun.result with
      | .ok () =>
        Journal.note complete
        return .ok (.ok ())
      | .error e =>
        Journal.note (failed e)
        return .ok (.error (.serve e))

end Launch

end AppHost
