import AppHost.Gateway
import AppHost.Serve.Loop
import AppHost.Tls.Material

/-!
# Servers

A server is one loaded configuration: a router of its own, the address and the files that it is to
serve with, and what it publishes while it does so. An attempt to serve binds the address, with
TLS after loading the files, reports that it accepts connections, and goes on until it is stopped.
-/

namespace AppHost

/-- What a server finds on the machine it runs on. -/
structure Machine where
  files : Files := {}
  /-- The working directory. -/
  here : List String := []
  network : Net.Network
  /-- How long the open connections take to finish once a server accepts no more, in milliseconds;
  nothing if they never do. -/
  drainTime : Option Nat := some 0

structure Server where
  /-- Which load made the server. -/
  number : Nat
  router : Router := {}
  address : Net.BindAddress
  /-- The certificate and the key file, for TLS. -/
  tls : Option (String × String) := none
  grace : Duration := .ofSecs 5
  policy : RetryPolicy := {}
  state : ServeState := .idle
  bound : Option Net.SocketAddr := none

namespace Server

def isSecure (s : Server) : Bool := s.tls.isSome

def view (s : Server) : ServerView where
  address := s.address
  secure := s.isSecure
  state := s.state
  bound := s.bound
  mounts := s.router.mounts.describe
  index := s.router.index
  names := s.router.names

def inspect (s : Server) : String :=
  s!"HttpServerHandle \x7b address: {s.address.inspect}, secure: {s.isSecure}, " ++
    s!"mounts: {s.router.mounts.size}, state: {s.state.label} \x7d"

/-- What somebody who waits for the server to listen gets at once: its address, or the news that
it has stopped; or nothing yet. -/
def listening (s : Server) : Option (Option Net.SocketAddr) :=
  match s.bound with
  | some a => some (some a)
  | none => if s.state.isOver then some none else none

/-! ## Attempts -/

/-- The protocol that the server speaks. -/
def protocol (s : Server) : String := if s.isSecure then "HTTPS" else "HTTP"

def starting (s : Server) : Log.Event where
  level := .info
  part := ["http", "server"]
  message := s!"Starting {s.protocol} server on {s.address.show}"
  fields := [("address", s.address.show)]

def listenerBound (a : Net.SocketAddr) : Log.Event where
  level := .debug
  part := ["net", "listener"]
  message := "Listener bound"
  fields := [("address", a.show)]

def accepting (secure : Bool) (a : Net.SocketAddr) : Log.Event where
  level := .info
  part := ["http", "server"]
  message := if secure then "Listening for TLS connections" else "Listening for connections"
  fields := [("address", a.show)]

/-- An attempt that fails at once. -/
def failing (acts : List Act) (f : ServeFailure) : Attempt where
  acts := acts.map fun a => (0, a)
  ending := some (0, .error f)
  closing := [.listens none]

/-- An attempt that listens on `a` until it is stopped, and then waits for its connections. -/
def serving (secure : Bool) (before : List Act) (a : Net.SocketAddr) (drainTime : Option Nat) :
    Attempt where
  acts := (before ++ [Act.ready, Act.listens (some a), Act.logs (accepting secure a)]).map
    fun x => (0, x)
  drain := drainTime.map fun t => (t, .ok ())
  closing := [.listens none]

def plainAttempt (s : Server) (m : Machine) : Attempt :=
  match s.address.bind m.network with
  | .ok a => serving false [.logs s.starting, .logs (listenerBound a)] a m.drainTime
  | .error e => failing [.logs s.starting] (.listener e)

/-- With TLS, a failure to listen is one of the server itself, and connections that take longer
than the grace period are closed. The server counts that period itself, from the millisecond in
which the loop begins to count its own; at their common end its closing goes first. -/
def tlsAttempt (s : Server) (m : Machine) (certificate key : String) : Attempt :=
  match Tls.check m.files m.here certificate key with
  | .error e => failing [.logs s.starting] (.tls e)
  | .ok () =>
    let before := [Act.logs s.starting, Act.logs (Tls.loaded certificate)]
    match s.address.resolve m.network with
    | .error e => failing before (.listener e)
    | .ok a =>
      match m.network.listen a with
      | .ok a =>
        let grace := s.grace.timerTicks
        serving true before a (some (m.drainTime.elim grace (min grace)))
      | .error e => failing before (.broken e)

def attempt (s : Server) (m : Machine) : Attempt :=
  match s.tls with
  | some (certificate, key) => s.tlsAttempt m certificate key
  | none => s.plainAttempt m

def plan (s : Server) (m : Machine) (signal : StopSignal) : ServePlan where
  policy := s.policy
  grace := s.grace
  attempts := fun _ => s.attempt m
  signal := signal

/-- The server after `tr` has happened. -/
def afterTrace (s : Server) (tr : Trace) : Server :=
  { s with state := Trace.finalState s.state tr, bound := Trace.finalAddress s.bound tr }

end Server

end AppHost
