import AppHost.Cli.Report
import Std.Http.Server

/-!
# The program

Launches a host on the machine that it runs on: files, names, sockets, the clock and signals are
those of the operating system, and all decisions are those of the library. Connections are served
without TLS; with TLS configured the files are checked, and listening then fails.
-/

namespace AppHost.Program

open Std.Async (Async ContextAsync)

/-! ## The operating system -/

/-- The refusal with the given number, which may come negated. -/
def osRefusal (code : UInt32) : IoError :=
  .os (if code < 0x80000000 then code.toNat else UInt32.size - code.toNat)

/-- The refusal of the operating system that an error stands for. -/
def refusal : IO.Error → IoError
  | .permissionDenied _ code _ => osRefusal code
  | .resourceBusy code _ => osRefusal code
  | .noFileOrDirectory _ code _ => osRefusal code
  | .inappropriateType _ code _ => osRefusal code
  | .invalidArgument _ code _ => osRefusal code
  | .unsupportedOperation code _ => osRefusal code
  | e => .other (toString e)

/-- The working directory, under a name that no other directory has. -/
def here : List String := ["."]

/-- The place that `names` lead to from the place `at_`. -/
def place (at_ : List String) (names : List String) : List String :=
  names.foldl (fun at_ name =>
    if name = "" ∨ name = "." then at_ else if name = ".." then at_.dropLast else at_ ++ [name]) at_

/-- Those of the given paths that are files, with the directories on the way to them. -/
def look (paths : List String) : IO Files := do
  let mut files : Files := {}
  for p in paths do
    let names := (Text.splitAt '/' p.toList).map String.ofList
    let start := if p.startsWith "/" then [] else here
    try
      let bytes ← IO.FS.readBinFile p
      let steps := (List.range names.length).map fun k => place start (names.take k)
      files := { directories := steps ++ files.directories,
                 contents := (place start names, bytes.toList) :: files.contents }
    catch _ => pure ()
  return files

def loadConfig (path : String) : IO (Except Config.ConfigError Config.HostConfig) := do
  try
    match Text.ofBytes? (← IO.FS.readBinFile path).toList with
    | some text => return Config.parse text
    | none => return .error (.io .notUtf8)
  catch e => return .error (.io (refusal e))

/-- The time of day as it stands in the log. -/
def timestamp : IO String := do
  let now := Std.Time.DateTime.ofTimestampWithZone (← Std.Time.Timestamp.now) .UTC
  return now.format "uuuu-MM-dd'T'HH:mm:ss.SSSSSS'Z'"

/-- Fresh identifiers of the form 8-4-4-4-12 in base 16, random but for what marks them as such. -/
def freshIds : IO (Nat → Http.HeaderValue) := do
  let seed := (← IO.getRandomBytes 16).toList.foldl (fun n b => n * 256 + b.toNat) 0
  return fun k =>
    let digits := (List.range 32).map fun i =>
      let d := (seed + k) >>> (4 * (31 - i)) % 16
      Text.hexDigit (if i = 12 then 4 else if i = 16 then 8 + d % 4 else d)
    let group (start len : Nat) := (digits.drop start).take len
    let groups := [group 0 8, group 8 4, group 12 4, group 16 4, group 20 12]
    Http.Response.literal ("-".intercalate (groups.map String.ofList))

/-! ## Addresses -/

def ofSocketAddr (a : Net.SocketAddr) : Std.Net.SocketAddress :=
  match a.ip with
  | .v4 ip => .v4 { addr := .ofParts ip.a ip.b ip.c ip.d, port := a.port }
  | .v6 ip =>
    let g (n : Nat) := ip.groups.getD n 0
    .v6 { addr := .ofParts (g 0) (g 1) (g 2) (g 3) (g 4) (g 5) (g 6) (g 7), port := a.port }

def toIp : Std.Net.IPAddr → Net.Ip
  | .v4 ip => .v4 ⟨ip.octets[0], ip.octets[1], ip.octets[2], ip.octets[3]⟩
  | .v6 ip => .v6 ⟨ip.segments.toList, by simp⟩

def toSocketAddr (a : Std.Net.SocketAddress) : Net.SocketAddr :=
  { ip := toIp a.ipAddr, port := a.port }

/-- The network in which the host of `a` has the addresses that the name service gives it. -/
def resolving (a : Net.BindAddress) : Async Net.Network := do
  let found : Except IoError (List Net.Ip) ←
    if (Net.Ip.parse? a.resolverHost).isSome || a.host.contains '\x00' then pure (.ok [])
    else try
      pure (.ok ((← Std.Async.DNS.getAddrInfo a.resolverHost "").toList.map toIp))
    catch e => pure (.error (.other (toString e)))
  return { lookup := fun _ => found, listen := .ok }

/-- Listen on `a` if the operating system allows it, and let `handler` answer. -/
def listen (a : Net.SocketAddr) (handler : Std.Http.Server.StatelessHandler) :
    Async (Except IoError (Std.Http.Server × Net.SocketAddr)) := do
  try
    let server ← Std.Http.Server.serve (ofSocketAddr a) handler
    return .ok (server, (server.localAddr.map toSocketAddr).getD a)
  catch e => return .error (refusal e)

/-! ## The running host -/

/-- What the tasks of the program share. -/
structure Shell where
  host : Std.Mutex (Host × Metrics)
  filter : Log.Filter
  /-- Cancelled as soon as the host is to stop. -/
  stop : Std.CancellationToken

namespace Shell

/-- Do something with the host, and show its events as far as the filter lets them through. -/
def perform {α : Type} (sh : Shell) (f : Host → Journaled (Host × α)) : Async α := do
  let shown : IO α := sh.host.atomically do
    let (host, metrics) ← get
    let ((host, a), journal) := (f host).run { metrics }
    set (host, journal.metrics)
    let time ← timestamp
    for e in journal.events do
      if sh.filter.shows e then
        let gap := if e.level.name.length < 5 then "  " else " "
        IO.println s!"{time}{gap}{e.line}"
    return a
  shown

def note (sh : Shell) (e : Log.Event) : Async Unit :=
  sh.perform fun h => return (h, ← Journal.note e)

/-- Let `tr` happen to the server of that number, now. -/
def happen (sh : Shell) (number : Nat) (tr : Trace) : Async Unit :=
  sh.perform fun h => do
    match h.server? number with
    | none => return (h, ())
    | some s =>
      tr.journal s.state
      return (h.put (s.afterTrace tr), ())

/-! ## Requests -/

def receive (req : Std.Http.Request Std.Http.Body.Stream) : ContextAsync (Option Http.Request) := do
  let body : ByteArray ← req.body.readAll
  let headers := req.line.headers.toList.map fun (n, v) => (Text.bytes n.value, Text.bytes v.value)
  return do
    return {
      method := toString req.line.method
      target := ← Http.Target.parse? (toString req.line.uri)
      headers := ← Http.Headers.ofRaw? headers
      body := Text.lossy body.toList }

def send (r : Http.Response) : Async (Std.Http.Response Std.Http.Body.Any) := do
  let status := (Std.Http.Status.ofCode none r.status.toUInt16).getD .internalServerError
  let mut builder := Std.Http.Response.withStatus status
  for (n, v) in r.headers do
    builder := (builder.header? n (Text.lossy v.bytes)).getD builder
  let response ← builder.fromBytes r.body.toUTF8
  return { response with body := Std.Http.Body.Any.ofBody response.body }

/-- Answers requests with the router of a server. -/
def handler (sh : Shell) (number : Nat) : Std.Http.Server.StatelessHandler :=
  Std.Http.Server.Handler.ofFn fun req => do
    let ids ← freshIds
    match ← receive req with
    | none => send { status := 400 }
    | some r =>
      send (← sh.perform fun h => do
        match h.server? number with
        | none => return (h, .notFound)
        | some s => return (h, ← Gateway.answer s.router (h.surroundings ids) r))

/-- Answers requests with the counters, one in a line. -/
def counters (sh : Shell) : Std.Http.Server.StatelessHandler :=
  Std.Http.Server.Handler.ofFn fun _ => do
    let (_, metrics) ← sh.host.atomically get
    send (.withText 200 (String.join (metrics.report.map fun (n, k) => s!"{n} {k}\n")))

/-! ## Serving -/

/-- The signal to stop, as it is now. -/
def signal (sh : Shell) : Async StopSignal :=
  return if ← sh.stop.isCancelled then .atOnce else .never

/-- Wait until the host is to stop, or until `ms` milliseconds have passed. -/
def pause (sh : Shell) (ms : Nat) : Async Unit := do
  Std.Async.Selectable.one #[
    .case sh.stop.selector fun _ => pure (),
    .case (← Std.Async.Selector.sleep (.ofNat ms)) fun _ => pure ()]

/-- Begin an attempt: listen if that is possible. -/
def begin (sh : Shell) (s : Server) : Async (Machine × Option Std.Http.Server) := do
  let files ← look (s.tls.elim [] fun (c, k) => [c, k])
  let network ← resolving s.address
  let machine (listen : Net.SocketAddr → Except IoError Net.SocketAddr) : Machine :=
    { files, here, network := { network with listen } }
  if s.isSecure then
    return (machine fun _ => .error (.other "TLS connections are not supported"), none)
  match s.address.resolve network with
  | .error _ => return (machine .ok, none)
  | .ok a =>
    match ← listen a (sh.handler s.number) with
    | .error e => return (machine fun _ => .error e, none)
    | .ok (server, bound) => return (machine fun _ => .ok bound, some server)

/-- Wait until the host is to stop, and then for the open connections, but not longer than the
grace period. -/
def drain (sh : Shell) (grace : Duration) (server : Std.Http.Server) : Async Closure := do
  Std.Async.await (← sh.stop.wait)
  server.shutdown
  let drained ← Std.Async.Selectable.one #[
    .case server.waitShutdownSelector fun _ => pure true,
    .case (← Std.Async.Selector.sleep (.ofNat grace.timerTicks)) fun _ => pure false]
  let now ← IO.monoMsNow
  return if drained then .returns now (.ok ()) true else .isCut now

/-- The serve loop of the server `s`. Only the attempt itself is made here, and takes the time that it
takes; what the loop does before it is `ServePoint.declined` or `ServePoint.called`, and what it does
after it is `ServePlan.conclude`. -/
def serve (sh : Shell) (s : Server) : Async (Except RetriesExhausted Unit) := do
  let mut point : ServePoint := {}
  repeat
    point := { point with now := ← IO.monoMsNow }
    if (← sh.signal).isPast point.now then
      sh.happen s.number point.declined.trace
      return point.declined.result
    sh.happen s.number point.called
    let (machine, server) ← sh.begin s
    let attempt := s.attempt machine
    sh.happen s.number (attempt.acts.map fun x => (x.1, x.2.happening point.next))
    let c ← match server with
      | some server => sh.drain s.grace server
      | none =>
        let now ← IO.monoMsNow
        let result := attempt.ending.elim (.ok ()) Prod.snd
        pure (.returns now result ((← sh.signal).isPast now))
    let plan := s.plan machine (← sh.signal)
    sh.happen s.number (plan.attemptTrace point.next attempt { acts := [], ending := none } c)
    match plan.conclude point [] c with
    | .error e => throw (.userError e.message)
    | .ok (.ends run) =>
      sh.happen s.number run.trace
      return run.result
    | .ok (.again trace next) =>
      sh.happen s.number trace
      sh.pause (next.now - c.time)
      point := next
  return .ok ()

/-- Ask the host to stop once the process gets the signal. -/
def watch (sh : Shell) (signal : Std.Async.Signal) : Async Unit := do
  let waiter ← Std.Async.Signal.Waiter.mk signal false
  let _ ← Std.Async.await (← waiter.wait)
  sh.note Launch.stopAsked
  sh.stop.cancel

/-- Offer the counters at the configured address, if that is asked for. -/
def offerCounters (sh : Shell) (c : Config.ObservabilityConfig) : Async Unit := do
  let address := if c.metricsEnabled then Net.SocketAddr.parse? c.metricsAddress else none
  let result ← match address with
    | some a => do pure ((← listen a sh.counters).map Prod.snd)
    | none => pure (.error .addressInUse)
  sh.perform fun h => do
    let _ ← Launch.exportMetrics c ⟨fun _ => .ok [], fun _ => result⟩
    return (h, ())

/-- Launch a host and let it serve. -/
def launch (sh : Shell) (c : Config.HostConfig) : Async (Except LaunchError Unit) := do
  sh.note (Launch.starting Cli.version)
  sh.offerCounters c.observability
  let prepared : Except LaunchError Launch.Ready ← sh.perform fun h => do
    match ← Launch.prepare c with
    | .error e => return (h, .error e)
    | .ok ready => return (ready.host, .ok ready)
  match prepared with
  | .error e => return .error e
  | .ok ready =>
    Std.Async.background (sh.watch .sigint)
    Std.Async.background (sh.watch .sigterm)
    let result ← match ready.host.server? ready.server with
      | some s => sh.serve s
      | none => pure (.ok ())
    sh.perform fun host => return (← { ready with host }.close, ())
    match result with
    | .ok () => sh.note Launch.complete; return .ok ()
    | .error e => sh.note (Launch.failed e); return .error (.serve e)

end Shell

/-- Write a report, and yield its exit code. -/
def tell (r : Cli.Report) : IO UInt32 := do
  for line in r.output do IO.println line
  for line in r.complaints do IO.eprintln line
  return r.exitCode.toUInt32

/-- Do what the arguments ask for. -/
def run (args : List String) : IO UInt32 := do
  match Cli.Request.parse args with
  | .error e => tell (.usage e)
  | .ok .help => tell { exitCode := 0, output := Cli.helpText }
  | .ok .version => tell { exitCode := 0, output := [Cli.versionText] }
  | .ok (.serve o) =>
    let loaded ← match o.config with
      | some path => loadConfig path
      | none => pure (.ok {})
    match o.resolve fun _ => loaded with
    | .error e => tell { exitCode := 1, complaints := [Cli.Report.failureLine e.inspect] }
    | .ok c =>
      let (filter, wrong) := Log.Filter.parse (Log.directive c.observability.logLevel)
      for line in Cli.Report.ignored wrong do IO.eprintln line
      let shell : Shell :=
        { host := ← Std.Mutex.new ({}, {}), filter, stop := ← Std.CancellationToken.new }
      match ← (shell.launch c).block with
      | .ok () => return 0
      | .error e => tell { exitCode := 1, complaints := [Cli.Report.failureLine e.inspect] }

end AppHost.Program

def main (args : List String) : IO UInt32 := AppHost.Program.run args
