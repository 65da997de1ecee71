import AppHost.Index.Landing
import AppHost.Mount.Table
import AppHost.Routing.Classify

/-!
# The router

The mounts, the index page proposals and the route names together decide where a connection goes:
to the mounted application that claims its path, else, for the path `/` alone, to the index page,
else nowhere. An application sees the path relative to where it is mounted.
-/

namespace AppHost

structure Router where
  mounts : MountTable := {}
  index : ProposalHeap := {}
  names : RouteNames := {}

inductive RouteOutcome where
  /-- The entry whose application answers. -/
  | mounted (entry : MountEntry)
  /-- The URL of the index page. -/
  | indexRedirect (url : String)
  | notFound

namespace RouteOutcome

/-- The name in logs and counters. -/
def label : RouteOutcome → String
  | mounted _ => "mounted"
  | indexRedirect _ => "index_redirect"
  | notFound => "not_found"

def inspect : RouteOutcome → String
  | mounted e => s!"Mounted(MountMatch \x7b entry: {e.inspect} \x7d)"
  | indexRedirect url => s!"IndexRedirect({Text.quote url})"
  | notFound => "NotFound"

/-- The counters with this outcome counted. -/
def count (o : RouteOutcome) (m : Metrics) : Metrics :=
  match o with
  | mounted _ => { m with mounted := m.mounted + 1 }
  | indexRedirect _ => { m with indexRedirect := m.indexRedirect + 1 }
  | notFound => { m with notFound := m.notFound + 1 }

end RouteOutcome

namespace Router

/-! ## Decisions -/

/-- The URL of the index page, if there is one. -/
def indexUrl (r : Router) : Option String := r.index.url r.names

def indexUrlEvents (r : Router) : List Log.Event := r.index.urlEvents r.names

/-- Ask for the URL of the index page. -/
def askIndexUrl (r : Router) : Journaled (Option String) := do
  Journal.notes r.indexUrlEvents
  return r.indexUrl

/-- Where a connection of the given family goes; one of no family goes nowhere. -/
def route (r : Router) (scope : Option ScopeKind) (path : String) : RouteOutcome :=
  match scope with
  | none => .notFound
  | some scope =>
    match r.mounts.lookup scope path with
    | some e => .mounted e
    | none =>
      if path = "/" then
        match r.indexUrl with
        | some url => .indexRedirect url
        | none => .notFound
      else .notFound

/-- The events of that decision: the index page is asked for only where it may answer. -/
def routeEvents (r : Router) (scope : Option ScopeKind) (path : String) : List Log.Event :=
  match scope with
  | none => []
  | some scope =>
    if (r.mounts.lookup scope path).isNone && path = "/" then r.indexUrlEvents else []

def decide (r : Router) (scope : Option ScopeKind) (path : String) : Journaled RouteOutcome := do
  Journal.notes (r.routeEvents scope path)
  return r.route scope path

/-- The decision for a family given by its tag; an unknown tag is no family. -/
def decideTagged (r : Router) (tag path : String) : Journaled RouteOutcome :=
  r.decide (ScopeKind.parse tag).toOption path

/-! ## Answers -/

/-- The request as the application behind `e` gets it: the path is relative to the mount, and the
target that the client asked for is kept beside it. -/
def rebase (e : MountEntry) (req : Http.Request) : Http.Request :=
  { req.recordReceived with target := (req.target.relativeTo e.path).getD req.target }

/-- Hand a request to the application behind `e`. -/
def forward (e : MountEntry) (around : Surroundings) (req : Http.Request) :
    Journaled Http.Response :=
  e.application.handle around (rebase e req)

def requestId? (req : Http.Request) : Option String :=
  (req.headers.first? "x-request-id").bind Http.HeaderValue.text?

def decided (req : Http.Request) (scope : Option ScopeKind) (outcome : RouteOutcome) :
    Log.Event where
  level := .debug
  part := ["routing", "router"]
  message := "Routing decision"
  fields := [("path", req.path),
    ("scope", scope.elim "None" fun k => s!"Some({k.label})"),
    ("outcome", outcome.label),
    ("request_id", (requestId? req).getD "-")]

def badLocation (location : String) : Log.Event where
  level := .warn
  part := ["http", "response"]
  message := "Index URL is not a valid header value"
  fields := [("location", location)]

/-- Redirect to `location`, or say that it cannot be done. -/
def redirectTo (location : String) : Journaled Http.Response := do
  if (Http.HeaderValue.ofString? location).isNone then Journal.note (badLocation location)
  return .redirect location

/-- Send the client to the index page at `url`, keeping the query. -/
def redirect (url : String) (req : Http.Request) : Journaled Http.Response := do
  if req.method ≠ "GET" ∧ req.method ≠ "HEAD" then return .methodNotAllowed "GET, HEAD"
  redirectTo (Http.Response.withQuery url req.target.query)

/-- Answer a request by the routing decision, which is logged and counted. -/
def dispatch (r : Router) (around : Surroundings) (req : Http.Request) :
    Journaled Http.Response := do
  let scope := ScopeKind.classify req.headers
  let outcome ← r.decide scope req.path
  Journal.note (decided req scope outcome)
  Journal.count outcome.count
  match outcome with
  | .mounted e => forward e around req
  | .indexRedirect url => redirect url req
  | .notFound => return .notFound

end Router

end AppHost
