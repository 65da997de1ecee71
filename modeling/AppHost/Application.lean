import AppHost.Http.Message
import AppHost.Index.Heap
import AppHost.Journal
import AppHost.Mount.Info
import AppHost.Net.Bind
import AppHost.Routing.Names
import AppHost.Serve.State
import AppHost.Text.Utf8

/-!
# Applications

An application answers requests and is known by its number: two applications are the same if
their numbers are. Answering may consult the state of the servers that are loaded, and may write
to the journal; it changes nothing else.
-/

namespace AppHost

/-- What is visible of a loaded server from inside an application. -/
structure ServerView where
  address : Net.BindAddress
  secure : Bool
  state : ServeState
  /-- The socket address in use while listening. -/
  bound : Option Net.SocketAddr
  mounts : List MountInfo
  index : ProposalHeap
  names : RouteNames

/-- What an application finds around it: the servers, by the number of the load that made them,
and the fresh request identifiers in the order in which they will be given out. -/
structure Surroundings where
  servers : Nat → Option ServerView := fun _ => none
  requestIds : Nat → Http.HeaderValue

abbrev Handler := Surroundings → Http.Request → Journaled Http.Response

structure Application where
  id : Nat
  name : String
  serve : Handler
  /-- The server whose state the application reports, if it keeps one. -/
  keeps : Option Nat := none

namespace Application

/-- The number in words. -/
def label (id : Nat) : String := s!"app-{id}"

/-- Hand a request to the application. It sees the received target, and its answer loses the body
that the method does not allow. -/
def handle (app : Application) (around : Surroundings) (r : Http.Request) : Journaled Http.Response := do
  let answer ← app.serve around r.recordReceived
  return answer.forMethod r.method

def inspect (app : Application) : String :=
  s!"Application \x7b id: AppId({app.id}), name: {Text.quote app.name}, .. \x7d"

/-! ## Ready-made applications -/

/-- Answer every request with a description of it. -/
def echo (id : Nat) (name : String) : Application where
  id := id
  name := name
  serve := fun _ r => do
    let requestId := match r.headers.first? "x-request-id" with
      | some v => Text.lossy v.bytes
      | none => "-"
    let received := (r.received.getD r.target).show
    return .withText 200
      ("|".intercalate [name, r.method, r.target.show, received, requestId, r.body])

/-- The answers that there are, by the path of the request. -/
abbrev Routes := List (String × Handler)

/-- Answer `GET` and `HEAD` by path; other methods are not allowed, other paths not found. Every
answer, a refusal too, is made behind `guard`. -/
def Routes.handler (guard : Handler → Handler) (routes : Routes) : Handler := fun around r =>
  match routes.lookup r.path with
  | none => guard (fun _ _ => return { status := 404 }) around r
  | some h =>
    if r.method = "GET" ∨ r.method = "HEAD" then guard h around r
    else do
      let refusal ← guard (fun _ _ => return { status := 405 }) around r
      let allow := Http.Response.literal "GET,HEAD"
      return { refusal with headers := refusal.headers.setIfAbsent "allow" allow }

/-- Fixed texts under fixed paths. -/
def pages (id : Nat) (name : String) (texts : List (String × String)) : Application where
  id := id
  name := name
  serve := Routes.handler (fun h => h)
    (texts.map fun (path, text) => (path, fun _ _ => return .withText 200 text))

end Application

end AppHost
