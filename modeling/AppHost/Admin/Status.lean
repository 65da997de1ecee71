import AppHost.Data.Json
import AppHost.Index.Landing
import AppHost.Mount.Table

/-!
# The status application

An application that reports on the server it is mounted on: its state and address, the mounts and
the index page proposals, as JSON. With a key configured, every request has to present it, also
one for a path that does not exist.
-/

namespace AppHost.Admin

/-- Version of the host. -/
def version : String := "0.1.0"

/-! ## Reports -/

def statusReport (v : ServerView) : Data :=
  .record [
    ("version", .text version),
    ("state", .text v.state.name),
    ("address", .record [("host", .text v.address.host), ("port", .int v.address.port.toNat)]),
    ("listening", .ofOption (fun s => .text s.show) v.bound),
    ("secure", .bool v.secure)]

def mountReport (m : MountInfo) : Data :=
  .record [
    ("application", .text m.application),
    ("app_id", .int m.appId),
    ("path", .text m.path),
    ("scopes", .list (m.scopes.tags.map .text)),
    ("priority", .int m.priority)]

def proposalReport (p : Proposal) : Data :=
  .record [("route", .text p.route), ("priority", .int p.priority)]

def indexReport (v : ServerView) : Data :=
  .record [
    ("winner", .ofOption .text v.index.winner),
    ("url", .ofOption .text (v.index.url v.names)),
    ("proposals", .list (v.index.ranking.map proposalReport))]

/-! ## Access -/

/-- Whether the request presents `key`: its first `authorization` header is text and consists of
the word `Bearer`, a space and the key. -/
def isAuthorized (key : String) (req : Http.Request) : Bool :=
  (req.headers.first? "authorization").bind Http.HeaderValue.text? == some ("Bearer " ++ key)

def rejected (path : String) : Log.Event where
  level := .debug
  part := ["admin", "auth"]
  message := "Rejected status request without valid API key"
  fields := [("path", path)]

/-- Let `inner` answer the requests that present the key, if there is one. -/
def guarded (key : Option String) (inner : Handler) : Handler := fun around req => do
  match key with
  | none => inner around req
  | some key =>
    if isAuthorized key req then inner around req
    else
      Journal.note (rejected req.path)
      return { status := 401 }

/-! ## The application -/

/-- Answer with a report on the server `server`. -/
def page (server : Nat) (report : ServerView → Journaled Data) : Handler := fun around _ =>
  match around.servers server with
  | none => return .notFound
  | some v => return .withJson (← report v).json

/-- The pages of the status application of the server `server`. -/
def pages (server : Nat) : Application.Routes := [
  ("/status", page server fun v => return statusReport v),
  ("/mounts", page server fun v => return .list (v.mounts.map mountReport)),
  ("/index", page server fun v => do
    Journal.notes (v.index.urlEvents v.names)
    return indexReport v)]

/-- The status application of the server `server`. -/
def application (id server : Nat) (key : Option String) : Application where
  id := id
  name := "admin"
  serve := Application.Routes.handler (guarded key) (pages server)
  keeps := some server

end AppHost.Admin
