import AppHost.Http.Header
import AppHost.Http.Target

/-!
# Requests and responses

A request carries, beside its present target, the one that the client sent. Two methods get less
than the full answer: HEAD never has a body, and neither has a successful CONNECT. Bodies are text,
not bytes: the host hands them on whole and looks into none, and the applications here write text.
-/

namespace AppHost.Http

structure Request where
  method : String := "GET"
  target : Target
  headers : Headers := []
  body : String := ""
  /-- The target as the client sent it, once somebody has recorded it. -/
  received : Option Target := none
  deriving DecidableEq, Repr

namespace Request

def path (r : Request) : String := r.target.path

/-- With the target recorded as the received one, unless one is recorded. -/
def recordReceived (r : Request) : Request :=
  { r with received := some (r.received.getD r.target) }

end Request

structure Response where
  status : Nat
  headers : Headers := []
  body : String := ""
  deriving DecidableEq, Repr

namespace Response

/-- A header value written in this library, where it is known to be legal. -/
def literal (s : String) : HeaderValue := ⟨Text.bytes s⟩

def withText (status : Nat) (body : String) : Response where
  status := status
  headers := [("content-type", literal "text/plain; charset=utf-8")]
  body := body

def withJson (body : String) : Response where
  status := 200
  headers := [("content-type", literal "application/json")]
  body := body

def notFound : Response := withText 404 "Not Found"

/-- A refusal that lists the methods that are allowed. -/
def methodNotAllowed (allow : String) : Response where
  status := 405
  headers := [("allow", literal allow)]

/-- What the client of a request with the given method is sent of `r`. -/
def forMethod (method : String) (r : Response) : Response :=
  if method = "CONNECT" then
    if 200 ≤ r.status ∧ r.status < 300 then { r with body := "" } else r
  else if method = "HEAD" then { r with body := "" } else r

/-- `url`, followed by the query unless it is empty. -/
def withQuery (url : String) (query : Option String) : String :=
  match query with
  | some q => if q.isEmpty then url else s!"{url}?{q}"
  | none => url

/-- A redirect to `location`, or not found if that cannot stand in a header. -/
def redirect (location : String) : Response :=
  match HeaderValue.ofString? location with
  | some v => { status := 302, headers := [("location", v)] }
  | none => notFound

end Response

end AppHost.Http
