import AppHost.Router

/-!
# The gateway

What stands between the listener and the router. Every request gets an identifier unless the
client has sent one, and the answer carries it back unless the application has set one of its
own. A gateway can itself be an application, mounted on another router.
-/

namespace AppHost

namespace Gateway

def requestIdName : String := "x-request-id"

/-- The request with an identifier, a fresh one unless the client has sent one. -/
def identify (around : Surroundings) (req : Http.Request) : Journaled Http.Request := do
  if (req.headers.first? requestIdName).isSome then return req
  let id := around.requestIds (← Journal.mint)
  return { req with headers := req.headers.append requestIdName id }

/-- The answer with the identifier of its request, unless it has one of its own. -/
def propagate (req : Http.Request) (answer : Http.Response) : Http.Response :=
  match req.headers.first? requestIdName with
  | some id => { answer with headers := answer.headers.setIfAbsent requestIdName id }
  | none => answer

/-- Answer a request as the server does. -/
def answer (r : Router) (around : Surroundings) (req : Http.Request) :
    Journaled Http.Response := do
  let req ← identify around req.recordReceived
  let answer ← r.dispatch around req
  return propagate req (answer.forMethod req.method)

/-- A whole router as an application. -/
def application (id : Nat) (name : String) (r : Router) : Application where
  id := id
  name := name
  serve := answer r

end Gateway

end AppHost
