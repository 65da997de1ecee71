import AppHost.Router

/-!
# Changes to a router

What extensions do with a router: mount and unmount, propose and withdraw pages, name routes. Every
change yields the changed router and what the caller gets.
-/

namespace AppHost.Router

/-- Mount an application; on an error nothing changes. -/
def mount (r : Router) (app : Application) (path : String) (o : MountOptions) :
    Journaled (Router × Except MountError Handle) := do
  match ← r.mounts.grant app path o with
  | .ok (mounts, h) => return ({ r with mounts }, .ok h)
  | .error e => return (r, .error e)

def unmount (r : Router) (h : Handle) : Journaled (Router × Handle) := do
  let (mounts, h) ← r.mounts.revoke h
  return ({ r with mounts }, h)

def propose (r : Router) (route : String) (priority : Int) : Journaled (Router × Handle) := do
  let (index, h) ← r.index.grant route priority
  return ({ r with index }, h)

def withdraw (r : Router) (h : Handle) : Journaled (Router × Handle) := do
  let (index, h) ← r.index.revoke h
  return ({ r with index }, h)

def register (r : Router) (name url : String) : Journaled Router := do
  Journal.note (RouteNames.registered name url)
  return { r with names := r.names.register name url }

/-- Forget a route name; yields the URL that it had. -/
def unregister (r : Router) (name : String) : Router × Option String :=
  ({ r with names := r.names.unregister name }, r.names.urls.find? name)

/-- The URL of a route. -/
def resolve (r : Router) (route : String) : Journaled (Option String) := do
  Journal.notes (r.names.resolveEvents route)
  return r.names.resolve route

def clearMounts (r : Router) : Journaled Router := do
  return { r with mounts := ← r.mounts.clearAll }

def clearIndex (r : Router) : Router := { r with index := r.index.clear }

end AppHost.Router
