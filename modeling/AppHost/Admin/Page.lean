import AppHost.Admin.Status
import AppHost.Config.Schema
import AppHost.Router.Changes

/-!
# The status page

The status application is mounted like any other and offers itself as the landing page, with a
priority below all that other extensions are likely to ask for. Dropping the page takes back the
mount and the proposal; the route name stays.
-/

namespace AppHost.Admin

/-- The name of the route to the status page. -/
def routeName : String := "admin.status"

def indexPriority : Int := -10

structure StatusPage where
  mount : Handle
  proposal : Handle
  deriving DecidableEq, Repr

/-- The URL of the status page for an application that is mounted at `path`. -/
def pageUrl (path : String) : String :=
  String.ofList (path.toList.reverse.dropWhile (· = '/')).reverse ++ "/status"

/-- Mount the status application of the server `server` on its router. -/
def mountStatus (id server : Nat) (c : Config.AdminConfig) (r : Router) :
    Journaled (Router × Except MountError StatusPage) := do
  match ← r.mount (application id server c.apiKey) c.path {} with
  | (r, .error e) => return (r, .error e)
  | (r, .ok mount) =>
    let r ← r.register routeName (pageUrl c.path)
    let (r, proposal) ← r.propose routeName indexPriority
    return (r, .ok { mount, proposal })

namespace StatusPage

/-- Take back what the page has mounted and proposed. -/
def drop (p : StatusPage) (r : Router) : Journaled Router := do
  let (r, _) ← r.unmount p.mount
  let (r, _) ← r.withdraw p.proposal
  return r

end StatusPage

end AppHost.Admin
