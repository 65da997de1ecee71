import AppHost.Routing.Scope

/-!
# Listings of mounts

What a status report shows of a mount: plain data, without the application itself.
-/

namespace AppHost

structure MountInfo where
  application : String
  appId : Nat
  path : String
  scopes : ScopeSet
  priority : Int
  deriving DecidableEq

end AppHost
