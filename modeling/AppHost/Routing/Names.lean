import AppHost.Registry

/-!
# Named routes

An index page proposal names its route by URL or by a registered name. A text that begins with a
slash or holds `://` is a URL and stands for itself; any other is looked up.
-/

namespace AppHost

structure RouteNames where
  urls : Registry String := {}

namespace RouteNames

/-- Whether `sub` occurs in `cs`. -/
def occursIn (sub : List Char) : List Char → Bool
  | [] => sub.isEmpty
  | c :: cs => sub.isPrefixOf (c :: cs) || occursIn sub cs

def isUrl (route : String) : Bool :=
  "/".toList.isPrefixOf route.toList || occursIn "://".toList route.toList

def registered (name url : String) : Log.Event where
  level := .debug
  part := ["routing", "names"]
  message := "Route name registered"
  fields := [("name", name), ("url", url)]

def register (n : RouteNames) (name url : String) : RouteNames := ⟨n.urls.insert name url⟩

def unregister (n : RouteNames) (name : String) : RouteNames := ⟨n.urls.erase name⟩

/-- The URL of `route`, if it is one or has one. -/
def resolve (n : RouteNames) (route : String) : Option String :=
  if isUrl route then some route else n.urls.find? route

def resolveEvents (n : RouteNames) (route : String) : List Log.Event :=
  if isUrl route then [] else n.urls.lookupEvents route "unknown route name"

def names (n : RouteNames) : List String := n.urls.ids

theorem resolve_register {n : RouteNames} {name route : String} (url : String)
    (h : isUrl route = false) :
    (n.register name url).resolve route = if route = name then some url else n.resolve route := by
  simp [resolve, register, h]

end RouteNames

end AppHost
