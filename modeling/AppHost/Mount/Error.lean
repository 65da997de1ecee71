import AppHost.Routing.Scope

/-!
# Mount errors

A mount is refused if its path does not begin with a slash, or if another application holds the
same path with the same scopes.
-/

namespace AppHost

inductive MountError where
  | duplicate (path : String) (scopes : ScopeSet) (owner : String)
  | invalidPath (path : String)
  deriving DecidableEq

namespace MountError

def message : MountError → String
  | duplicate path scopes owner =>
    s!"path {Text.quote path} with scopes [{scopes.describe}] is already mounted by {Text.quote owner}"
  | invalidPath path => s!"invalid mount path {Text.quote path}: must start with '/'"

def inspect : MountError → String
  | duplicate path scopes owner =>
    s!"DuplicateMount \x7b path: {Text.quote path}, scopes: {scopes.inspect}, " ++
      s!"owner: {Text.quote owner} \x7d"
  | invalidPath path => s!"InvalidPath({Text.quote path})"

end MountError

end AppHost
