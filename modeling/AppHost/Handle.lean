/-!
# Handles

Whoever mounts an application or proposes a page gets a handle, the right to take that one entry
away again. A handle works once: it names its entry by number, numbers are never used twice, and
using it a second time does nothing. A guard is a handle that is used when it is dropped.
-/

namespace AppHost

structure Handle where
  /-- The entry that the handle stands for. -/
  number : Nat
  revoked : Bool := false
  deriving DecidableEq, Repr

namespace Handle

/-- The handle after its use. -/
def used (h : Handle) : Handle := { h with revoked := true }

end Handle

end AppHost
