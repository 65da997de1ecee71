/-!
# Counters

What a running host counts: routing decisions by outcome, restarts of the serve loop, and the
number of live mounts. A counter that was never touched is not reported.
-/

namespace AppHost

structure Metrics where
  mounted : Nat := 0
  indexRedirect : Nat := 0
  notFound : Nat := 0
  restarts : Nat := 0
  /-- The last reported number of mounts, once there is one. Exported as a floating-point gauge it
  is exact up to `2 ^ 53`, more entries than any table can hold. -/
  mounts : Option Nat := none
  deriving DecidableEq, Repr

namespace Metrics

/-- The counters that were recorded, under their public names. -/
def report (m : Metrics) : List (String × Nat) :=
  let counter (name : String) (n : Nat) := if n = 0 then [] else [(name, n)]
  counter "http_host_requests_total/outcome=mounted" m.mounted ++
  counter "http_host_requests_total/outcome=index_redirect" m.indexRedirect ++
  counter "http_host_requests_total/outcome=not_found" m.notFound ++
  counter "http_host_serve_restarts_total" m.restarts ++
  (m.mounts.map fun n => ("http_host_mounts", n)).toList

end Metrics

end AppHost
