import AppHost.Log.Event
import AppHost.Metrics

/-!
# The journal of a host

Everything that operations leave behind beside their results: log events in order, counters, and
how many request identifiers were made. `Journaled` is a computation that writes to a journal;
nothing ever reads it back to decide what to do next.
-/

namespace AppHost

structure Journal where
  events : List Log.Event := []
  metrics : Metrics := {}
  /-- How many request identifiers were made so far. -/
  minted : Nat := 0
  deriving DecidableEq, Repr

abbrev Journaled := StateM Journal

namespace Journal

def note (e : Log.Event) : Journaled Unit :=
  modify fun j => { j with events := j.events ++ [e] }

def notes (es : List Log.Event) : Journaled Unit :=
  modify fun j => { j with events := j.events ++ es }

def count (f : Metrics → Metrics) : Journaled Unit :=
  modify fun j => { j with metrics := f j.metrics }

/-- Report that a mount table now has `n` entries. -/
def setMounts (n : Nat) : Journaled Unit := count fun m => { m with mounts := some n }

/-- The number of a fresh request identifier. -/
def mint : Journaled Nat := modifyGet fun j => (j.minted, { j with minted := j.minted + 1 })

end Journal

end AppHost
