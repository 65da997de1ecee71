/-!
# Shutdown

A coordinator can ask everybody who listens to stop. Listeners are woken when it does so, and
also when it goes away without having done so. `Shutdown` is the coordinator as it stands;
`StopSignal` tells when, over time, a listener is woken and why.
-/

namespace AppHost

structure Shutdown where
  triggered : Bool := false
  /-- Whether the coordinator is still there. -/
  present : Bool := true
  deriving DecidableEq, Repr

namespace Shutdown

def trigger (s : Shutdown) : Shutdown := { s with triggered := true }

def leave (s : Shutdown) : Shutdown := { s with present := false }

/-- Whether a listener that waits for the signal is woken. -/
def resolves (s : Shutdown) : Bool := s.triggered || !s.present

end Shutdown

/-- What becomes of the coordinator, in milliseconds since the clock began. -/
inductive StopSignal where
  | never
  /-- Triggered before anything else happens. -/
  | atOnce
  | triggeredAt (time : Nat)
  /-- Gone without having been triggered. -/
  | abandonedAt (time : Nat)
  deriving DecidableEq, Repr

namespace StopSignal

/-- The signal of a coordinator that is triggered and leaves at the given times, if at all; once
it has left it cannot be triggered. -/
def ofTimes (trigger leave : Option Nat) : StopSignal :=
  match trigger, leave with
  | none, none => never
  | some t, none => triggeredAt t
  | none, some d => abandonedAt d
  | some t, some d => if t < d then triggeredAt t else abandonedAt d

/-- Whether the trigger lies before what happens at `now`. -/
def isPast (s : StopSignal) (now : Nat) : Bool :=
  match s with
  | atOnce => true
  | triggeredAt t => t < now
  | never => false
  | abandonedAt _ => false

/-- When a listener that waits from `now` on is woken. -/
def wakes (s : StopSignal) (now : Nat) : Option Nat :=
  match s with
  | never => none
  | atOnce => some now
  | triggeredAt t => some (max now t)
  | abandonedAt t => some (max now t)

/-- Whether those woken are asked to stop, and not just left alone. -/
def isTrigger : StopSignal → Bool
  | atOnce => true
  | triggeredAt _ => true
  | never => false
  | abandonedAt _ => false

/-- The signal as those see it who start after all that happens at `now`. -/
def after (s : StopSignal) (now : Nat) : StopSignal :=
  match s with
  | triggeredAt t => if t ≤ now then atOnce else s
  | _ => s

theorem wakes_le {s : StopSignal} {now t : Nat} (h : s.wakes now = some t) : now ≤ t := by
  cases s <;> simp only [wakes, reduceCtorEq, Option.some.injEq] at h <;> omega

end StopSignal

end AppHost
