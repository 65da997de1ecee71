import AppHost.Serve.Failure
import AppHost.Serve.Shutdown
import AppHost.Serve.Trace

/-!
# Attempts to serve

An attempt does one thing after another, each at its time, and may return after the last of them.
It may also watch the stop signal: once woken it leaves everything else, takes some time to
drain, and returns. All times are milliseconds since the attempt began.
-/

namespace AppHost

/-- What an attempt does. -/
inductive Act where
  | ready
  | listens (address : Option Net.SocketAddr)
  | logs (e : Log.Event)
  deriving DecidableEq, Repr

/-- The act as a happening of attempt number `n`. -/
def Act.happening (n : Nat) : Act → Happening
  | ready => .ready n
  | listens a => .listens a
  | logs e => .logs e

abbrev AttemptResult := Except ServeFailure Unit

structure Attempt where
  /-- In order; an act whose time has passed is done at once. -/
  acts : List (Nat × Act) := []
  /-- When the attempt returns by itself, if it does. -/
  ending : Option (Nat × AttemptResult) := none
  /-- How long it drains once woken by the stop signal, if it watches that. -/
  drain : Option (Nat × AttemptResult) := none
  /-- What it does last, when it returns. -/
  closing : List Act := []

/-- How an attempt would go if nobody cut it short. -/
structure Play where
  acts : List (Nat × Act)
  /-- When and with what result it returns, if it does. -/
  ending : Option (Nat × AttemptResult)
  /-- Whether it returns because the stop signal woke it. -/
  drained : Bool := false

namespace Attempt

/-- The acts at the times at which they are really done, none of them before `now`. -/
def settle (start now : Nat) : List (Nat × Act) → List (Nat × Act)
  | [] => []
  | (t, a) :: rest =>
    let t := max now (start + t)
    (t, a) :: settle start t rest

/-- The time of the last of some settled acts, or `now` if there are none. -/
def lastTime (now : Nat) (acts : List (Nat × Act)) : Nat := (acts.getLast?.map Prod.fst).getD now

/-- How the attempt goes without a stop signal. -/
def undisturbed (a : Attempt) (start : Nat) : Play :=
  let acts := settle start start a.acts
  { acts, ending := a.ending.map fun e => (max (start + e.1) (lastTime start acts), e.2) }

/-- How the attempt goes if it begins at `start`. A signal that comes in the very millisecond in
which the attempt returns comes too late. -/
def play (a : Attempt) (start : Nat) (signal : StopSignal) : Play :=
  let p := a.undisturbed start
  match a.drain, signal.wakes start with
  | some (time, result), some woken =>
    if p.ending.any fun e => e.1 ≤ woken then p
    else
      { acts := p.acts.filter fun x => x.1 ≤ woken
        ending := some (woken + time, result)
        drained := true }
  | _, _ => p

end Attempt

end AppHost
