import AppHost.Retry.Policy
import AppHost.Serve.Attempt

/-!
# The serve loop

The loop makes one attempt after another. An attempt that ends without failure ends the loop, and
so does the stop signal: the attempt in progress then has a grace period to return, after which
it is dropped. A failure leads to a pause and another attempt as long as the retry policy grants
one, and ends the loop otherwise.

The clock counts milliseconds and stands still while anything is computed. Timers end on whole
milliseconds, so every instant and every uptime is a whole number of them, while thresholds, delays
and grace periods are exact durations. The loop never looks at the state that it publishes, so what
it does depends on the attempts and the signal alone.
-/

namespace AppHost

/-- What a serve loop is given. -/
structure ServePlan where
  policy : RetryPolicy := {}
  /-- How long an attempt may take to return once the loop is to stop. -/
  grace : Duration := .ofSecs 5
  /-- The attempts, by number. -/
  attempts : Nat → Attempt
  signal : StopSignal := .never

/-- Where a serve loop stands before an attempt. -/
structure ServePoint where
  now : Nat := 0
  /-- The failures in a row. -/
  count : Nat := 0
  /-- The number of the next attempt. -/
  next : Nat := 0
  dice : Dice := {}

/-- A serve loop that has ended. -/
structure ServeRun where
  trace : Trace
  result : Except RetriesExhausted Unit
  /-- Where it ended. -/
  last : ServePoint

/-- Why a serve loop does not end. -/
inductive NoEnd where
  /-- An attempt does not return, and nobody stops it. -/
  | hangs
  /-- The bound on the number of attempts is reached. -/
  | outOfFuel
  | arithmetic (e : ArithmeticError)
  deriving DecidableEq, Repr

def NoEnd.message : NoEnd → String
  | hangs => "the attempt does not return"
  | outOfFuel => "too many attempts"
  | arithmetic e => e.message

namespace ServeRun

/-- The run with something in front of its trace. -/
def after (pre : Trace) (r : ServeRun) : ServeRun := { r with trace := pre ++ r.trace }

end ServeRun

namespace ServePoint

/-- The run of a loop that was asked to stop before it makes an attempt. -/
def declined (s : ServePoint) : ServeRun := ⟨[(s.now, .enters .stopped)], .ok (), s⟩

/-- The announcement of the attempt made at `s`, and its call. -/
def called (s : ServePoint) : Trace := [(s.now, .enters .starting), (s.now, .starts s.next)]

end ServePoint

/-- What one turn of a serve loop comes to. -/
inductive Lap where
  | ends (r : ServeRun)
  /-- The next attempt begins at `s`, and `trace` is what happened before. -/
  | again (trace : Trace) (s : ServePoint)

/-- How an attempt ends under the eyes of the loop. -/
inductive Closure where
  /-- It returns at `time`, after the loop was woken by the signal or before that. -/
  | returns (time : Nat) (result : AttemptResult) (woken : Bool)
  /-- Its grace is over at `time`. -/
  | isCut (time : Nat)

namespace Closure

def time : Closure → Nat
  | returns t _ _ => t
  | isCut t => t

/-- Being cut counts as success. -/
def result : Closure → AttemptResult
  | returns _ r _ => r
  | isCut _ => .ok ()

/-- Whether the loop was woken by the signal. -/
def woken : Closure → Bool
  | returns _ _ w => w
  | isCut _ => true

end Closure

namespace ServePlan

/-- How the loop sees an attempt end that began at `start`, if it ends at all. A result in the
millisecond of the signal comes before it unless it answers the signal, and one at the end of the
grace period still counts. -/
def closure (p : ServePlan) (start : Nat) (play : Play) : Option Closure :=
  match play.ending, p.signal.wakes start with
  | none, none => none
  | some (t, r), none => some (.returns t r false)
  | none, some s => some (.isCut (s + p.grace.timerTicks))
  | some (t, r), some s =>
    if t ≤ s && !play.drained then some (.returns t r false)
    else if t ≤ s + p.grace.timerTicks then some (.returns t r true)
    else some (.isCut (s + p.grace.timerTicks))

def tooSlow (p : ServePlan) : Log.Event where
  level := .warn
  part := ["lifecycle", "serve"]
  message := "Server did not drain in time, closing remaining connections"
  fields := [("grace_ms", toString p.grace.millisWord)]

def ignored (f : ServeFailure) : Log.Event where
  level := .debug
  part := ["lifecycle", "serve"]
  message := "Serve error during shutdown ignored"
  fields := [("error", f.message)]

def retrying (p : ServePlan) (f : ServeFailure) (attempt uptime : Nat) : Log.Event where
  level := .error
  part := ["lifecycle", "serve"]
  message := "Server stopped unexpectedly, retrying..."
  fields := [("error", f.message), ("retry", toString attempt),
    ("max_retries", toString p.policy.maxRetries), ("uptime_ms", toString uptime)]

/-- What attempt number `n` does until it ends: it returns and does its last acts, or it is cut
and does nothing more. -/
def attemptTrace (p : ServePlan) (n : Nat) (a : Attempt) (play : Play) (c : Closure) : Trace :=
  match c with
  | .returns t _ _ =>
    play.acts.map (fun x => (x.1, x.2.happening n)) ++
      a.closing.map (fun x => (t, x.happening n))
  | .isCut t =>
    ((play.acts.filter fun x => x.1 ≤ t).map fun x => (x.1, x.2.happening n)) ++
      [(t, .logs p.tooSlow)]

/-- The attempt made at `s`, from the call on. -/
def attemptFrom (p : ServePlan) (s : ServePoint) (play : Play) (c : Closure) : Trace :=
  s.called ++ p.attemptTrace s.next (p.attempts s.next) play c

/-- What the loop does at `time` on the way to retry number `attempt`. -/
def setback (p : ServePlan) (time : Nat) (f : ServeFailure) (attempt up : Nat) : Trace :=
  [(time, .enters .crashed), (time, .logs (p.retrying f attempt up)), (time, .restarts),
    (time, .enters .retrying)]

/-- The uptime of an attempt that took `ms` milliseconds. It is compared with a threshold that may
lie between two of them. -/
def uptime (ms : Nat) : Duration :=
  if h : ms < 1000 <<< 64 then .ofMillis ms h else .ofSecs (.ofNat maxWord)

/-- What the loop does once an attempt has failed with `f` after `up` milliseconds. It stands at
`s`, and `pre` is what happened since the attempt began. -/
def afterFailure (p : ServePlan) (pre : Trace) (f : ServeFailure) (up : Nat) (s : ServePoint) :
    Except NoEnd Lap :=
  match p.policy.onFailure s.count (uptime up) s.dice with
  | .error e => .error (.arithmetic e)
  | .ok (.giveUp, count, dice) =>
    .ok (.ends ⟨pre ++ [(s.now, .enters .crashed), (s.now, .enters .failed)],
      .error ⟨count, f⟩, { s with count, dice }⟩)
  | .ok (.retry attempt delay, count, dice) =>
    let pre := pre ++ p.setback s.now f attempt up
    let wake := s.now + delay.timerTicks
    match (p.signal.wakes s.now).filter (· ≤ wake) with
    | some woken =>
      .ok (.ends ⟨pre ++ [(woken, .enters .stopped)], .ok (), { s with now := woken, count, dice }⟩)
    | none => .ok (.again pre { s with now := wake, count, dice })

/-- What the loop does once the attempt made at `s` has ended by `c`; `pre` is what happened since
the attempt began. -/
def conclude (p : ServePlan) (s : ServePoint) (pre : Trace) (c : Closure) : Except NoEnd Lap :=
  let s' := { s with now := c.time, next := s.next + 1 }
  if c.woken && p.signal.isTrigger then
    let ignoring := match c.result with
      | .error f => [(c.time, Happening.logs (ignored f))]
      | .ok _ => []
    .ok (.ends ⟨pre ++ ignoring ++ [(c.time, .enters .stopped)], .ok (), s'⟩)
  else match c.result with
    | .ok _ => .ok (.ends ⟨pre ++ [(c.time, .enters .stopped)], .ok (), s'⟩)
    | .error f => p.afterFailure pre f (c.time - s.now) s'

/-- One attempt, and the pause after it. -/
def lap (p : ServePlan) (s : ServePoint) : Except NoEnd Lap :=
  if p.signal.isPast s.now then .ok (.ends s.declined)
  else
    let play := (p.attempts s.next).play s.now p.signal
    match p.closure s.now play with
    | none => .error .hangs
    | some c => p.conclude s (p.attemptFrom s play c) c

/-- The loop from a given point on, over at most `fuel` attempts. -/
def runFrom (p : ServePlan) : Nat → ServePoint → Except NoEnd ServeRun
  | 0, _ => .error .outOfFuel
  | fuel + 1, s =>
    match p.lap s with
    | .error e => .error e
    | .ok (.ends r) => .ok r
    | .ok (.again trace s') => (p.runFrom fuel s').map (.after trace)

/-- One run of the loop, which begins with no failures counted. -/
def run (p : ServePlan) (fuel : Nat) (s : ServePoint) : Except NoEnd ServeRun :=
  p.runFrom fuel { s with count := 0 }

/-- Several runs in a row under one signal. -/
def runs (p : ServePlan) (fuel : Nat) : Nat → ServePoint → Except NoEnd (List ServeRun)
  | 0, _ => .ok []
  | n + 1, s => do
    let r ← p.run fuel s
    let rs ← runs { p with signal := p.signal.after r.last.now } fuel n r.last
    return r :: rs

end ServePlan

end AppHost
