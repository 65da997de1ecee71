import AppHost.Journal
import AppHost.Net.Ip
import AppHost.Serve.State

/-!
# What happens while serving

A trace lists, with the millisecond at which it happens, every step of the serve loop and of the
attempts that it makes. What can be seen from outside is read off the trace: the published state
and address, the log, and the counters.
-/

namespace AppHost

inductive Happening where
  /-- The loop publishes a state. -/
  | enters (state : ServeState)
  /-- The loop makes attempt number `n`. -/
  | starts (n : Nat)
  /-- Attempt number `n` reports that it accepts connections. -/
  | ready (n : Nat)
  /-- An attempt publishes the address that it listens on, or that it listens no more. -/
  | listens (address : Option Net.SocketAddr)
  /-- The loop counts a restart. -/
  | restarts
  | logs (e : Log.Event)
  deriving DecidableEq, Repr

abbrev Trace := List (Nat × Happening)

namespace Happening

/-- The published state after the happening, from the one before it. -/
def next (s : ServeState) : Happening → ServeState
  | enters s' => s'
  | ready _ => s.markRunning
  | _ => s

/-- The published address after the happening. -/
def nextAddress (a : Option Net.SocketAddr) : Happening → Option Net.SocketAddr
  | listens a' => a'
  | _ => a

def stateChanged (s s' : ServeState) : Log.Event where
  level := .trace
  part := ["lifecycle", "serve"]
  message := "Serve state changed"
  fields := [("from", s.label), ("to", s'.label)]

/-- The events of a happening in state `s`. -/
def events (s : ServeState) (h : Happening) : List Log.Event :=
  match h with
  | logs e => [e]
  | h => if h.next s = s then [] else [stateChanged s (h.next s)]

/-- Leave the mark of a happening in the journal. -/
def journal (s : ServeState) (h : Happening) : Journaled Unit := do
  Journal.notes (h.events s)
  if h = restarts then Journal.count fun m => { m with restarts := m.restarts + 1 }

end Happening

namespace Trace

/-- The state that is published after the trace. -/
def finalState (s : ServeState) (tr : Trace) : ServeState :=
  tr.foldl (fun s h => h.2.next s) s

def finalAddress (a : Option Net.SocketAddr) (tr : Trace) : Option Net.SocketAddr :=
  tr.foldl (fun a h => h.2.nextAddress a) a

/-- What happens up to and including the millisecond `t`. -/
def upTo (t : Nat) (tr : Trace) : Trace := tr.takeWhile fun h => h.1 ≤ t

/-- The changes of state, each with its time. -/
def changes (s : ServeState) : Trace → List (Nat × ServeState × ServeState)
  | [] => []
  | (t, h) :: tr =>
    let s' := h.next s
    if s' = s then changes s' tr else (t, s, s') :: changes s' tr

/-- The last state of every millisecond in which the state changes. -/
def lastChanges (s : ServeState) (tr : Trace) : List (Nat × ServeState) :=
  let rec keep : List (Nat × ServeState × ServeState) → List (Nat × ServeState)
    | [] => []
    | (t, _, s') :: rest =>
      match rest with
      | (t', _) :: _ => if t = t' then keep rest else (t, s') :: keep rest
      | [] => [(t, s')]
  keep (changes s tr)

/-- The attempts, each with its time and the state at its start. -/
def starts (s : ServeState) : Trace → List (Nat × ServeState)
  | [] => []
  | (t, .starts _) :: tr => (t, s) :: starts s tr
  | (_, h) :: tr => starts (h.next s) tr

/-- Leave the marks of the trace in the journal. -/
def journal (s : ServeState) : Trace → Journaled Unit
  | [] => return ()
  | (_, h) :: tr => do
    h.journal s
    journal (h.next s) tr

/-- Two traces as one, in order of time; at equal times what is in the first comes first. -/
def interleave : Trace → Trace → Trace
  | [], bs => bs
  | as, [] => as
  | a :: as, b :: bs =>
    if a.1 ≤ b.1 then a :: interleave as (b :: bs) else b :: interleave (a :: as) bs
termination_by as bs => as.length + bs.length

theorem finalState_append (s : ServeState) (a b : Trace) :
    finalState s (a ++ b) = finalState (finalState s a) b := by
  simp [finalState]

end Trace

end AppHost
