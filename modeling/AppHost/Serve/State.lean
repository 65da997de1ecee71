/-!
# States of the serve loop

An attempt to serve starts, and runs once it accepts connections. It ends cleanly, which stops the
loop, or it crashes, which leads to a retry after a pause or to final failure.
-/

namespace AppHost

inductive ServeState where
  | idle
  | starting
  | running
  | crashed
  | retrying
  | stopped
  | failed
  deriving DecidableEq, Repr

namespace ServeState

/-- The name in status reports. -/
def name : ServeState → String
  | idle => "idle"
  | starting => "starting"
  | running => "running"
  | crashed => "crashed"
  | retrying => "retrying"
  | stopped => "stopped"
  | failed => "failed"

/-- The name in log events. -/
def label : ServeState → String
  | idle => "Idle"
  | starting => "Starting"
  | running => "Running"
  | crashed => "Crashed"
  | retrying => "Retrying"
  | stopped => "Stopped"
  | failed => "Failed"

/-- An attempt reports that it accepts connections, which counts only while it is starting. -/
def markRunning : ServeState → ServeState
  | starting => running
  | s => s

/-- Whether the loop has come to an end. -/
def isOver : ServeState → Bool
  | stopped => true
  | failed => true
  | _ => false

end ServeState

end AppHost
