/-!
# Log events

An event is a message with named fields, sent from one part of the host at a severity. Its line
shows the severity, the part, the message and the fields in the order in which they were given.
-/

namespace AppHost.Log

/-- Severities, least severe first. -/
inductive Level where
  | trace
  | debug
  | info
  | warn
  | error
  deriving DecidableEq, Repr

namespace Level

def all : List Level := [trace, debug, info, warn, error]

def name : Level → String
  | trace => "TRACE"
  | debug => "DEBUG"
  | info => "INFO"
  | warn => "WARN"
  | error => "ERROR"

def rank : Level → Nat
  | trace => 0
  | debug => 1
  | info => 2
  | warn => 3
  | error => 4

end Level

structure Event where
  level : Level
  /-- Which part of the host speaks, outermost first. -/
  part : List String
  message : String
  fields : List (String × String) := []
  deriving DecidableEq, Repr

namespace Event

/-- The part under its full name. -/
def target (e : Event) : String := "::".intercalate ("http_host" :: e.part)

def line (e : Event) : String :=
  s!"{e.level.name} {e.target}: {e.message}" ++
    String.join (e.fields.map fun f => s!" {f.1}={f.2}")

end Event

end AppHost.Log
