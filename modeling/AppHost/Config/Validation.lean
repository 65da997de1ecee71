import AppHost.Config.Schema
import AppHost.IoError
import AppHost.Net.Ip

/-!
# Validation

What a configuration has to satisfy beyond its form: the server has a port other than zero, TLS
has both of its files or none, and what is enabled has a usable address or path. All problems are
reported together.
-/

namespace AppHost.Config

structure Problem where
  field : String
  message : String
  deriving DecidableEq, Repr

def Problem.describe (p : Problem) : String := s!"{p.field}: {p.message}"

def Problem.inspect (p : Problem) : String :=
  s!"ValidationError \x7b field: {Text.quote p.field}, message: {Text.quote p.message} \x7d"

/-- There is neither a configured port nor one of the `http` service. -/
def noPort : Problem := ⟨"ports", "no port configured for the http service"⟩

namespace HostConfig

def portProblems (c : HostConfig) : List Problem :=
  match c.httpServer.port with
  | some p => if p = 0 then [⟨"http_server.port", "must be between 1 and 65535"⟩] else []
  | none =>
    match c.ports.portOf "http" with
    | some p => if p = 0 then [⟨"ports.base_port", "derived http port must not be 0"⟩] else []
    | none => [noPort]

def tlsProblems (c : HostConfig) : List Problem :=
  if c.httpServer.certfile.isSome = c.httpServer.keyfile.isSome then []
  else [⟨"http_server.certfile", "certfile and keyfile must be configured together"⟩]

def metricsProblems (c : HostConfig) : List Problem :=
  let address := c.observability.metricsAddress
  if c.observability.metricsEnabled && (Net.SocketAddr.parse? address).isNone then
    [⟨"observability.metrics_address", s!"invalid socket address {Text.quote address}"⟩]
  else []

def adminProblems (c : HostConfig) : List Problem :=
  if c.admin.enabled && !("/".toList.isPrefixOf c.admin.path.toList) then
    [⟨"admin.path", "must start with '/'"⟩]
  else []

def problems (c : HostConfig) : List Problem :=
  c.portProblems ++ c.tlsProblems ++ c.metricsProblems ++ c.adminProblems

def isValid (c : HostConfig) : Bool := c.problems.isEmpty

end HostConfig

inductive ConfigError where
  | io (e : IoError)
  /-- The text is malformed, or its content does not fit the schema. -/
  | parse
  | validation (problems : List Problem)
  deriving DecidableEq, Repr

namespace ConfigError

def message : ConfigError → String
  | io e => s!"IO error: {e.message}"
  | parse => "Parse error"
  | validation ps => "Validation failed: " ++ ", ".intercalate (ps.map Problem.describe)

def inspect : ConfigError → String
  | io e => s!"Io({e.inspect})"
  | parse => "Parse"
  | validation ps => "Validation([" ++ ", ".intercalate (ps.map Problem.inspect) ++ "])"

end ConfigError

/-- `c` if it is valid. -/
def validated (c : HostConfig) : Except ConfigError HostConfig :=
  match c.problems with
  | [] => .ok c
  | ps => .error (.validation ps)

end AppHost.Config
