import AppHost.Config.Schema
import AppHost.Data

/-!
# Configuration as data

A configuration is a record of records. Missing fields take their defaults and unknown fields are
ignored. A record may also be given as the list of its fields in order, of which the last ones may
be missing; whether there may be more items than fields depends on the format. Only an optional
field may be null. `ofData?` reads and `toData` writes.
-/

namespace AppHost.Config

/-- How strict a format is about lists that stand for records. -/
inductive ListRule where
  /-- Items beyond the last field are an error. -/
  | exact
  /-- Items beyond the last field are ignored. -/
  | lenient
  deriving DecidableEq, Repr

/-- The fields of a record, found by name; `names` lists the fields of the schema in order. A
moment counts as a record of none of them. -/
def slots (rule : ListRule) (names : List String) : Data → Option (String → Option Data)
  | .record fields => some fun name => fields.lookup name
  | .list items =>
    if rule = .exact ∧ names.length < items.length then none
    else some fun name => (names.zip items).lookup name
  | .moment _ => some fun _ => none
  | _ => none

/-- A field that takes `default` if it is missing. -/
def field {α : Type} (read : Data → Option α) (default : α) : Option Data → Option α
  | none => some default
  | some d => read d

/-! ## Reading values -/

def text? : Data → Option String
  | .text s => some s
  | _ => none

def bool? : Data → Option Bool
  | .bool b => some b
  | _ => none

def uint16? : Data → Option UInt16
  | .int n => if 0 ≤ n ∧ n < UInt16.size then some (.ofNat n.toNat) else none
  | _ => none

def uint64? : Data → Option UInt64
  | .int n => if 0 ≤ n ∧ n < UInt64.size then some (.ofNat n.toNat) else none
  | _ => none

def optional? {α : Type} (read : Data → Option α) : Data → Option (Option α)
  | .null => some none
  | d => (read d).map some

def offsets? : Data → Option Offsets
  | .record fields =>
    fields.foldlM (fun o e => (uint16? e.2).map (o.insert e.1)) .empty
  | _ => none

/-! ## Reading records -/

def HttpServerConfig.fieldNames : List String :=
  ["host", "port", "certfile", "keyfile", "shutdown_grace_secs"]

def HttpServerConfig.ofData? (rule : ListRule) (d : Data) : Option HttpServerConfig := do
  let slot ← slots rule fieldNames d
  let c : HttpServerConfig := {}
  return {
    host := ← field text? c.host (slot "host")
    port := ← field (optional? uint16?) c.port (slot "port")
    certfile := ← field (optional? text?) c.certfile (slot "certfile")
    keyfile := ← field (optional? text?) c.keyfile (slot "keyfile")
    shutdownGraceSecs := ← field uint64? c.shutdownGraceSecs (slot "shutdown_grace_secs") }

def PortConfig.fieldNames : List String := ["base_port", "offsets"]

def PortConfig.ofData? (rule : ListRule) (d : Data) : Option PortConfig := do
  let slot ← slots rule fieldNames d
  let c : PortConfig := {}
  return {
    basePort := ← field uint16? c.basePort (slot "base_port")
    offsets := ← field offsets? c.offsets (slot "offsets") }

def ObservabilityConfig.fieldNames : List String :=
  ["log_level", "metrics_enabled", "metrics_address"]

def ObservabilityConfig.ofData? (rule : ListRule) (d : Data) : Option ObservabilityConfig := do
  let slot ← slots rule fieldNames d
  let c : ObservabilityConfig := {}
  return {
    logLevel := ← field text? c.logLevel (slot "log_level")
    metricsEnabled := ← field bool? c.metricsEnabled (slot "metrics_enabled")
    metricsAddress := ← field text? c.metricsAddress (slot "metrics_address") }

def AdminConfig.fieldNames : List String := ["enabled", "path", "api_key"]

def AdminConfig.ofData? (rule : ListRule) (d : Data) : Option AdminConfig := do
  let slot ← slots rule fieldNames d
  let c : AdminConfig := {}
  return {
    enabled := ← field bool? c.enabled (slot "enabled")
    path := ← field text? c.path (slot "path")
    apiKey := ← field (optional? text?) c.apiKey (slot "api_key") }

def HostConfig.fieldNames : List String := ["http_server", "ports", "observability", "admin"]

def HostConfig.ofData? (rule : ListRule) (d : Data) : Option HostConfig := do
  let slot ← slots rule fieldNames d
  let c : HostConfig := {}
  return {
    httpServer := ← field (HttpServerConfig.ofData? rule) c.httpServer (slot "http_server")
    ports := ← field (PortConfig.ofData? rule) c.ports (slot "ports")
    observability :=
      ← field (ObservabilityConfig.ofData? rule) c.observability (slot "observability")
    admin := ← field (AdminConfig.ofData? rule) c.admin (slot "admin") }

/-! ## Writing -/

def Offsets.toData (o : Offsets) : Data :=
  .record (o.entries.map fun e => (e.1, .int e.2.toNat))

def HttpServerConfig.toData (c : HttpServerConfig) : Data :=
  .record [
    ("host", .text c.host),
    ("port", .ofOption (fun p => .int p.toNat) c.port),
    ("certfile", .ofOption .text c.certfile),
    ("keyfile", .ofOption .text c.keyfile),
    ("shutdown_grace_secs", .int c.shutdownGraceSecs.toNat)]

def PortConfig.toData (c : PortConfig) : Data :=
  .record [("base_port", .int c.basePort.toNat), ("offsets", c.offsets.toData)]

def ObservabilityConfig.toData (c : ObservabilityConfig) : Data :=
  .record [
    ("log_level", .text c.logLevel),
    ("metrics_enabled", .bool c.metricsEnabled),
    ("metrics_address", .text c.metricsAddress)]

def AdminConfig.toData (c : AdminConfig) : Data :=
  .record [
    ("enabled", .bool c.enabled),
    ("path", .text c.path),
    ("api_key", .ofOption .text c.apiKey)]

def HostConfig.toData (c : HostConfig) : Data :=
  .record [
    ("http_server", c.httpServer.toData),
    ("ports", c.ports.toData),
    ("observability", c.observability.toData),
    ("admin", c.admin.toData)]

end AppHost.Config
