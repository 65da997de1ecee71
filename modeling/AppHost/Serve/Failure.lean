import AppHost.Net.Bind
import AppHost.Tls.Error

/-!
# Failures to serve

Why a single attempt ended badly, and what is reported once no further attempt is made.
-/

namespace AppHost

inductive ServeFailure where
  | listener (e : Net.ListenerError)
  | tls (e : Tls.TlsError)
  /-- The server itself broke down. -/
  | broken (e : IoError)
  deriving DecidableEq, Repr

namespace ServeFailure

def message : ServeFailure → String
  | listener e => e.message
  | tls e => s!"TLS setup failed: {e.message}"
  | broken e => s!"server stopped unexpectedly: {e.message}"

/-- The message without the reason why TLS files are of no use. -/
def summary : ServeFailure → String
  | tls e => s!"TLS setup failed: {e.summary}"
  | f => f.message

def inspect : ServeFailure → String
  | listener e => s!"Bind({e.inspect})"
  | tls e => s!"Tls({e.inspect})"
  | broken e => s!"Serve({e.inspect})"

end ServeFailure

/-- The retries are used up; `source` is the failure of the last attempt. -/
structure RetriesExhausted where
  retries : Nat
  source : ServeFailure
  deriving DecidableEq, Repr

namespace RetriesExhausted

def message (e : RetriesExhausted) : String :=
  s!"server failed after {e.retries} retries: {e.source.message}"

/-- The message without the reason why TLS files are of no use. -/
def summary (e : RetriesExhausted) : String :=
  s!"server failed after {e.retries} retries: {e.source.summary}"

def inspect (e : RetriesExhausted) : String :=
  s!"RetriesExhausted \x7b retries: {e.retries}, source: {e.source.inspect} \x7d"

end RetriesExhausted

end AppHost
