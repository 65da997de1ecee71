import AppHost.IoError

/-!
# TLS errors

Serving TLS needs a certificate file and a private key file that belong together.
-/

namespace AppHost.Tls

/-- What a file is needed for. -/
inductive Role where
  | certificate
  | privateKey
  deriving DecidableEq, Repr

def Role.name : Role → String
  | .certificate => "certificate"
  | .privateKey => "private key"

inductive TlsError where
  | missing (role : Role) (path : String)
  /-- The files exist but are of no use together. -/
  | invalid (certificate key : String) (source : IoError)
  deriving DecidableEq, Repr

namespace TlsError

/-- The message up to the reason why the files are of no use. -/
def summary : TlsError → String
  | missing role path => s!"{role.name} file not found: {path}"
  | invalid certificate key _ => s!"invalid TLS material in {certificate} / {key}: "

def message (e : TlsError) : String :=
  match e with
  | missing _ _ => e.summary
  | invalid _ _ source => e.summary ++ source.message

def inspect : TlsError → String
  | missing role path =>
    s!"Missing \x7b role: {Text.quote role.name}, path: {Text.quote path} \x7d"
  | invalid certificate key source =>
    s!"Invalid \x7b cert: {Text.quote certificate}, key: {Text.quote key}, " ++
      s!"source: {source.inspect} \x7d"

end TlsError

end AppHost.Tls
