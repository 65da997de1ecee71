import AppHost.Config.Codec
import AppHost.Config.Validation
import AppHost.Files
import AppHost.Toml.Document

/-!
# Loading a configuration

A configuration is read from a TOML document, in the text at hand or in a file, and has to be
valid.
-/

namespace AppHost.Config

/-- The configuration that a text holds, if it is well-formed and valid. -/
def parse (text : String) : Except ConfigError HostConfig :=
  match (Toml.parse? text).bind (HostConfig.ofData? .lenient) with
  | some c => validated c
  | none => .error .parse

/-- The configuration that the file at `path` holds. -/
def load (files : Files) (here : List String) (path : String) : Except ConfigError HostConfig :=
  match files.readText here path with
  | .ok text => parse text
  | .error e => .error (.io e)

end AppHost.Config
