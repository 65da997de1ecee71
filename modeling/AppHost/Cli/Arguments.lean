import AppHost.Config.Loader

/-!
# Command line arguments

The command line names a configuration file and overrides single settings of it, each at most once.
An option has a long name, and some have a letter; its value is attached to it or is the argument
after it, which then must not look like an option. Arguments are read from left to right, so a
request for help that stands before a mistake is granted.
-/

namespace AppHost.Cli

/-- The options that have a value. -/
inductive Setting where
  | config
  | host
  | port
  | logLevel
  deriving DecidableEq, Repr

namespace Setting

def all : List Setting := [config, host, port, logLevel]

def long : Setting → String
  | config => "config"
  | host => "host"
  | port => "port"
  | logLevel => "log-level"

def letter? : Setting → Option Char
  | config => some 'c'
  | port => some 'p'
  | _ => none

/-- How the value is called in the help text. -/
def valueName : Setting → String
  | config => "CONFIG"
  | host => "HOST"
  | port => "PORT"
  | logLevel => "LOG_LEVEL"

end Setting

/-- The values that a command line gives. -/
structure Options where
  config : Option String := none
  host : Option String := none
  port : Option UInt16 := none
  logLevel : Option String := none
  deriving DecidableEq, Repr

/-- What a command line asks for. -/
inductive Request where
  | serve (options : Options)
  | help
  | version
  deriving DecidableEq, Repr

inductive UsageError where
  | unexpected (arg : String)
  | missingValue (s : Setting)
  | unexpectedValue (option value : String)
  | invalidValue (s : Setting) (value : String)
  | repeated (s : Setting)
  deriving DecidableEq, Repr

def UsageError.message : UsageError → String
  | unexpected arg => s!"unexpected argument '{arg}' found"
  | missingValue s => s!"a value is required for '--{s.long} <{s.valueName}>' but none was supplied"
  | unexpectedValue option value => s!"unexpected value '{value}' for '{option}' found"
  | invalidValue s value => s!"invalid value '{value}' for '--{s.long} <{s.valueName}>'"
  | repeated s => s!"the argument '--{s.long} <{s.valueName}>' cannot be used multiple times"

/-! ## Arguments -/

/-- What an argument is by its form. -/
inductive Word where
  | long (name : String) (value : Option String)
  | short (letter : Char) (rest : List Char)
  /-- Two dashes; no option follows them. -/
  | separator
  | plain (text : String)
  deriving DecidableEq, Repr

def Word.ofString (s : String) : Word :=
  match s.toList with
  | ['-', '-'] => .separator
  | '-' :: '-' :: cs =>
    let name := cs.takeWhile (· != '=')
    .long (String.ofList name)
      (match cs.drop name.length with
        | [] => none
        | _ :: value => some (String.ofList value))
  | '-' :: c :: cs => .short c cs
  | _ => .plain s

/-- What stands behind a letter is its value, with or without an equals sign. -/
def attached : List Char → Option String
  | [] => none
  | '=' :: cs => some (String.ofList cs)
  | cs => some (String.ofList cs)

/-- A port in base 10, with or without a sign; zeros may lead it. -/
def port? (s : String) : Option UInt16 :=
  match s.toList with
  | '-' :: cs => (Text.decimal? cs).bind fun n => if n = 0 then some 0 else none
  | cs =>
    (Text.decimal? (if cs.head? = some '+' then cs.drop 1 else cs)).bind fun n =>
      if n < UInt16.size then some (UInt16.ofNat n) else none

namespace Options

/-- The options with a value for `s`, which must have none yet. -/
def give (o : Options) (s : Setting) (value : String) : Except UsageError Options :=
  match s with
  | .config =>
    if o.config.isSome then .error (.repeated s)
    else if value.isEmpty then .error (.missingValue s)
    else .ok { o with config := some value }
  | .host =>
    if o.host.isSome then .error (.repeated s) else .ok { o with host := some value }
  | .port =>
    if o.port.isSome then .error (.repeated s)
    else match port? value with
      | some p => .ok { o with port := some p }
      | none => .error (.invalidValue s value)
  | .logLevel =>
    if o.logLevel.isSome then .error (.repeated s) else .ok { o with logLevel := some value }

/-- What is asked for by the arguments that follow those that gave the options `o`. `pending` is the
option whose value the next argument is. -/
def parseFrom (o : Options) (pending : Option Setting) : List String → Except UsageError Request
  | [] =>
    match pending with
    | some s => .error (.missingValue s)
    | none => .ok (.serve o)
  | arg :: args =>
    match pending, Word.ofString arg with
    | some s, .plain v => (o.give s v).bind fun o => parseFrom o none args
    | some s, _ => .error (.missingValue s)
    | none, .plain s => .error (.unexpected s)
    | none, .separator =>
      match args with
      | [] => .ok (.serve o)
      | a :: _ => .error (.unexpected a)
    | none, .long name value =>
      match Setting.all.find? (·.long == name), value with
      | some s, some v => (o.give s v).bind fun o => parseFrom o none args
      | some s, none => parseFrom o (some s) args
      | none, value =>
        if name = "help" ∨ name = "version" then
          match value with
          | some v => .error (.unexpectedValue ("--" ++ name) v)
          | none => .ok (if name = "help" then .help else .version)
        else .error (.unexpected arg)
    | none, .short c rest =>
      match Setting.all.find? (·.letter? == some c), attached rest with
      | some s, some v => (o.give s v).bind fun o => parseFrom o none args
      | some s, none => parseFrom o (some s) args
      | none, _ =>
        if c = 'h' then .ok .help
        else if c = 'V' then .ok .version
        else .error (.unexpected arg)

/-- The configuration with the options in the place of its settings. -/
def override (o : Options) (c : Config.HostConfig) : Config.HostConfig :=
  { c with
    httpServer := { c.httpServer with
      host := o.host.getD c.httpServer.host
      port := o.port.or c.httpServer.port }
    observability := { c.observability with
      logLevel := o.logLevel.getD c.observability.logLevel } }

/-- The configuration that the options stand for: that of the file, which `load` reads, or else the
default one, with their values. It has to be valid whatever has been checked before. -/
def resolve (load : String → Except Config.ConfigError Config.HostConfig) (o : Options) :
    Except Config.ConfigError Config.HostConfig := do
  let c ← match o.config with
    | some path => load path
    | none => .ok {}
  Config.validated (o.override c)

end Options

namespace Request

/-- What the arguments ask for. -/
def parse (args : List String) : Except UsageError Request := Options.parseFrom {} none args

end Request

/-! ## Texts -/

def version : String := "0.1.0"

def versionText : String := s!"http-host {version}"

def helpText : List String := [
  "Extensible HTTP host",
  "",
  "Usage: http-host [OPTIONS]",
  "",
  "Options:",
  "  -c, --config <CONFIG>        TOML configuration file",
  "      --host <HOST>            Override `http_server.host`",
  "  -p, --port <PORT>            Override `http_server.port`",
  "      --log-level <LOG_LEVEL>  Override `observability.log_level`",
  "  -h, --help                   Print help",
  "  -V, --version                Print version"]

end AppHost.Cli
