import AppHost.Cli.Arguments
import AppHost.Launch
import AppHost.Log.Filter

/-!
# What a command line comes to

The exit code is 0 if all that was asked for was done, 2 if the command line makes no sense, and 1
if something failed later on. The log goes to the output, as far as the configured filter shows
it; complaints are kept apart from it.
-/

namespace AppHost.Cli

structure Report where
  exitCode : Nat
  /-- The lines of the output. -/
  output : List String := []
  /-- The lines of the complaints. -/
  complaints : List String := []
  deriving DecidableEq, Repr

namespace Report

def usage (e : UsageError) : Report where
  exitCode := 2
  complaints := [s!"error: {e.message}", "", "Usage: http-host [OPTIONS]", "",
    "For more information, try '--help'."]

/-- The line that says why the program failed. -/
def failureLine (inspected : String) : String := s!"Error: {inspected}"

/-- Complaints about rules of a filter that are left out. -/
def ignored (es : List (String × Log.RuleError)) : List String :=
  es.map fun e => s!"ignoring `{e.1}`: {e.2.message}"

/-- The report on a launch with configuration `c`. -/
def ofLaunch (c : Config.HostConfig) (m : Machine) (signal : StopSignal) (fuel : Nat) :
    Except NoEnd Report := do
  let (result, journal) := (Launch.run c version m signal fuel).run {}
  let (filter, wrong) := Log.Filter.parse (Log.directive c.observability.logLevel)
  let output := (journal.events.filter filter.shows).map Log.Event.line
  match ← result with
  | .ok () => return { exitCode := 0, output, complaints := ignored wrong }
  | .error e =>
    return { exitCode := 1, output, complaints := ignored wrong ++ [failureLine e.inspect] }

end Report

/-- Do what the arguments ask for. -/
def report (m : Machine) (signal : StopSignal) (fuel : Nat) (args : List String) :
    Except NoEnd Report :=
  match Request.parse args with
  | .error e => .ok (.usage e)
  | .ok .help => .ok { exitCode := 0, output := helpText }
  | .ok .version => .ok { exitCode := 0, output := [versionText] }
  | .ok (.serve o) =>
    match o.resolve (Config.load m.files m.here) with
    | .error e => .ok { exitCode := 1, complaints := [Report.failureLine e.inspect] }
    | .ok c => Report.ofLaunch c m signal fuel

end AppHost.Cli
