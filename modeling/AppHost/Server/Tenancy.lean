import AppHost.Server.Host

/-!
# Tenants

A tenant of a host holds things by name: applications, servers that were loaded, handles, guards
and status pages. A name holds one thing of a kind; when it gets another one, the tenant lets go of
the first, after the second is there. Letting go of a guard or a status page takes back its
entries, and letting go of a server leaves it to the host to forget it.
-/

namespace AppHost

inductive Holding where
  /-- The right to unmount an entry of a server; a guard uses it when it goes. -/
  | mount (server : Nat) (handle : Handle) (isGuard : Bool)
  /-- The right to withdraw a proposal. -/
  | proposal (server : Nat) (handle : Handle) (isGuard : Bool)
  | page (server : Nat) (page : Admin.StatusPage)
  deriving DecidableEq, Repr

structure Tenancy where
  host : Host
  /-- The server that is at hand, on whose router the tenant works. -/
  atHand : Option Nat := none
  /-- The servers that the tenant holds. -/
  loads : List (String × Nat) := []
  holdings : List (String × Holding) := []
  applications : List (String × Application) := []
  /-- The number of the next application. -/
  nextApplication : Nat := 1
  /-- Tables as they were at some time. -/
  snapshots : List (String × List MountEntry) := []

abbrev Tenant := StateT Tenancy Journaled

/-- `xs` with `x` under `name`. -/
def renamed {α : Type} (xs : List (String × α)) (name : String) (x : α) : List (String × α) :=
  xs.filter (fun e => e.1 != name) ++ [(name, x)]

namespace Tenancy

/-- A tenancy on a router that no server was loaded for. -/
def standing : Tenancy where
  host := { servers := [{ number := 0, address := ⟨"", 0⟩ }], next := 1 }
  atHand := some 0

def server? (t : Tenancy) : Option Server := t.atHand.bind t.host.server?

def router? (t : Tenancy) : Option Router := t.server?.map Server.router

/-- The servers that the tenant keeps alive; a snapshot keeps those that its applications keep. -/
def held (t : Tenancy) : List Nat :=
  t.loads.map Prod.snd ++ t.atHand.toList ++
    t.snapshots.flatMap fun s => s.2.filterMap fun e => e.application.keeps

/-- Let the host forget what nobody holds. -/
def tidy (t : Tenancy) : Tenancy := { t with host := t.host.sweep t.held }

end Tenancy

namespace Tenant

/-- A number for a new application. -/
def newApplication : Tenant Nat :=
  modifyGet fun t => (t.nextApplication, { t with nextApplication := t.nextApplication + 1 })

def addApplication (name : String) (a : Application) : Tenant Unit :=
  modify fun t => { t with applications := renamed t.applications name a }

/-- Do something on the router of a server, if that is still there. -/
def onServer {α : Type} (n : Nat) (f : Router → Journaled (Router × α)) : Tenant (Option α) := do
  let t ← get
  let (host, a) ← t.host.onRouter n f
  set { t with host }
  return a

/-- Do something on the router at hand; yields also the number of its server. -/
def onRouter {α : Type} (f : Router → Journaled (Router × α)) : Tenant (Option (Nat × α)) := do
  match (← get).atHand with
  | none => return none
  | some n => return (← onServer n f).map fun a => (n, a)

/-! ## Holding and letting go -/

/-- Let go of something. -/
def release : Holding → Tenant Unit
  | .mount n h true => do let _ ← onServer n fun r => r.unmount h
  | .proposal n h true => do let _ ← onServer n fun r => r.withdraw h
  | .page n p => do let _ ← onServer n fun r => return (← p.drop r, ())
  | _ => return ()

/-- Hold `x` under `name`, and let go of what the name held. -/
def hold (name : String) (x : Holding) : Tenant Unit := do
  let old := (← get).holdings.lookup name
  modify fun t => { t with holdings := renamed t.holdings name x }
  match old with
  | some y => release y
  | none => return ()

/-- Put `x` in the place of what `name` holds. -/
def replace (name : String) (x : Holding) : Tenant Unit :=
  modify fun t =>
    { t with holdings := t.holdings.map fun e => if e.1 = name then (name, x) else e }

/-- Let go of what `name` holds, if anything. -/
def drop (name : String) : Tenant Bool := do
  match (← get).holdings.lookup name with
  | none => return false
  | some x =>
    modify fun t => { t with holdings := t.holdings.filter fun e => e.1 != name }
    release x
    return true

/-! ## Entries -/

def mount (name : String) (a : Application) (path : String) (o : MountOptions) (isGuard : Bool) :
    Tenant (Option (Except MountError Unit)) := do
  match ← onRouter fun r => r.mount a path o with
  | none => return none
  | some (_, .error e) => return some (.error e)
  | some (n, .ok h) =>
    hold name (.mount n h isGuard)
    return some (.ok ())

def propose (name route : String) (priority : Int) (isGuard : Bool) : Tenant (Option Unit) := do
  match ← onRouter fun r => r.propose route priority with
  | none => return none
  | some (n, h) =>
    hold name (.proposal n h isGuard)
    return some ()

def mountStatus (name : String) (c : Config.AdminConfig) :
    Tenant (Option (Except MountError Unit)) := do
  match (← get).atHand with
  | none => return none
  | some server =>
    let id ← newApplication
    match ← onServer server (Admin.mountStatus id server c) with
    | none => return none
    | some (.error e) => return some (.error e)
    | some (.ok p) =>
      hold name (.page server p)
      return some (.ok ())

/-- What using a holding comes to. -/
inductive Use where
  /-- A handle was used and is still there. -/
  | used
  /-- A guard was used and is gone. -/
  | consumed
  /-- A status page cannot be used. -/
  | refused

/-- Use the right that `name` holds. -/
def use (name : String) : Tenant (Option Use) := do
  match (← get).holdings.lookup name with
  | none => return none
  | some (.mount n h false) =>
    let _ ← onServer n fun r => r.unmount h
    replace name (.mount n h.used false)
    return some .used
  | some (.proposal n h false) =>
    let _ ← onServer n fun r => r.withdraw h
    replace name (.proposal n h.used false)
    return some .used
  | some (.page ..) => return some .refused
  | some _ =>
    let _ ← drop name
    return some .consumed

/-- Turn the handle that `name` holds into a guard; whether it was one. -/
def guard (name : String) : Tenant (Option Bool) := do
  match (← get).holdings.lookup name with
  | none => return none
  | some (.mount n h false) => replace name (.mount n h true); return some true
  | some (.proposal n h false) => replace name (.proposal n h true); return some true
  | some _ => return some false

/-- Keep the table of a router as it is now. -/
def snapshot (name : String) (r : Router) : Tenant Unit :=
  modify fun t => { t with snapshots := renamed t.snapshots name r.mounts.entries }

/-! ## Servers -/

/-- Load a server, hold it under `name` and take it at hand. -/
def load (name : String) (c : Config.HttpServerConfig) : Tenant (Except Config.ConfigError Unit) := do
  let t ← get
  let (host, result) ← t.host.load c
  match result with
  | .error e =>
    set { t with host }
    return .error e
  | .ok n =>
    set { t with host, atHand := some n, loads := renamed t.loads name n }
    return .ok ()

/-- Take the server that `name` holds at hand. -/
def switch (name : String) : Tenant Bool := do
  match (← get).loads.lookup name with
  | none => return false
  | some n =>
    modify fun t => { t with atHand := some n }
    return true

def unload : Tenant Unit := do
  let t ← get
  set { t with host := ← t.host.unload }

/-- Let go of the host and of all servers; their tables are not emptied. -/
def leave : Tenant Unit :=
  modify fun t => { t with atHand := none, loads := [], host := { t.host with current := none } }

/-- Let the loaded server serve. -/
def run (m : Machine) (signal : StopSignal) (dice : Dice) (fuel : Nat) :
    Tenant (Except NoEnd (Option ServeRun)) := do
  let t ← get
  let (host, r) ← t.host.run m signal dice fuel
  set { t with host }
  return r

end Tenant

end AppHost
