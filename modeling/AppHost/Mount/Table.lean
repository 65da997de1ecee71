import AppHost.Application
import AppHost.Handle
import AppHost.Mount.Error

/-!
# The mount table

Which application answers under which path. An entry holds an application, a path that its
requests begin with, the scope kinds that it accepts and a priority. Of the entries that match a
connection, the one with the longest path answers; then priority decides, then who came first.

At most one entry holds a given path with given scopes. Mounting the application that already
holds them changes nothing, and mounting another one there is refused.
-/

namespace AppHost

structure MountEntry where
  /-- The place in the order of registration. -/
  seq : Nat
  application : Application
  path : String
  scopes : ScopeSet
  priority : Int

namespace MountEntry

/-- Whether the entry is eligible for a connection. -/
def accepts (e : MountEntry) (scope : ScopeKind) (path : String) : Bool :=
  e.scopes.contains scope && Http.Target.startsWith path e.path

/-- Longer path, then higher priority, then earlier registration. -/
def outranks (a b : MountEntry) : Bool :=
  let m := a.path.utf8ByteSize
  let n := b.path.utf8ByteSize
  n < m || (m == n && (b.priority < a.priority || (a.priority == b.priority && a.seq < b.seq)))

def describe (e : MountEntry) : MountInfo where
  application := e.application.name
  appId := e.application.id
  path := e.path
  scopes := e.scopes
  priority := e.priority

def inspect (e : MountEntry) : String :=
  s!"MountEntry \x7b seq: {e.seq}, application: {e.application.inspect}, " ++
    s!"prefix: {Text.quote e.path}, scopes: {e.scopes.inspect}, priority: {e.priority} \x7d"

end MountEntry

/-- How an application is mounted. -/
structure MountOptions where
  scopes : ScopeSet := .all
  priority : Int := 0

structure MountTable where
  /-- In the order of registration. -/
  entries : List MountEntry := []
  nextSeq : Nat := 0

/-- What a granted mount comes to: the number of the entry, and the table with it unless it was
there already. -/
inductive Mounted where
  | already (seq : Nat)
  | added (table : MountTable)

namespace MountTable

/-- The entry that holds a path with exactly the given scopes. -/
def holder? (t : MountTable) (path : String) (scopes : ScopeSet) : Option MountEntry :=
  t.entries.find? fun e => e.path == path && e.scopes == scopes

/-- With one more entry at the end. -/
def add (t : MountTable) (app : Application) (path : String) (o : MountOptions) : MountTable where
  entries := t.entries ++ [⟨t.nextSeq, app, path, o.scopes, o.priority⟩]
  nextSeq := t.nextSeq + 1

def mount (t : MountTable) (app : Application) (path : String) (o : MountOptions) :
    Except MountError Mounted :=
  if !Http.Target.startsWith path "/" then .error (.invalidPath path)
  else match t.holder? path o.scopes with
    | some e =>
      if e.application.id = app.id then .ok (.already e.seq)
      else .error (.duplicate path o.scopes e.application.name)
    | none => .ok (.added (t.add app path o))

/-- Whether the entry `seq` is live. -/
def contains (t : MountTable) (seq : Nat) : Bool := t.entries.any fun e => e.seq == seq

/-- Without the entry `seq`. -/
def remove (t : MountTable) (seq : Nat) : MountTable :=
  { t with entries := t.entries.filter fun e => e.seq != seq }

/-- Without any entry; numbers are not used again. -/
def clear (t : MountTable) : MountTable := { t with entries := [] }

/-- The one of `es` that outranks all others, given the best one so far. -/
def best (leader : Option MountEntry) : List MountEntry → Option MountEntry
  | [] => leader
  | e :: es =>
    match leader with
    | none => best (some e) es
    | some b => best (some (if e.outranks b then e else b)) es

/-- The entry that a connection goes to. -/
def lookup (t : MountTable) (scope : ScopeKind) (path : String) : Option MountEntry :=
  best none (t.entries.filter fun e => e.accepts scope path)

/-- Whether the application has any live entry. -/
def isMounted (t : MountTable) (app : Nat) : Bool := t.entries.any fun e => e.application.id == app

def describe (t : MountTable) : List MountInfo := t.entries.map MountEntry.describe

def size (t : MountTable) : Nat := t.entries.length

/-! ## Events -/

def alreadyMounted (app : Application) (path : String) : Log.Event where
  level := .debug
  part := ["routing", "mount"]
  message := "Application already mounted"
  fields := [("path", path), ("application", app.name)]

def mountedNow (app : Application) (path : String) (o : MountOptions) : Log.Event where
  level := .info
  part := ["routing", "mount"]
  message := "Mounted application"
  fields := [("path", path), ("scopes", o.scopes.describe), ("priority", toString o.priority),
    ("application", app.name)]

def unmounted (seq : Nat) : Log.Event where
  level := .info
  part := ["routing", "mount"]
  message := "Unmounted application"
  fields := [("entry", toString seq)]

/-! ## Holders -/

/-- Mount an application and hand out the right to unmount it. -/
def grant (t : MountTable) (app : Application) (path : String) (o : MountOptions) :
    Journaled (Except MountError (MountTable × Handle)) := do
  match t.mount app path o with
  | .error e => return .error e
  | .ok (.already seq) =>
    Journal.note (alreadyMounted app path)
    return .ok (t, { number := seq })
  | .ok (.added t') =>
    Journal.note (mountedNow app path o)
    Journal.setMounts t'.size
    return .ok (t', { number := t.nextSeq })

/-- Use a handle: its entry is removed unless the handle was used before or the entry is gone. -/
def revoke (t : MountTable) (h : Handle) : Journaled (MountTable × Handle) := do
  if h.revoked || !t.contains h.number then return (t, h.used)
  let t := t.remove h.number
  Journal.setMounts t.size
  Journal.note (unmounted h.number)
  return (t, h.used)

/-- Remove every entry, so that all handles are void. -/
def clearAll (t : MountTable) : Journaled MountTable := do
  Journal.setMounts 0
  return t.clear

end MountTable

end AppHost
