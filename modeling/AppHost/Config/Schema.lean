import AppHost.Text.Quoted

/-!
# Configuration

What a host is told before it starts: how its server listens, which ports its services have, what
it reports, and where its status page is. Every setting has a default.
-/

namespace AppHost.Config

/-- The offsets of services from the base port, sorted by name, each name once. -/
structure Offsets where
  entries : List (String × UInt16)
  sorted : entries.Pairwise fun a b => a.1 < b.1
  deriving DecidableEq

namespace Offsets

def empty : Offsets := ⟨[], .nil⟩

def insertEntry (name : String) (offset : UInt16) :
    List (String × UInt16) → List (String × UInt16)
  | [] => [(name, offset)]
  | e :: es =>
    if name < e.1 then (name, offset) :: e :: es
    else if name = e.1 then (name, offset) :: es
    else e :: insertEntry name offset es

theorem mem_insertEntry {name : String} {offset : UInt16} {e : String × UInt16}
    {es : List (String × UInt16)} (h : e ∈ insertEntry name offset es) :
    e = (name, offset) ∨ e ∈ es := by
  induction es with
  | nil => simp_all [insertEntry]
  | cons d ds ih =>
    rw [insertEntry] at h
    split at h
    · simpa using h
    · split at h <;> simp only [List.mem_cons] at h ⊢ <;> grind

theorem sorted_insertEntry {name : String} (offset : UInt16) {es : List (String × UInt16)}
    (h : es.Pairwise fun a b => a.1 < b.1) :
    (insertEntry name offset es).Pairwise fun a b => a.1 < b.1 := by
  induction es with
  | nil => simp [insertEntry]
  | cons d ds ih =>
    rw [List.pairwise_cons] at h
    rw [insertEntry]
    split
    · rename_i hlt
      rw [List.pairwise_cons, List.pairwise_cons]
      refine ⟨fun e he => ?_, h⟩
      rcases List.mem_cons.1 he with rfl | he
      · exact hlt
      · exact String.lt_trans hlt (h.1 e he)
    · split
      · rename_i heq
        subst heq
        exact List.pairwise_cons.2 h
      · rename_i hlt hne
        refine List.pairwise_cons.2 ⟨fun e he => ?_, ih h.2⟩
        rcases mem_insertEntry he with rfl | he
        · exact Std.lt_of_le_of_ne (Std.not_lt.1 hlt) (Ne.symm hne)
        · exact h.1 e he

/-- With the offset of `name`, in place of any earlier one. -/
def insert (o : Offsets) (name : String) (offset : UInt16) : Offsets :=
  ⟨insertEntry name offset o.entries, sorted_insertEntry offset o.sorted⟩

def find? (o : Offsets) (name : String) : Option UInt16 := o.entries.lookup name

def inspect (o : Offsets) : String :=
  let items := o.entries.map fun e => s!"{Text.quote e.1}: {e.2.toNat}"
  "\x7b" ++ ", ".intercalate items ++ "\x7d"

/-- The services of a host that is told nothing else. -/
def usual : Offsets := ⟨[("http", 0), ("tcp", 1), ("udp", 1)], by decide⟩

end Offsets

structure HttpServerConfig where
  /-- Where to listen; empty means all interfaces. -/
  host : String := "127.0.0.1"
  /-- The port to listen on, if it is not the one of the `http` service. -/
  port : Option UInt16 := none
  certfile : Option String := none
  keyfile : Option String := none
  /-- How long requests may take to finish once the server is to stop. -/
  shutdownGraceSecs : UInt64 := 5
  deriving DecidableEq

/-- The certificate and the key file, if both are configured. -/
def HttpServerConfig.tlsFiles (c : HttpServerConfig) : Option (String × String) :=
  match c.certfile, c.keyfile with
  | some cert, some key => some (cert, key)
  | _, _ => none

structure PortConfig where
  basePort : UInt16 := 5000
  offsets : Offsets := .usual
  deriving DecidableEq

namespace PortConfig

/-- The port of a service, if the service is known and its port is one. -/
def portOf (c : PortConfig) (service : String) : Option UInt16 := do
  let offset ← c.offsets.find? service
  if c.basePort.toNat + offset.toNat < UInt16.size then return c.basePort + offset else none

def inspect (c : PortConfig) : String :=
  s!"PortConfig \x7b base_port: {c.basePort.toNat}, offsets: {c.offsets.inspect} \x7d"

end PortConfig

structure ObservabilityConfig where
  logLevel : String := "info"
  metricsEnabled : Bool := false
  metricsAddress : String := "127.0.0.1:9090"
  deriving DecidableEq

structure AdminConfig where
  enabled : Bool := true
  path : String := "/admin"
  /-- The key that clients of the status page have to present, if any. -/
  apiKey : Option String := none
  deriving DecidableEq

structure HostConfig where
  httpServer : HttpServerConfig := {}
  ports : PortConfig := {}
  observability : ObservabilityConfig := {}
  admin : AdminConfig := {}
  deriving DecidableEq

end AppHost.Config
