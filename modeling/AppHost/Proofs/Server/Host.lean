import AppHost.Proofs.Journal
import AppHost.Server.Host
import Mathlib.Data.List.Nodup

/-!
# Loading and unloading

What the operations of a host come to, apart from the journal. To load is to close the host, which
empties the tables of the server that is loaded, and then to open it with a new server, which takes
the next number and begins with empty tables. An operation on a router changes the one server that
the router belongs to.
-/

namespace AppHost

open Journaled

/-- The router without mounts and proposals; the names stay. -/
def Router.emptied (r : Router) : Router :=
  { r with mounts := r.mounts.clear, index := r.index.clear }

def Server.emptied (s : Server) : Server := { s with router := s.router.emptied }

namespace Host

variable {h : Host} {n : Nat}

/-! ## Servers by number -/

theorem number_of_server? {s : Server} (hs : h.server? n = some s) : s.number = n := by
  simpa using List.find?_some hs

/-- A change to servers that keeps their numbers. -/
theorem server?_map (h : Host) {f : Server → Server} (hf : ∀ t, (f t).number = t.number) (n : Nat) :
    { h with servers := h.servers.map f }.server? n = (h.server? n).map f := by
  have hnumber : ((fun t : Server => t.number == n) ∘ f) = fun t => t.number == n :=
    funext fun t => congrArg (· == n) (hf t)
  rw [server?, List.find?_map, hnumber, server?]

theorem number_put (s t : Server) :
    (if t.number = s.number then s else t).number = t.number := by
  split
  · exact Eq.symm ‹_›
  · rfl

theorem server?_put (h : Host) (s : Server) (n : Nat) :
    (h.put s).server? n = if n = s.number then (h.server? n).map fun _ => s else h.server? n := by
  rw [put, server?_map h (number_put s)]
  cases ht : h.server? n with
  | none => simp
  | some t =>
    rw [← number_of_server? ht, Option.map_some, Option.map_some]
    split
    · rfl
    · rfl

/-! ## Closing and opening -/

/-- The host with no server loaded, and the tables of the one that was emptied. -/
def closed (h : Host) : Host :=
  match h.loaded? with
  | none => { h with current := none }
  | some s => { h.put s.emptied with current := none }

/-- The server that is made by a load, if it is to listen on `port`. -/
def fresh (h : Host) (c : Config.HttpServerConfig) (port : UInt16) : Server where
  number := h.next
  address := ⟨c.host, port⟩
  tls := c.tlsFiles
  grace := .ofSecs c.shutdownGraceSecs
  policy := h.policy

/-- The host with a new server loaded, if the configuration has a port for it. -/
def opened (h : Host) (c : Config.HttpServerConfig) : Host × Except Config.ConfigError Nat :=
  match h.portOf c with
  | none => (h, .error (.validation [Config.noPort]))
  | some port =>
    ({ h with current := some h.next, servers := h.servers ++ [h.fresh c port], next := h.next + 1 },
      .ok h.next)

theorem value_unload (h : Host) (j : Journal) : h.unload.value j = h.closed := by
  unfold unload closed
  cases h.loaded? with
  | none => rfl
  | some s => rfl

theorem closed_of_current_eq_none (hc : h.current = none) : h.closed = h := by
  rw [closed, loaded?, hc, Option.bind_none]
  cases h
  cases hc
  rfl

theorem next_closed (h : Host) : h.closed.next = h.next := by
  unfold closed
  split
  · rfl
  · rfl

theorem value_load (h : Host) (c : Config.HttpServerConfig) (j : Journal) :
    (h.load c).value j = h.closed.opened c := by
  cases hc : h.current with
  | none =>
    rw [closed_of_current_eq_none hc]
    simp only [load, hc, Option.isSome_none, Bool.false_eq_true, if_false, pure_bind, opened]
    cases h.portOf c with
    | none => rfl
    | some port => rfl
  | some g =>
    simp only [load, hc, Option.isSome_some, if_true, value_bind, value_unload, opened]
    cases h.closed.portOf c with
    | none => rfl
    | some port => rfl

theorem value_onRouter {α : Type} (h : Host) (n : Nat) (f : Router → Journaled (Router × α))
    (j : Journal) : (h.onRouter n f).value j =
      match h.server? n with
      | none => (h, none)
      | some s => (h.put { s with router := ((f s.router).value j).1 },
          some ((f s.router).value j).2) := by
  unfold onRouter
  cases h.server? n with
  | none => rfl
  | some s => rfl

/-! ## Sound hosts -/

/-- No two servers have the same number, numbers are not used again, and the server that is loaded is
there. -/
structure Sound (h : Host) : Prop where
  nodup : (h.servers.map Server.number).Nodup
  lt_next : ∀ s ∈ h.servers, s.number < h.next
  loaded : ∀ g, h.current = some g → ∃ s, h.server? g = some s

theorem server?_eq_some_iff (hn : (h.servers.map Server.number).Nodup) {s : Server} :
    h.server? n = some s ↔ s ∈ h.servers ∧ s.number = n := by
  refine ⟨fun he => ⟨List.mem_of_find?_eq_some he, number_of_server? he⟩, fun ⟨hm, hsn⟩ => ?_⟩
  cases ht : h.server? n with
  | none =>
    have := List.find?_eq_none.mp ht s hm
    simp [hsn] at this
  | some t =>
    have htm : t ∈ h.servers := List.mem_of_find?_eq_some ht
    rw [List.inj_on_of_nodup_map hn htm hm ((number_of_server? ht).trans hsn.symm)]

theorem lt_next_of_server? (hs : h.Sound) {s : Server} (he : h.server? n = some s) : n < h.next := by
  rw [← number_of_server? he]
  exact hs.lt_next s (List.mem_of_find?_eq_some he)

theorem server?_next (hs : h.Sound) : h.server? h.next = none := by
  cases he : h.server? h.next with
  | none => rfl
  | some s => exact absurd (lt_next_of_server? hs he) (Nat.lt_irrefl _)

/-- The host with another router in the place of that of the server `g`. -/
def reroute (h : Host) (g : Nat) (r : Router) : Host :=
  { h with servers := h.servers.map fun t => if t.number = g then { t with router := r } else t }

theorem number_reroute (g : Nat) (r : Router) (t : Server) :
    (if t.number = g then { t with router := r } else t).number = t.number := by
  split
  · rfl
  · rfl

theorem server?_reroute (h : Host) (g : Nat) (r : Router) (n : Nat) :
    (h.reroute g r).server? n =
      if n = g then (h.server? n).map fun s => { s with router := r } else h.server? n := by
  rw [reroute, server?_map h (number_reroute g r)]
  cases ht : h.server? n with
  | none => simp
  | some t =>
    rw [← number_of_server? ht, Option.map_some, Option.map_some]
    split
    · rfl
    · rfl

theorem put_eq_reroute (hs : h.Sound) {s : Server} (he : h.server? n = some s) (r : Router) :
    h.put { s with router := r } = h.reroute n r := by
  obtain rfl := number_of_server? he
  refine congrArg (fun ss => { h with servers := ss }) (List.map_congr_left fun t ht => ?_)
  split
  · rename_i htn
    obtain rfl : s = t := Option.some.inj (he.symm.trans ((server?_eq_some_iff hs.nodup).mpr ⟨ht, htn⟩))
    rfl
  · rfl

/-- To put a router in its own place changes nothing. -/
theorem reroute_self (hs : h.Sound) {s : Server} (he : h.server? n = some s) :
    h.reroute n s.router = h := by
  have hmap : (h.servers.map fun t => if t.number = n then { t with router := s.router } else t) =
      h.servers := by
    refine (List.map_congr_left fun t ht => ?_).trans (List.map_id _)
    split
    · rename_i htn
      obtain rfl : s = t :=
        Option.some.inj (he.symm.trans ((server?_eq_some_iff hs.nodup).mpr ⟨ht, htn⟩))
      rfl
    · rfl
  rw [reroute, hmap]

theorem value_onRouter_of_some {α : Type} (hs : h.Sound) {s : Server} (he : h.server? n = some s)
    (f : Router → Journaled (Router × α)) (j : Journal) :
    (h.onRouter n f).value j =
      (h.reroute n ((f s.router).value j).1, some ((f s.router).value j).2) := by
  simp only [value_onRouter, he, put_eq_reroute hs he]

theorem Sound.map (hs : h.Sound) {f : Server → Server} (hf : ∀ t, (f t).number = t.number) :
    { h with servers := h.servers.map f }.Sound where
  nodup := by
    rw [List.map_map, show Server.number ∘ f = Server.number from funext hf]
    exact hs.nodup
  lt_next s hm := by
    obtain ⟨t, ht, rfl⟩ := List.mem_map.mp hm
    rw [hf]
    exact hs.lt_next t ht
  loaded g hg := by
    obtain ⟨s, he⟩ := hs.loaded g hg
    exact ⟨f s, by rw [server?_map h hf, he, Option.map_some]⟩

theorem Sound.reroute (hs : h.Sound) (g : Nat) (r : Router) : (h.reroute g r).Sound :=
  hs.map (number_reroute g r)

theorem reroute_of_none (he : h.server? n = none) (r : Router) : h.reroute n r = h := by
  have hmap : (h.servers.map fun t => if t.number = n then { t with router := r } else t) =
      h.servers := by
    refine (List.map_congr_left fun t ht => if_neg fun htn => ?_).trans (List.map_id _)
    simpa [htn] using List.find?_eq_none.mp he t ht
  rw [reroute, hmap]

/-- What is done on the router of a server changes that router, and nothing else. -/
theorem onRouter_eq_reroute {α : Type} (hs : h.Sound) (n : Nat)
    (f : Router → Journaled (Router × α)) (j : Journal) :
    ∃ r, ((h.onRouter n f).value j).1 = h.reroute n r := by
  cases he : h.server? n with
  | none =>
    refine ⟨{}, ?_⟩
    simp only [value_onRouter, he, reroute_of_none he]
  | some s => exact ⟨_, congrArg Prod.fst (value_onRouter_of_some hs he f j)⟩

theorem Sound.onRouter {α : Type} (hs : h.Sound) (n : Nat) (f : Router → Journaled (Router × α))
    (j : Journal) : ((h.onRouter n f).value j).1.Sound := by
  obtain ⟨r, hr⟩ := onRouter_eq_reroute hs n f j
  rw [hr]
  exact hs.reroute n r

theorem Sound.closed (hs : h.Sound) : h.closed.Sound := by
  have hnone : ∀ h : Host, h.Sound → { h with current := none }.Sound :=
    fun _ h => ⟨h.nodup, h.lt_next, nofun⟩
  unfold Host.closed
  split
  · exact hnone h hs
  · exact hnone _ (hs.map (number_put _))

/-- To close a host empties the tables of the server that is loaded, and no others. -/
theorem server?_closed (hs : h.Sound) (n : Nat) : h.closed.server? n =
    if h.current = some n then (h.server? n).map Server.emptied else h.server? n := by
  cases hc : h.current with
  | none => rw [closed_of_current_eq_none hc, if_neg nofun]
  | some g =>
    obtain ⟨s, hg⟩ := hs.loaded g hc
    have hclosed : h.closed.server? n = (h.put s.emptied).server? n := by
      rw [closed, loaded?, hc, Option.bind_some, hg]
      rfl
    have hnumber : s.emptied.number = g := (number_of_server? hg : s.number = g)
    rw [hclosed, server?_put, hnumber]
    by_cases hn : n = g
    · subst hn
      rw [if_pos rfl, if_pos rfl, hg]
      rfl
    · rw [if_neg hn, if_neg fun e => hn (Option.some.inj e).symm]

/-- To open a host adds the new server. -/
theorem server?_opened (hs : h.Sound) {c : Config.HttpServerConfig} {port : UInt16}
    (hp : h.portOf c = some port) (n : Nat) : (h.opened c).1.server? n =
      if n = h.next then some (h.fresh c port) else h.server? n := by
  have hopened : (h.opened c).1.server? n =
      (h.server? n).or (if h.next == n then some (h.fresh c port) else none) := by
    simp only [opened, hp, server?, List.find?_append, List.find?_singleton]
    rfl
  rw [hopened]
  by_cases hn : n = h.next
  · subst hn
    simp [server?_next hs]
  · simp [hn, Ne.symm hn]

theorem Sound.opened (hs : h.Sound) (c : Config.HttpServerConfig) : (h.opened c).1.Sound := by
  cases hp : h.portOf c with
  | none => simpa only [Host.opened, hp] using hs
  | some port =>
    have hnew := server?_opened hs hp h.next
    rw [if_pos rfl] at hnew
    simp only [Host.opened, hp] at hnew ⊢
    refine ⟨?_, fun s hm => ?_, fun g hg => ?_⟩
    · rw [List.map_append, List.nodup_append]
      refine ⟨hs.nodup, by simp, fun a ha b hb => ?_⟩
      obtain ⟨s, hm, rfl⟩ := List.mem_map.mp ha
      obtain rfl : b = (h.fresh c port).number := List.mem_singleton.mp hb
      exact Nat.ne_of_lt (hs.lt_next s hm)
    · rcases List.mem_append.mp hm with hm | hm
      · exact Nat.lt_succ_of_lt (hs.lt_next s hm)
      · rw [List.mem_singleton.mp hm]
        exact Nat.lt_succ_self h.next
    · cases hg
      exact ⟨_, hnew⟩

/-- A server that is not forgotten is as it was. -/
theorem server?_of_sweep (hs : h.Sound) {held : List Nat} {s : Server}
    (he : (h.sweep held).server? n = some s) : h.server? n = some s := by
  have hm : s ∈ (h.sweep held).servers := List.mem_of_find?_eq_some he
  exact (server?_eq_some_iff hs.nodup).mpr ⟨(List.mem_filter.mp hm).1, number_of_server? he⟩

theorem Sound.sweep (hs : h.Sound) (held : List Nat) : (h.sweep held).Sound := by
  have hnodup : ((h.sweep held).servers.map Server.number).Nodup :=
    hs.nodup.sublist (List.filter_sublist.map Server.number)
  refine ⟨hnodup, fun s hm => hs.lt_next s (List.mem_filter.mp hm).1, fun g hg => ?_⟩
  obtain ⟨s, he⟩ := hs.loaded g hg
  have hn := number_of_server? he
  refine ⟨s, (server?_eq_some_iff hnodup).mpr ⟨List.mem_filter.mpr ⟨?_, ?_⟩, hn⟩⟩
  · exact List.mem_of_find?_eq_some he
  · rw [hn, show h.current = some g from hg]
    simp

end Host

end AppHost
