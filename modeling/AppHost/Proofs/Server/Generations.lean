import AppHost.Proofs.Server.Books

/-!
# Generations of servers

Every load makes a server of its own, whose tables count from zero again. Those who hold an older
server go on using it, with handles that have the same numbers as those of the newer ones. An
`Estate` is a host with all the rights that were handed out for the tables of its servers.

What is done through a server stays with that server (`OnlyIn`). Whatever is done, the books of both
tables can be kept, and they go on from what they were (`Standing.step`, `Standing.after`). To unload
a server is one more move of its history, which takes all entries away; so the rights that were
handed out before are worth nothing for ever, however the tables are used later on (`Void`).
-/

namespace AppHost

open Journaled

/-! ## Estates -/

/-- A host, and for every number of a server the rights that were handed out through it, in their
order. -/
structure Estate where
  host : Host
  mountRights : Nat → List Right := fun _ => []
  pageRights : Nat → List Right := fun _ => []

/-- What is done with a host and its servers. -/
inductive Deed where
  | load (c : Config.HttpServerConfig)
  | unload
  | mounts (g : Nat) (m : Move MountTable.Mounting)
  | pages (g : Nat) (m : Move (String × Int))
  | register (g : Nat) (name url : String)
  | unregister (g : Nat) (name : String)
  /-- Forget the servers that nobody holds any more. -/
  | forget (held : List Nat)

/-- The server through which something is done. -/
def Deed.server? : Deed → Option Nat
  | mounts g _ | pages g _ | register g _ _ | unregister g _ => some g
  | load _ | unload | forget _ => none

/-- What is done empties the tables of the server that is loaded. -/
def Deed.Closes (d : Deed) : Prop := d = .unload ∨ ∃ c, d = .load c

namespace Estate

def step (s : Estate) : Deed → Journaled Estate
  | .load c => do
    let (host, _) ← s.host.load c
    return { s with host }
  | .unload => do
    let host ← s.host.unload
    return { s with host }
  | .mounts g m => do
    let (host, mountRights) ← s.host.onDesk Router.mountDesk s.mountRights g m
    return { s with host, mountRights }
  | .pages g m => do
    let (host, pageRights) ← s.host.onDesk Router.pageDesk s.pageRights g m
    return { s with host, pageRights }
  | .register g name url => do
    let (host, _) ← s.host.onRouter g (Router.naming name url)
    return { s with host }
  | .unregister g name => do
    let (host, _) ← s.host.onRouter g (Router.unnaming name)
    return { s with host }
  | .forget held => return { s with host := s.host.sweep held }

theorem value_step_mounts (s : Estate) (g : Nat) (m : Move MountTable.Mounting) (j : Journal) :
    let x := (s.host.onDesk Router.mountDesk s.mountRights g m).value j
    (s.step (.mounts g m)).value j = { s with host := x.1, mountRights := x.2 } := rfl

theorem value_step_pages (s : Estate) (g : Nat) (m : Move (String × Int)) (j : Journal) :
    let x := (s.host.onDesk Router.pageDesk s.pageRights g m).value j
    (s.step (.pages g m)).value j = { s with host := x.1, pageRights := x.2 } := rfl

theorem value_step_register (s : Estate) (g : Nat) (name url : String) (j : Journal) :
    (s.step (.register g name url)).value j =
      { s with host := ((s.host.onRouter g (Router.naming name url)).value j).1 } := rfl

theorem value_step_unregister (s : Estate) (g : Nat) (name : String) (j : Journal) :
    (s.step (.unregister g name)).value j =
      { s with host := ((s.host.onRouter g (Router.unnaming name)).value j).1 } := rfl

def run (s : Estate) (ds : List Deed) : Journaled Estate := ds.foldlM step s

/-- What becomes of an estate. -/
def after (s : Estate) (ds : List Deed) (j : Journal) : Estate := (s.run ds).value j

theorem after_cons (s : Estate) (d : Deed) (ds : List Deed) (j : Journal) :
    s.after (d :: ds) j = ((s.step d).value j).after ds ((s.step d).rest j) := by
  simp only [after, run, List.foldlM_cons, value_bind]

/-- The host is sound, and the books of both tables are right, with the mounts and the pages of the
past. -/
structure Standing (s : Estate) (ms : Nat → List (Move MountTable.Mounting))
    (ps : Nat → List (Move (String × Int))) : Prop where
  sound : s.host.Sound
  mounts : Router.mountSide.Books s.host s.mountRights ms
  pages : Router.pageSide.Books s.host s.pageRights ps

/-- The books can be kept, and for every server they go on from the mounts `ms` and the pages `ps`. -/
def GoesOn (s : Estate) (ms : Nat → List (Move MountTable.Mounting))
    (ps : Nat → List (Move (String × Int))) : Prop :=
  ∃ ms' ps', Standing s ms' ps' ∧ (∀ n, ms n <+: ms' n) ∧ ∀ n, ps n <+: ps' n

variable {s : Estate} {ms : Nat → List (Move MountTable.Mounting)}
  {ps : Nat → List (Move (String × Int))}

theorem Standing.goesOn (h : Standing s ms ps) : s.GoesOn ms ps :=
  ⟨ms, ps, h, fun _ => List.prefix_rfl, fun _ => List.prefix_rfl⟩

theorem standing_start (ports : Config.PortConfig) (policy : RetryPolicy) :
    Standing { host := { ports, policy } } (fun _ => []) fun _ => [] := by
  have hnone : ∀ {n : Nat} {srv : Server},
      ({ ports, policy } : Host).server? n = some srv → False :=
    fun he => Option.some_ne_none _ he.symm
  constructor
  · exact ⟨.nil, fun _ hm => absurd hm List.not_mem_nil,
      fun g hc => absurd hc.symm (Option.some_ne_none g)⟩
  · exact ⟨fun _ _ he => (hnone he).elim, fun _ _ => ⟨rfl, rfl⟩⟩
  · exact ⟨fun _ _ he => (hnone he).elim, fun _ _ => ⟨rfl, rfl⟩⟩

/-- To load or to unload enters a clearing for the server that was loaded. -/
theorem Standing.close (h : Standing s ms ps) {d : Deed} (hd : d.Closes) (j : Journal) :
    Standing ((s.step d).value j)
      (fun n => if s.host.current = some n then ms n ++ [.clear] else ms n)
      (fun n => if s.host.current = some n then ps n ++ [.clear] else ps n) := by
  rcases hd with rfl | ⟨c, rfl⟩
  · simp only [step, value_bind, Host.value_unload, value_pure]
    exact ⟨h.sound.closed, h.mounts.closed h.sound, h.pages.closed h.sound⟩
  · simp only [step, value_bind, Host.value_load, value_pure]
    exact ⟨h.sound.closed.opened c, (h.mounts.closed h.sound).opened h.sound.closed c,
      (h.pages.closed h.sound).opened h.sound.closed c⟩

theorem prefix_update {α : Type} (past : Nat → List α) (g : Nat) (ms : List α) (n : Nat) :
    past n <+: Function.update past g (past g ++ ms) n := by
  by_cases hn : n = g
  · subst hn
    rw [Function.update_self]
    exact List.prefix_append _ _
  · rw [Function.update_of_ne hn]

/-- **One step goes on from the past of every server.** -/
theorem Standing.step (h : Standing s ms ps) (d : Deed) (j : Journal) :
    ((s.step d).value j).GoesOn ms ps := by
  have hclose : d.Closes → ((s.step d).value j).GoesOn ms ps := by
    intro hd
    refine ⟨_, _, h.close hd j, fun n => ?_, fun n => ?_⟩
    all_goals
      split
      · exact List.prefix_append _ _
      · exact List.prefix_rfl
  cases d with
  | load c => exact hclose (.inr ⟨c, rfl⟩)
  | unload => exact hclose (.inl rfl)
  -- A move at one of the tables is entered in its books, and the other table stays as it is.
  | mounts g m =>
    obtain ⟨l, hmounts⟩ := h.mounts.onDesk h.sound g m j
    rw [value_step_mounts]
    exact ⟨_, ps, ⟨h.sound.onRouter g _ j, hmounts, h.pages.onRouter h.sound g _ j
      fun r _ _ hr => Router.pageSide_shows_mounts (b := ⟨r, _⟩) hr m j⟩, prefix_update ms g l,
      fun _ => List.prefix_rfl⟩
  | pages g m =>
    obtain ⟨l, hpages⟩ := h.pages.onDesk h.sound g m j
    rw [value_step_pages]
    exact ⟨ms, _, ⟨h.sound.onRouter g _ j, h.mounts.onRouter h.sound g _ j
      fun r _ _ hr => Router.mountSide_shows_pages (b := ⟨r, _⟩) hr m j, hpages⟩,
      fun _ => List.prefix_rfl, prefix_update ps g l⟩
  | register g name url =>
    rw [value_step_register]
    exact Standing.goesOn ⟨h.sound.onRouter g _ j,
      h.mounts.onRouter h.sound g _ j fun _ _ _ h => h,
      h.pages.onRouter h.sound g _ j fun _ _ _ h => h⟩
  | unregister g name =>
    rw [value_step_unregister]
    exact Standing.goesOn ⟨h.sound.onRouter g _ j,
      h.mounts.onRouter h.sound g _ j fun _ _ _ h => h,
      h.pages.onRouter h.sound g _ j fun _ _ _ h => h⟩
  | forget held =>
    have hframe : ∀ n s', (s.host.sweep held).server? n = some s' → s.host.server? n = some s' :=
      fun n s' he => Host.server?_of_sweep h.sound he
    exact Standing.goesOn ⟨h.sound.sweep held,
      h.mounts.of_frame (Nat.le_refl _) fun n s' he => ⟨s', hframe n s' he, fun _ _ h => h⟩,
      h.pages.of_frame (Nat.le_refl _) fun n s' he => ⟨s', hframe n s' he, fun _ _ h => h⟩⟩

theorem Standing.after (h : Standing s ms ps) (ds : List Deed) (j : Journal) :
    (s.after ds j).GoesOn ms ps := by
  induction ds generalizing s ms ps j with
  | nil => exact h.goesOn
  | cons d ds ih =>
    obtain ⟨ms', ps', h', hm, hp⟩ := h.step d j
    obtain ⟨ms'', ps'', h'', hm', hp'⟩ := ih h' ((s.step d).rest j)
    rw [after_cons]
    exact ⟨ms'', ps'', h'', fun n => (hm n).trans (hm' n), fun n => (hp n).trans (hp' n)⟩

/-! ## Isolation -/

/-- Apart from the router of the server `g`, and the rights handed out through it, all is the same. -/
structure OnlyIn (s : Estate) (g : Nat) (s' : Estate) : Prop where
  host : ∃ r, s'.host = s.host.reroute g r
  servers : ∀ n, n ≠ g → s'.host.server? n = s.host.server? n
  mountRights : ∀ n, n ≠ g → s'.mountRights n = s.mountRights n
  pageRights : ∀ n, n ≠ g → s'.pageRights n = s.pageRights n

/-- What is done through a server stays with that server. -/
theorem onlyIn_step (hs : s.host.Sound) {d : Deed} {g : Nat} (hd : d.server? = some g)
    (j : Journal) : s.OnlyIn g ((s.step d).value j) := by
  have hhost : ∃ r, ((s.step d).value j).host = s.host.reroute g r := by
    cases d with
    | mounts | pages | register | unregister =>
      cases hd
      exact Host.onRouter_eq_reroute hs g _ j
    | load | unload | forget => cases hd
  refine ⟨hhost, fun n hn => ?_, fun n hn => ?_, fun n hn => ?_⟩
  · obtain ⟨r, hr⟩ := hhost
    rw [hr, Host.server?_reroute, if_neg hn]
  · cases d with
    | mounts => cases hd; exact Function.update_of_ne hn _ _
    | pages | register | unregister => cases hd; rfl
    | load | unload | forget => cases hd
  · cases d with
    | pages => cases hd; exact Function.update_of_ne hn _ _
    | mounts | register | unregister => cases hd; rfl
    | load | unload | forget => cases hd

/-- No right that had been handed out through the server `g` in `s` changes anything in `later`. -/
structure Void (s : Estate) (g : Nat) (later : Estate) : Prop where
  mounts : ∀ k < (s.mountRights g).length, ∀ m, m = .revoke k ∨ m = .drop k → ∀ j,
    ((later.step (.mounts g m)).value j).host = later.host
  pages : ∀ k < (s.pageRights g).length, ∀ m, m = .revoke k ∨ m = .drop k → ∀ j,
    ((later.step (.pages g m)).value j).host = later.host

/-- The rights handed out so far are void once their server is unloaded, whatever comes later. -/
theorem Standing.void (h : Standing s ms ps) {g : Nat} (hg : s.host.current = some g) {d : Deed}
    (hd : d.Closes) (j : Journal) (later : List Deed) (j' : Journal) :
    s.Void g (((s.step d).value j).after later j') := by
  obtain ⟨srv, he⟩ := h.sound.loaded g hg
  -- Whatever comes later, the history of the server has a clearing where `d` was done.
  obtain ⟨ms', ps', h', hms, hps⟩ := (h.close hd j).after later j'
  constructor
  · intro k hk m hm i
    obtain ⟨l, hl⟩ : ms g ++ [.clear] <+: ms' g := by simpa only [if_pos hg] using hms g
    refine h'.mounts.onDesk_of_cleared h'.sound hl.symm ?_ hm i
    rw [(h.mounts.agrees g srv he).issued, List.length_map]
    exact hk
  · intro k hk m hm i
    obtain ⟨l, hl⟩ : ps g ++ [.clear] <+: ps' g := by simpa only [if_pos hg] using hps g
    refine h'.pages.onDesk_of_cleared h'.sound hl.symm ?_ hm i
    rw [(h.pages.agrees g srv he).issued, List.length_map]
    exact hk

/-- After a load or an unload the tables of the server that was loaded are empty, and all other
servers are as they were. -/
theorem server?_step_of_closes (hs : s.host.Sound) {d : Deed} (hd : d.Closes) (j : Journal) {n : Nat}
    {srv : Server} (he : s.host.server? n = some srv) :
    ((s.step d).value j).host.server? n =
      some (if s.host.current = some n then srv.emptied else srv) := by
  have hclosed : s.host.closed.server? n =
      some (if s.host.current = some n then srv.emptied else srv) := by
    rw [Host.server?_closed hs, he]
    split
    · rfl
    · rfl
  rcases hd with rfl | ⟨c, rfl⟩
  · simpa only [step, value_bind, Host.value_unload, value_pure] using hclosed
  · simp only [step, value_bind, Host.value_load, value_pure]
    cases hp : s.host.closed.portOf c with
    | none => simpa only [Host.opened, hp] using hclosed
    | some port =>
      have hn : n ≠ s.host.closed.next := by
        rw [Host.next_closed]
        exact (Host.lt_next_of_server? hs he).ne
      rw [Host.server?_opened hs.closed hp, if_neg hn, hclosed]

/-- What a successful load comes to: a server with a new number and with empty tables. -/
structure Fresh (s : Estate) (h : Host) (n : Nat) : Prop where
  unused : s.host.server? n = none
  loaded : h.current = some n
  tables : ∃ srv, h.server? n = some srv ∧ srv.router = {}
  mountRights : s.mountRights n = []
  pageRights : s.pageRights n = []

theorem Standing.fresh (h : Standing s ms ps) {c : Config.HttpServerConfig} {j : Journal} {host : Host}
    {n : Nat} (hl : (s.host.load c).value j = (host, .ok n)) : s.Fresh host n := by
  rw [Host.value_load] at hl
  cases hp : s.host.closed.portOf c with
  | none =>
    simp only [Host.opened, hp] at hl
    cases hl
  | some port =>
    have hopened := Host.server?_opened h.sound.closed hp s.host.closed.next
    have hcurrent : (s.host.closed.opened c).1.current = some s.host.closed.next := by
      simp only [Host.opened, hp]
    obtain rfl : s.host.closed.next = n := by
      simp only [Host.opened, hp] at hl
      cases hl
      rfl
    rw [hl, if_pos rfl] at hopened
    rw [hl] at hcurrent
    rw [Host.next_closed] at hopened hcurrent ⊢
    exact ⟨Host.server?_next h.sound, hcurrent, ⟨_, hopened, rfl⟩,
      (h.mounts.unused _ (Nat.le_refl _)).1, (h.pages.unused _ (Nat.le_refl _)).1⟩

/-- **Generations are isolated.** Whatever has been done with a host and its servers: what is done
through a server, by whoever holds it or a right to one of its entries, stays with that server. A
load that succeeds makes a server with a new number, whose tables and names are empty. A load or an
unload empties the tables of the server that was loaded and leaves all others as they are. And no
right that was handed out through that server until then ever changes anything again, however its
tables are used later on. -/
theorem generations_isolated (ports : Config.PortConfig) (policy : RetryPolicy) (ds : List Deed)
    (j : Journal) :
    let s : Estate := Estate.after { host := { ports, policy } } ds j
    (∀ d g, d.server? = some g → ∀ j', s.OnlyIn g ((s.step d).value j')) ∧
    (∀ c j' host n, (s.host.load c).value j' = (host, .ok n) → s.Fresh host n) ∧
    (∀ d, d.Closes → ∀ j', let s' := (s.step d).value j'
      s'.mountRights = s.mountRights ∧ s'.pageRights = s.pageRights ∧
      (∀ n srv, s.host.server? n = some srv → s.host.current ≠ some n →
        s'.host.server? n = some srv) ∧
      ∀ g, s.host.current = some g →
        (∃ srv, s'.host.server? g = some srv ∧
          srv.router.mounts.entries = [] ∧ srv.router.index.items = #[]) ∧
        ∀ later j'', s.Void g (s'.after later j'')) := by
  intro s
  obtain ⟨ms, ps, h, -, -⟩ := (standing_start ports policy).after ds j
  refine ⟨fun d g hd j' => onlyIn_step h.sound hd j', fun c j' host n hl => h.fresh hl,
    fun d hd j' => ⟨?_, ?_, fun n srv he hn => ?_, fun g hg => ⟨?_, ?_⟩⟩⟩
  · rcases hd with rfl | ⟨c, rfl⟩ <;> rfl
  · rcases hd with rfl | ⟨c, rfl⟩ <;> rfl
  · exact (server?_step_of_closes h.sound hd j' he).trans (by rw [if_neg hn])
  · obtain ⟨srv, he⟩ := h.sound.loaded g hg
    exact ⟨srv.emptied, (server?_step_of_closes h.sound hd j' he).trans (by rw [if_pos hg]), rfl, rfl⟩
  · exact fun later j'' => h.void hg hd j' later j''

/-- A handle of a server that was replaced, used when both that server and the new one have an entry
with its number. -/
theorem generations_isolated_replaced :
    let m : MountTable.Mounting := { application := .echo 0 "app", path := "/x" }
    let s : Estate := Estate.after { host := {} } [.load {}, .mounts 0 (.ask m false)] {}
    let later := ((s.step (.load {})).value {}).after
      [.mounts 0 (.ask m false), .mounts 1 (.ask m false)] {}
    s.host.current = some 0 ∧ 0 < (s.mountRights 0).length ∧
      ((later.step (.mounts 0 (.revoke 0))).value {}).host = later.host := by
  intro m s later
  have hcurrent : s.host.current = some 0 := by decide +kernel
  have hright : 0 < (s.mountRights 0).length := by decide +kernel
  obtain ⟨-, -, hcloses⟩ := generations_isolated {} {} [.load {}, .mounts 0 (.ask m false)] {}
  obtain ⟨-, -, -, hempty⟩ := hcloses (.load {}) (.inr ⟨{}, rfl⟩) {}
  have hvoid : s.Void 0 later := (hempty 0 hcurrent).2 _ {}
  exact ⟨hcurrent, hright, hvoid.mounts 0 hright _ (.inl rfl) {}⟩

/-- Only the rights to the server that is unloaded are void. One to an older server, which somebody
has gone on using, still removes its entry there. -/
theorem older_generation_goes_on : ¬ ∀ (ds : List Deed) (d : Deed) (g k n : Nat), d.Closes →
    let s : Estate := Estate.after { host := {} } ds {}
    s.host.current.isSome = true → k < (s.mountRights g).length →
    let s' := (s.step d).value {}
    (((s'.step (.mounts g (.revoke k))).value {}).host.server? n).map
        (fun srv => srv.router.mounts.size) =
      (s'.host.server? n).map fun srv => srv.router.mounts.size := by
  intro h
  have hsize := h [.load {}, .load {},
    .mounts 0 (.ask { application := .echo 0 "app", path := "/x" } false)] .unload 0 0 0 (.inl rfl)
    (by decide +kernel) (by decide +kernel)
  exact absurd hsize (by decide +kernel)

end Estate

end AppHost
