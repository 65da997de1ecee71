import AppHost.Proofs.Server.Generations

/-!
# Loads that fail

A load fails exactly if there is no port to listen on, and that is found out after the server that
was loaded is closed. So a load that fails is an unload: without a server it changes nothing, and
with one it empties its tables, voids the rights to them, and leaves the host with none
(`failed_load_unloads`). All other servers go on as before (`GoesOnAlike`).
-/

namespace AppHost

open Journaled

namespace Host

variable {h : Host} {c : Config.HttpServerConfig} {n : Nat}

theorem portOf_closed (h : Host) (c : Config.HttpServerConfig) :
    h.closed.portOf c = h.portOf c := by
  unfold closed
  split
  · rfl
  · rfl

theorem value_load_of_no_port (hp : h.portOf c = none) (j : Journal) :
    (h.load c).value j = (h.closed, .error (.validation [Config.noPort])) := by
  rw [value_load, opened, portOf_closed, hp]

theorem value_load_eq_error_iff {err : Config.ConfigError} (j : Journal) :
    ((h.load c).value j).2 = .error err ↔
      h.portOf c = none ∧ err = .validation [Config.noPort] := by
  cases hp : h.portOf c with
  | none =>
    rw [value_load_of_no_port hp, Except.error.injEq, eq_comm]
    exact (and_iff_right rfl).symm
  | some port =>
    rw [value_load, opened, portOf_closed, hp]
    refine iff_of_false (fun he => ?_) (fun he => ?_)
    · cases he
    · cases he.1

theorem rest_load_of_not_loaded (hc : h.current = none) (hp : h.portOf c = none) (j : Journal) :
    (h.load c).rest j = j := by
  simp only [load, hc, hp, Option.isSome_none, Bool.false_eq_true, if_false, pure_bind, rest_pure]

theorem loaded?_closed (h : Host) : h.closed.loaded? = none := by
  unfold closed
  split
  · rfl
  · rfl

/-- A move at a desk of a server makes of it what its table and the rights to it tell. -/
theorem server?_onDesk {α : Type} (hs : h.Sound) (d : Desk Router α) (rights : Nat → List Right)
    (m : Move α) (j : Journal) :
    ((h.onDesk d rights n m).value j).1.server? n = (h.server? n).map fun s => { s with
      router := ((d.step { table := s.router, rights := rights n } m).value j).table } := by
  cases he : h.server? n with
  | none => rw [onDesk_of_none he, he, Option.map_none]
  | some s => rw [onDesk_of_some hs he, server?_reroute, if_pos rfl, he, Option.map_some,
      Option.map_some]

end Host

namespace Estate

variable {s s' : Estate} {n : Nat}

/-- What is done through the server `n` comes to the same in both. -/
structure GoesOnAlike (s s' : Estate) (n : Nat) : Prop where
  server : s'.host.server? n = s.host.server? n
  mounts : ∀ m j, ((s'.step (.mounts n m)).value j).host.server? n =
    ((s.step (.mounts n m)).value j).host.server? n
  pages : ∀ m j, ((s'.step (.pages n m)).value j).host.server? n =
    ((s.step (.pages n m)).value j).host.server? n

theorem goesOnAlike (hs : s.host.Sound) (hs' : s'.host.Sound)
    (hserver : s'.host.server? n = s.host.server? n) (hm : s'.mountRights n = s.mountRights n)
    (hp : s'.pageRights n = s.pageRights n) : s.GoesOnAlike s' n where
  server := hserver
  mounts m j := by
    rw [value_step_mounts, value_step_mounts]
    show ((s'.host.onDesk _ _ n m).value j).1.server? n =
      ((s.host.onDesk _ _ n m).value j).1.server? n
    rw [Host.server?_onDesk hs', Host.server?_onDesk hs, hserver, hm]
  pages m j := by
    rw [value_step_pages, value_step_pages]
    show ((s'.host.onDesk _ _ n m).value j).1.server? n =
      ((s.host.onDesk _ _ n m).value j).1.server? n
    rw [Host.server?_onDesk hs', Host.server?_onDesk hs, hserver, hp]

theorem value_step_unload (s : Estate) (j : Journal) :
    (s.step .unload).value j = { s with host := s.host.closed } := by
  simp only [step, value_bind, Host.value_unload, value_pure]

theorem value_step_load_of_no_port {c : Config.HttpServerConfig} (hp : s.host.portOf c = none)
    (j : Journal) : (s.step (.load c)).value j = { s with host := s.host.closed } := by
  simp only [step, value_bind, Host.value_load_of_no_port hp, value_pure]

/-- **A load that fails is an unload.** Whatever has been done with a host and its servers: a load
fails exactly if neither the configuration nor the ports of the services tell where to listen, and
what it then leaves is what an unload leaves. If no server was loaded, that is what was there
before. If one was, the host has none any more, the tables of that server are empty, and no right
to one of their entries ever changes anything again. All other servers, with the rights to their
entries, go on as they were. -/
theorem failed_load_unloads (ports : Config.PortConfig) (policy : RetryPolicy) (ds : List Deed)
    (j : Journal) (c : Config.HttpServerConfig) (j' : Journal) :
    let s : Estate := Estate.after { host := { ports, policy } } ds j
    let s' := (s.step (.load c)).value j'
    (∀ err, ((s.host.load c).value j').2 = .error err ↔
      s.host.portOf c = none ∧ err = .validation [Config.noPort]) ∧
    (s.host.portOf c = none →
      s' = (s.step .unload).value j' ∧
      (s.host.current = none → s' = s ∧ (s.step (.load c)).rest j' = j') ∧
      (∀ g, s.host.current = some g →
        s'.host.loaded? = none ∧
        (∃ srv, s.host.server? g = some srv ∧ s'.host.server? g = some srv.emptied) ∧
        (∀ later j'', s.Void g (s'.after later j'')) ∧
        ∀ n, n ≠ g → s.GoesOnAlike s' n)) := by
  intro s s'
  obtain ⟨ms, ps, h, -, -⟩ := (standing_start ports policy).after ds j
  refine ⟨fun err => Host.value_load_eq_error_iff j', fun hp => ?_⟩
  have hcloses : (Deed.load c).Closes := .inr ⟨c, rfl⟩
  have hs' : s' = { s with host := s.host.closed } := value_step_load_of_no_port hp j'
  have hhost : s'.host = s.host.closed := congrArg Estate.host hs'
  refine ⟨hs'.trans (value_step_unload s j').symm, fun hc => ⟨?_, ?_⟩,
    fun g hg => ⟨?_, ?_, ?_, ?_⟩⟩
  · rw [hs', Host.closed_of_current_eq_none hc]
  · exact Host.rest_load_of_not_loaded hc hp j'
  · rw [hhost, Host.loaded?_closed]
  · obtain ⟨srv, he⟩ := h.sound.loaded g hg
    exact ⟨srv, he, (server?_step_of_closes h.sound hcloses j' he).trans (by rw [if_pos hg])⟩
  · exact fun later j'' => h.void hg hcloses j' later j''
  · intro n hn
    refine goesOnAlike h.sound (h.close hcloses j').sound ?_ rfl rfl
    rw [hhost, Host.server?_closed h.sound, if_neg]
    exact fun e => hn (Option.some.inj (hg.symm.trans e)).symm

/-- A server with a mount, on a host whose services have no ports; the next configuration names none
either. The mount is gone, and so is the server. -/
theorem failed_load_unloads_live :
    let m : MountTable.Mounting := { application := .echo 0 "app", path := "/x" }
    let s : Estate := Estate.after { host := { ports := { offsets := ⟨[], by decide⟩ } } }
      [.load { port := some 8080 }, .mounts 0 (.ask m false)] {}
    let s' := (s.step (.load {})).value {}
    s.host.portOf {} = none ∧ s.host.current = some 0 ∧
      (s.host.server? 0).map (fun srv => srv.router.mounts.size) = some 1 ∧
      s'.host.loaded? = none ∧
      (s'.host.server? 0).map (fun srv => srv.router.mounts.size) = some 0 := by
  intro m s s'
  have hport : s.host.portOf {} = none := by decide +kernel
  have hcurrent : s.host.current = some 0 := by decide +kernel
  have hsize : (s.host.server? 0).map (fun srv => srv.router.mounts.size) = some 1 := by
    decide +kernel
  obtain ⟨-, hfails⟩ := failed_load_unloads { offsets := ⟨[], by decide⟩ } {}
    [.load { port := some 8080 }, .mounts 0 (.ask m false)] {} {} {}
  obtain ⟨-, -, hlive⟩ := hfails hport
  obtain ⟨hloaded, ⟨srv, -, hserver⟩, -, -⟩ := hlive 0 hcurrent
  refine ⟨hport, hcurrent, hsize, hloaded, ?_⟩
  exact (congrArg (Option.map _) hserver).trans rfl

end Estate

end AppHost
