import AppHost.Cli.Arguments
import AppHost.Launch
import AppHost.Proofs.Admin.Landing
import AppHost.Proofs.Server.Host

/-!
# What validation foresees

A configuration is validated without doing anything with it. Each rule stands for something that a
launch does later on: to load the server, to read the address of the counters, to mount the status
page. The rules agree with what is done there: a configuration is valid exactly if all of it would
go well, and each problem names the one thing that would not. So what was found valid is launched
without an error before the server serves.
-/

namespace AppHost

open Journaled

/-! ## A fresh server -/

namespace Host

variable {ports : Config.PortConfig} {c : Config.HttpServerConfig} {h : Host} {n : Nat}
  {j : Journal}

/-- The first load of a host succeeds if there is a port. Its server has empty tables. -/
theorem value_load_first (ports : Config.PortConfig) (c : Config.HttpServerConfig) (j : Journal) :
    (({ ports } : Host).load c).value j =
      match c.port.or (ports.portOf "http") with
      | none => ({ ports }, .error (.validation [Config.noPort]))
      | some port =>
        ({ ports, current := some 0, servers := [({ ports } : Host).fresh c port], next := 1 },
          .ok 0) :=
  value_load { ports } c j

theorem server?_of_load_first (hl : (({ ports } : Host).load c).value j = (h, .ok n)) :
    ∃ port, c.port.or (ports.portOf "http") = some port ∧
      h.server? n = some (({ ports } : Host).fresh c port) := by
  rw [value_load_first] at hl
  cases hp : c.port.or (ports.portOf "http") with
  | none => rw [hp] at hl; cases hl
  | some port =>
    rw [hp] at hl
    cases hl
    exact ⟨port, rfl, rfl⟩

end Host

namespace Admin

/-- On a server that was just loaded the status page is refused for its path only. -/
theorem value_mountStatus_of_load_first {ports : Config.PortConfig}
    {server : Config.HttpServerConfig} {h : Host} {n : Nat} {j j' : Journal}
    (hl : (({ ports } : Host).load server).value j' = (h, .ok n)) (id : Nat)
    (c : Config.AdminConfig) :
    ((h.onRouter n (mountStatus id n c)).value j).2 =
      if Http.Target.startsWith c.path "/" then
        some (.ok ⟨{ number := 0 }, { number := 0 }⟩)
      else some (.error (.invalidPath c.path)) := by
  obtain ⟨port, -, hs⟩ := Host.server?_of_load_first hl
  have hempty : (Host.fresh { ports } server port).router = {} := rfl
  simp only [Host.value_onRouter, hs, hempty, value_mountStatus_first]
  split
  · rfl
  · rfl

end Admin

/-! ## Rules and checks -/

namespace Config

/-- What a launch does with a configuration that may go wrong. -/
inductive Check where
  | port
  | tls
  | metrics
  | page
  deriving DecidableEq, Repr

namespace Check

def all : List Check := [port, tls, metrics, page]

theorem mem_all (k : Check) : k ∈ all := by cases k <;> decide

/-- What has gone wrong, if there is a problem with the field. -/
def ofField? : String → Option Check
  | "http_server.port" => some port
  | "ports.base_port" => some port
  | "ports" => some port
  | "http_server.certfile" => some tls
  | "observability.metrics_address" => some metrics
  | "admin.path" => some page
  | _ => none

/-- The check goes well. The server is loaded on a port other than zero; there are both files for TLS
or none; the counters have a socket address, if they are to be offered; and the status page, if there
is to be one, can be mounted on a server that was just loaded. -/
def Passes (c : HostConfig) (j : Journal) : Check → Prop
  | port => ∃ h n s, (({ ports := c.ports } : Host).load c.httpServer).value j = (h, .ok n) ∧
      h.server? n = some s ∧ s.address.port ≠ 0
  | tls => c.httpServer.certfile.isSome = true ↔ c.httpServer.keyfile.isSome = true
  | metrics => c.observability.metricsEnabled = true →
      (Net.SocketAddr.parse? c.observability.metricsAddress).isSome = true
  | page => c.admin.enabled = true → ∀ ports server h n j',
      (({ ports } : Host).load server).value j' = (h, .ok n) →
      ∀ id, ∃ p, ((h.onRouter n (Admin.mountStatus id n c.admin)).value j).2 = some (.ok p)

/-- What the validation has to say about the check. -/
def problems (c : HostConfig) : Check → List Problem
  | port => c.portProblems
  | tls => c.tlsProblems
  | metrics => c.metricsProblems
  | page => c.adminProblems

/-- A rule finds nothing if the check goes well, and else one problem, with a field of the check. -/
inductive Verdict (c : HostConfig) (j : Journal) (k : Check) : Prop where
  | passes : k.problems c = [] → k.Passes c j → Verdict c j k
  | fails (p : Problem) :
    k.problems c = [p] → ofField? p.field = some k → ¬ k.Passes c j → Verdict c j k

variable (c : HostConfig) (j : Journal)

theorem passes_port_iff : port.Passes c j ↔
    ∃ p, c.httpServer.port.or (c.ports.portOf "http") = some p ∧ p ≠ 0 := by
  constructor
  · rintro ⟨h, n, s, hl, hs, hp⟩
    obtain ⟨p, hport, hs'⟩ := Host.server?_of_load_first hl
    cases hs.symm.trans hs'
    exact ⟨p, hport, hp⟩
  · rintro ⟨p, hport, hp⟩
    have hl := Host.value_load_first c.ports c.httpServer j
    rw [hport] at hl
    exact ⟨_, _, _, hl, rfl, hp⟩

/-- Most rules have one problem to find. -/
theorem Verdict.of_ite {c : HostConfig} {j : Journal} {k : Check} (p : Problem) (bad : Prop)
    [Decidable bad] (hproblems : k.problems c = if bad then [p] else [])
    (hfield : ofField? p.field = some k) (hiff : k.Passes c j ↔ ¬ bad) : Verdict c j k := by
  by_cases hb : bad
  · rw [if_pos hb] at hproblems
    exact .fails p hproblems hfield fun h => hiff.mp h hb
  · rw [if_neg hb] at hproblems
    exact .passes hproblems (hiff.mpr hb)

theorem verdict_port : Verdict c j port := by
  have hiff := passes_port_iff c j
  -- A configured port decides alone; else that of the service does, if it has one.
  cases hport : c.httpServer.port with
  | some p =>
    have hproblems : port.problems c =
        if p = 0 then [⟨"http_server.port", "must be between 1 and 65535"⟩] else [] := by
      simp only [problems, HostConfig.portProblems, hport]
    refine .of_ite _ _ hproblems rfl ?_
    rw [hiff, hport]
    simp
  | none =>
    rw [hport, Option.none_or] at hiff
    cases hservice : c.ports.portOf "http" with
    | some p =>
      have hproblems : port.problems c =
          if p = 0 then [⟨"ports.base_port", "derived http port must not be 0"⟩] else [] := by
        simp only [problems, HostConfig.portProblems, hport, hservice]
      refine .of_ite _ _ hproblems rfl ?_
      rw [hiff, hservice]
      simp
    | none =>
      refine .fails noPort (by simp only [problems, HostConfig.portProblems, hport, hservice]) rfl ?_
      rw [hiff, hservice]
      simp

theorem verdict_tls : Verdict c j tls := by
  refine .of_ite _ _ (ite_not ..).symm rfl ?_
  rw [Passes, Decidable.not_not]
  exact Bool.eq_iff_iff.symm

theorem verdict_metrics : Verdict c j metrics := by
  refine .of_ite _ _ rfl rfl ?_
  simp only [Passes, Bool.and_eq_true, not_and, Option.isNone_iff_eq_none,
    ← Option.isSome_iff_ne_none]

/-- The status page can be mounted on one fresh server if it can be mounted on all. -/
theorem passes_page_iff : page.Passes c j ↔
    (c.admin.enabled = true → Http.Target.startsWith c.admin.path "/" = true) := by
  refine imp_congr_right fun _ => ⟨fun h => ?_, fun hp ports server h n j' hl id => ?_⟩
  · obtain ⟨p, hmount⟩ := h {} {} _ _ {} (Host.value_load_first {} {} {}) 0
    rw [Admin.value_mountStatus_of_load_first (Host.value_load_first {} {} {})] at hmount
    split at hmount
    · assumption
    · cases hmount
  · exact ⟨_, (Admin.value_mountStatus_of_load_first hl id c.admin).trans (if_pos hp)⟩

theorem verdict_page : Verdict c j page := by
  refine .of_ite _ _ rfl rfl ?_
  rw [passes_page_iff, Bool.and_eq_true, not_and, Bool.not_eq_true', Bool.not_eq_false]
  rfl

theorem verdict (k : Check) : Verdict c j k := by
  cases k with
  | port => exact verdict_port c j
  | tls => exact verdict_tls c j
  | metrics => exact verdict_metrics c j
  | page => exact verdict_page c j

theorem problems_eq_nil_iff (k : Check) : k.problems c = [] ↔ k.Passes c j := by
  cases verdict c j k with
  | passes hp h => exact iff_of_true hp h
  | fails p hp _ h => exact iff_of_false (by simp [hp]) h

/-- The problems of some rules name the checks that go wrong, in their order. -/
theorem map_ofField?_flatMap (ks : List Check) :
    (ks.flatMap (problems c)).map (fun p => ofField? p.field) =
      (ks.filter fun k => !(k.problems c).isEmpty).map some := by
  induction ks with
  | nil => rfl
  | cons k ks ih =>
    rw [List.flatMap_cons, List.map_append, ih, List.filter_cons]
    cases verdict c {} k with
    | passes hp _ => simp [hp]
    | fails p hp hf _ => simp [hp, hf]

end Check

theorem HostConfig.problems_eq_flatMap (c : HostConfig) :
    c.problems = Check.all.flatMap (Check.problems c) := by
  simp [problems, Check.all, Check.problems]

theorem validated_eq (c : HostConfig) :
    validated c = if c.problems = [] then .ok c else .error (.validation c.problems) := by
  unfold validated
  cases c.problems with
  | nil => rfl
  | cons p ps => rfl

theorem eq_of_validated {c c' : HostConfig} (h : validated c = .ok c') : c' = c := by
  rw [validated_eq] at h
  split at h
  · cases h
    rfl
  · cases h

theorem validated_eq_ok_iff (c : HostConfig) (j : Journal) :
    validated c = .ok c ↔ ∀ k : Check, k.Passes c j := by
  have hnil : c.problems = [] ↔ ∀ k : Check, k.Passes c j := by
    rw [c.problems_eq_flatMap, List.flatMap_eq_nil_iff]
    exact ⟨fun h k => (Check.problems_eq_nil_iff c j k).mp (h k k.mem_all),
      fun h k _ => (Check.problems_eq_nil_iff c j k).mpr (h k)⟩
  rw [validated_eq, ← hnil]
  split
  · exact iff_of_true rfl ‹_›
  · exact iff_of_false nofun ‹_›

/-- Whatever a command line resolves to was found valid, as the host will see it. -/
theorem validated_of_resolve {load : String → Except ConfigError HostConfig} {o : Cli.Options}
    {c : HostConfig} (h : o.resolve load = .ok c) : validated c = .ok c := by
  have hvalidated : ∀ c', validated (o.override c') = .ok c → validated c = .ok c := by
    intro c' hc
    obtain rfl := eq_of_validated hc
    exact hc
  unfold Cli.Options.resolve at h
  cases hpath : o.config with
  | none =>
    rw [hpath] at h
    exact hvalidated {} h
  | some path =>
    rw [hpath] at h
    cases hload : load path with
    | ok c' =>
      simp only [hload] at h
      exact hvalidated c' h
    | error e =>
      simp only [hload] at h
      cases h

end Config

/-! ## The launch -/

namespace Launch

/-- A launch has nothing to complain about before the server serves: the server is loaded, with its
status page if it is to have one, the counters have an address, and what may fail is to serve. -/
structure Foreseen (c : Config.HostConfig) : Prop where
  prepares : ∀ j, ∃ ready, (prepare c).value j = .ok ready ∧ ready.page.isSome = c.admin.enabled
  exports : ∀ net j, ∃ es, ((exportMetrics c.observability net).rest j).events = j.events ++ es ∧
    ∀ text, unreadableAddress text ∉ es
  serves : ∀ version m signal fuel j e,
    (run c version m signal fuel).value j = .ok (.error e) → ∃ r, e = .serve r

open Config

variable {c : HostConfig}

theorem prepares_of_passes (h : ∀ (k : Check) (j : Journal), k.Passes c j) (j : Journal) :
    ∃ ready, (prepare c).value j = .ok ready ∧ ready.page.isSome = c.admin.enabled := by
  obtain ⟨host, n, -, hl, -, -⟩ := h .port j
  simp only [prepare, value_bind, hl]
  generalize (({ ports := c.ports } : Host).load c.httpServer).rest j = j'
  cases he : c.admin.enabled with
  | false => exact ⟨{ host, server := n }, rfl, rfl⟩
  | true =>
    obtain ⟨page, hpage⟩ := h .page j' he c.ports c.httpServer host n j hl 1
    obtain ⟨host', hmount⟩ : ∃ host', (host.onRouter n (Admin.mountStatus 1 n c.admin)).value j' =
        (host', some (.ok page)) := ⟨_, Prod.ext rfl hpage⟩
    refine ⟨{ host := host', server := n, page := some page }, ?_, rfl⟩
    simp only [Bool.not_true, Bool.false_eq_true, if_false, value_bind, hmount]
    rfl

theorem exports_of_passes (h : Check.metrics.Passes c {}) (net : Net.Network) (j : Journal) :
    ∃ es, ((exportMetrics c.observability net).rest j).events = j.events ++ es ∧
      ∀ text, unreadableAddress text ∉ es := by
  unfold exportMetrics
  cases hm : c.observability.metricsEnabled with
  | false => exact ⟨[], (List.append_nil _).symm, fun _ => List.not_mem_nil⟩
  | true =>
    obtain ⟨a, ha⟩ := Option.isSome_iff_exists.mp (h hm)
    simp only [ha]
    cases net.listen a with
    | ok bound => exact ⟨[exporting a], rfl, fun text => by simp [unreadableAddress, exporting]⟩
    | error e =>
      exact ⟨[notExporting a e], rfl, fun text => by simp [unreadableAddress, notExporting]⟩

/-- Once the server is loaded with its page, a launch fails only if serving does. -/
theorem serves_of_prepares
    (h : ∀ j, ∃ ready, (prepare c).value j = .ok ready ∧ ready.page.isSome = c.admin.enabled)
    (version : String) (m : Machine) (signal : StopSignal) (fuel : Nat) (j : Journal)
    {e : LaunchError} (he : (run c version m signal fuel).value j = .ok (.error e)) :
    ∃ r, e = .serve r := by
  simp only [run, value_bind] at he
  obtain ⟨ready, hready, -⟩ := h ((exportMetrics c.observability m.network).rest
    ((Journal.note (starting version)).rest j))
  rw [hready] at he
  simp only [value_bind] at he
  split at he
  · cases he
  · rename_i served _
    cases hs : served.elim (.ok ()) ServeRun.result with
    | ok =>
      simp only [value_bind, hs] at he
      cases he
    | error r =>
      simp only [value_bind, hs] at he
      cases he
      exact ⟨r, rfl⟩

theorem foreseen_of_validated (hv : validated c = .ok c) : Foreseen c := by
  have hpass : ∀ (k : Check) (j : Journal), k.Passes c j :=
    fun k j => (validated_eq_ok_iff c j).mp hv k
  have hprepares := prepares_of_passes hpass
  exact ⟨hprepares, exports_of_passes (hpass .metrics {}), fun version m signal fuel j _ he =>
    serves_of_prepares hprepares version m signal fuel j he⟩

end Launch

namespace Config

/-- **Validation foresees the launch.** A configuration is valid exactly if every check goes well
with it; the rule for TLS is that the server gets both files as soon as it is given one. Otherwise
the error has one problem for each check that goes wrong, and no others. And whatever a command line
and the file that it names resolve to is launched without an error before the server serves. -/
theorem validated_foresees_launch (c : HostConfig) (j : Journal) :
    (validated c = .ok c ↔ ∀ k : Check, k.Passes c j) ∧
    (Check.tls.Passes c j ↔ (c.httpServer.tlsFiles.isSome = true ↔
      c.httpServer.certfile.isSome = true ∨ c.httpServer.keyfile.isSome = true)) ∧
    (validated c = .ok c ∨ ∃ (ps : List Problem) (ks : List Check),
      validated c = .error (.validation ps) ∧
      ps.map (fun p => Check.ofField? p.field) = ks.map some ∧ ks.Nodup ∧
      ∀ k : Check, k ∈ ks ↔ ¬ k.Passes c j) ∧
    ∀ files here (o : Cli.Options), o.resolve (load files here) = .ok c → Launch.Foreseen c := by
  refine ⟨validated_eq_ok_iff c j, ?_, ?_, fun files here o ho =>
    Launch.foreseen_of_validated (validated_of_resolve ho)⟩
  · unfold Check.Passes HttpServerConfig.tlsFiles
    cases c.httpServer.certfile <;> cases c.httpServer.keyfile <;> simp
  · rw [validated_eq]
    split
    · exact .inl rfl
    · refine .inr ⟨c.problems, Check.all.filter fun k => !(k.problems c).isEmpty, rfl, ?_, ?_, ?_⟩
      · rw [c.problems_eq_flatMap, Check.map_ofField?_flatMap]
      · exact List.Nodup.sublist List.filter_sublist (by decide)
      · intro k
        rw [List.mem_filter, ← Check.problems_eq_nil_iff, ← List.isEmpty_iff]
        simp [k.mem_all]

/-- The default configuration, with another port. -/
theorem validated_foresees_launch_port :
    let o : Cli.Options := { port := some 8080 }
    o.resolve (load {} []) = .ok (o.override {}) ∧ Launch.Foreseen (o.override {}) := by
  intro o
  have h : o.resolve (load {} []) = .ok (o.override {}) := by
    show validated (o.override {}) = .ok (o.override {})
    rw [validated_eq, if_pos (by decide +kernel)]
  exact ⟨h, (validated_foresees_launch (o.override {}) {}).2.2.2 {} [] o h⟩

end Config

end AppHost
