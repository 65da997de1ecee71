import AppHost.Proofs.Admin.Access
import AppHost.Proofs.Routing.Nesting
import AppHost.Proofs.Routing.Redirect
import AppHost.Proofs.Server.Generations
import Mathlib.Data.List.DropRight

/-!
# The way to the status page

The status page is mounted at a path as it was given, and its URL is made of that path without any
slash at its end. The mount and the URL meet again as long as the path ends in one slash at most
(`prefix_pageUrl_iff`): what follows the path is then the page, with or without its slash, and the
status application is asked for `/status`. On a server that was just loaded nothing else is in the
way, so that whoever asks for the URL gets the page; for a path that ends in two slashes nobody does
(`page_found_at_url`).
-/

namespace AppHost

open Journaled
open Http (Target Reference)

namespace Admin

/-! ## The URL -/

/-- The path without the slashes at its end. -/
def trimmed (path : String) : List Char := path.toList.rdropWhile (· = '/')

theorem toList_pageUrl (path : String) : (pageUrl path).toList = trimmed path ++ "/status".toList := by
  rw [pageUrl, String.toList_append, String.toList_ofList, trimmed, List.rdropWhile]

theorem exists_eq_trimmed_append (path : String) :
    ∃ k, path.toList = trimmed path ++ List.replicate k '/' := by
  let slashes := path.toList.rtakeWhile (· = '/')
  have hslashes : slashes = List.replicate slashes.length '/' := by
    refine List.eq_replicate_of_mem fun c hc => ?_
    have hslash := List.mem_rtakeWhile_imp hc
    exact of_decide_eq_true hslash
  refine ⟨slashes.length, ?_⟩
  rw [← hslashes, trimmed, List.rdropWhile_append_rtakeWhile]

/-- No slash is left at the end. -/
theorem append_slash_ne_trimmed (cs : List Char) (path : String) : cs ++ ['/'] ≠ trimmed path := by
  intro h
  have hne : trimmed path ≠ [] := by
    rw [← h]
    exact List.concat_ne_nil _ cs
  have hlast : (trimmed path).getLast hne = '/' := by
    simp only [← h, List.getLast_concat]
  exact List.rdropWhile_last_not _ _ hne (decide_eq_true hlast)

/-- There are two slashes at the end. -/
def EndsTwice (path : String) : Prop := "//".toList <:+ path.toList

instance (path : String) : Decidable (EndsTwice path) :=
  inferInstanceAs (Decidable ("//".toList <:+ path.toList))

theorem endsTwice_iff {path : String} {k : Nat}
    (h : path.toList = trimmed path ++ List.replicate k '/') : EndsTwice path ↔ 2 ≤ k := by
  rw [EndsTwice, h]
  match k with
  | 0 =>
    refine iff_of_false ?_ (by decide)
    rintro ⟨cs, hcs⟩
    refine append_slash_ne_trimmed (cs ++ ['/']) path ?_
    simpa using hcs
  | 1 =>
    refine iff_of_false ?_ (by decide)
    rintro ⟨cs, hcs⟩
    have hconcat : cs ++ ['/'] ++ ['/'] = trimmed path ++ ['/'] := by simpa using hcs
    exact append_slash_ne_trimmed cs path (List.append_cancel_right hconcat)
  | k + 2 =>
    refine iff_of_true ⟨trimmed path ++ List.replicate k '/', ?_⟩ (by omega)
    rw [List.replicate_add, List.append_assoc]
    rfl

/-- The URL begins with the path unless that ends in two slashes. -/
theorem prefix_pageUrl_iff {path : String} :
    path.toList <+: (pageUrl path).toList ↔ ¬ EndsTwice path := by
  obtain ⟨k, hk⟩ := exists_eq_trimmed_append path
  rw [endsTwice_iff hk, toList_pageUrl, hk, List.prefix_append_right_inj]
  match k with
  | 0 => exact iff_of_true List.nil_prefix (by decide)
  | 1 => exact iff_of_true (by decide) (by decide)
  | k + 2 =>
    refine iff_of_false ?_ (by omega)
    rw [List.replicate_succ, List.replicate_succ]
    rintro ⟨cs, hcs⟩
    cases hcs

/-- What follows the path is the page. -/
theorem path_beneath_pageUrl {path : String} (h : ¬ EndsTwice path) {t : Target}
    (ht : t.path = pageUrl path) : (t.beneath path).path = "/status" := by
  obtain ⟨k, hk⟩ := exists_eq_trimmed_append path
  rw [endsTwice_iff hk] at h
  have hdrop : t.path.toList.drop path.toList.length = "/status".toList.drop k := by
    rw [ht, toList_pageUrl, hk, List.length_append, List.length_replicate,
      List.drop_length_add_append]
  rw [Target.beneath, hdrop]
  show String.ofList (Target.rooted ("/status".toList.drop k)) = "/status"
  obtain rfl | rfl : k = 0 ∨ k = 1 := by omega
  · decide +kernel
  · decide +kernel

/-- A URL that a slash begins and whose characters are those of a path, like the path it is made
of. -/
theorem startsWith_pageUrl {path : String} (h : Target.startsWith path "/" = true) :
    Target.startsWith (pageUrl path) "/" = true := by
  obtain ⟨k, hk⟩ := exists_eq_trimmed_append path
  rw [Target.startsWith_iff_prefix_toList] at h ⊢
  rw [hk] at h
  rw [toList_pageUrl]
  cases htrim : trimmed path with
  | nil => decide
  | cons c cs =>
    rw [htrim] at h
    obtain ⟨rest, hrest⟩ := h
    cases hrest
    exact List.prefix_append ['/'] _

/-- Two slashes at its beginning are those of the path. -/
theorem prefix_of_prefix_pageUrl {path : String} (h : "//".toList <+: (pageUrl path).toList) :
    "//".toList <+: path.toList := by
  obtain ⟨k, hk⟩ := exists_eq_trimmed_append path
  rw [toList_pageUrl] at h
  match htrim : trimmed path with
  | [] =>
    rw [htrim] at h
    exact absurd h (by decide)
  | [c] =>
    rw [htrim] at h
    obtain ⟨rest, hrest⟩ := h
    cases hrest
    exact absurd htrim.symm (append_slash_ne_trimmed [] path)
  | c :: d :: cs =>
    rw [htrim] at h hk
    obtain ⟨rest, hrest⟩ := h
    cases hrest
    rw [hk]
    exact List.prefix_append "//".toList _

theorem isPathChar_pageUrl {path : String} (h : ∀ c ∈ path.toList, Target.isPathChar c = true) :
    ∀ c ∈ (pageUrl path).toList, Target.isPathChar c = true := by
  obtain ⟨k, hk⟩ := exists_eq_trimmed_append path
  intro c hc
  rw [toList_pageUrl] at hc
  rcases List.mem_append.mp hc with hc | hc
  · exact h c (hk ▸ List.mem_append_left _ hc)
  · have hpage : "/status".toList.all Target.isPathChar = true := by decide
    exact List.all_eq_true.mp hpage c hc

/-- As a reference the URL is a path, unless the path that it is made of begins with two slashes. -/
theorem read_pageUrl {path : String} (hslash : Target.startsWith path "/" = true)
    (hlegal : ∀ c ∈ path.toList, Target.isPathChar c = true)
    (hone : Target.startsWith path "//" = false) : Reference.read (pageUrl path).toList =
      { scheme := none, authority := none, path := (pageUrl path).toList, query := none,
        fragment := none } := by
  have habsent : ∀ c, Target.isPathChar c = false → c ∉ (pageUrl path).toList := by
    intro c hc hmem
    rw [isPathChar_pageUrl hlegal c hmem] at hc
    cases hc
  have hone' : ¬ "//".toList <+: path.toList := by
    rw [← Target.startsWith_iff_prefix_toList, Bool.not_eq_true]
    exact hone
  exact Reference.read_path (Target.startsWith_iff_prefix_toList.mp (startsWith_pageUrl hslash))
    (mt prefix_of_prefix_pageUrl hone') (habsent '?' (by decide)) (habsent '#' (by decide))

/-! ## The page -/

/-- The router of a server on which nothing but the status page is mounted. -/
def soleRouter (id server : Nat) (c : Config.AdminConfig) : Router where
  mounts := ({} : MountTable).add (application id server c.apiKey) c.path {}
  index := ({} : ProposalHeap).propose routeName indexPriority
  names := ({} : RouteNames).register routeName (pageUrl c.path)

/-- On a router without mounts the status page is refused for its path only. -/
theorem value_mountStatus_first (id server : Nat) (c : Config.AdminConfig) (j : Journal) :
    (mountStatus id server c {}).value j =
      if Target.startsWith c.path "/" then
        (soleRouter id server c, .ok ⟨{ number := 0 }, { number := 0 }⟩)
      else ({}, .error (.invalidPath c.path)) := by
  unfold mountStatus Router.mount MountTable.grant MountTable.mount
  cases hp : Target.startsWith c.path "/" with
  | false => rfl
  | true => rfl

/-- The page is the landing page. -/
theorem indexUrl_soleRouter (id server : Nat) (c : Config.AdminConfig) :
    (soleRouter id server c).indexUrl = some (pageUrl c.path) := by
  have hname : RouteNames.isUrl routeName = false := by decide
  show (ProposalHeap.winner _).bind _ = _
  rw [soleRouter, ProposalHeap.winner_propose_first, Option.bind_some,
    RouteNames.resolve_register _ hname, if_pos rfl]

/-- The one entry. -/
def soleEntry (id server : Nat) (c : Config.AdminConfig) : MountEntry :=
  ⟨0, application id server c.apiKey, c.path, .all, 0⟩

/-- Every connection goes to the status application whose path begins with that of the mount. -/
theorem lookup_soleRouter (id server : Nat) (c : Config.AdminConfig) (k : ScopeKind)
    (path : String) : (soleRouter id server c).mounts.lookup k path =
      if Target.startsWith path c.path then some (soleEntry id server c) else none := by
  have hentries : (soleRouter id server c).mounts.entries = [soleEntry id server c] := rfl
  have haccepts : (soleEntry id server c).accepts k path = Target.startsWith path c.path := by
    cases k <;> rfl
  rw [MountTable.lookup, hentries, List.filter_singleton, haccepts]
  cases Target.startsWith path c.path with
  | false => rfl
  | true => rfl

/-- Whoever has the key, if there is one, gets the status page under its path. -/
theorem run_handle_status {key : Option String} {req : Http.Request} {around : Surroundings}
    {server : Nat} {v : ServerView} (hpath : req.path = "/status") (hget : req.method = "GET")
    (hkey : ∀ k, key = some k → isAuthorized k req = true) (hserver : around.servers server = some v)
    (id : Nat) (j : Journal) :
    ((application id server key).handle around req).run j =
      (.withJson (statusReport v).json, j) := by
  have hlookup : (pages server).lookup req.path =
      some (page server fun v => return statusReport v) := by
    rw [hpath]
    rfl
  have hguard : ∀ inner : Handler,
      guarded key inner around req.recordReceived = inner around req.recordReceived := by
    intro inner
    cases key with
    | none => rfl
    | some k =>
      have hk : isAuthorized k req.recordReceived = true := hkey k rfl
      simp only [guarded, hk, if_true]
  have hserve : (application id server key).serve around req.recordReceived =
      page server (fun v => return statusReport v) around req.recordReceived := by
    show Application.Routes.handler (guarded key) (pages server) around req.recordReceived = _
    have hlookup' : (pages server).lookup req.recordReceived.path = _ := hlookup
    have hget' : req.recordReceived.method = "GET" := hget
    simp only [Application.Routes.handler, hlookup', if_pos (Or.inl hget'), hguard]
  simp only [Application.handle, hserve, page, hserver, hget]
  rfl

/-! ## Following the URL -/

/-- The status page of the server `n`, which is `srv`, is found at the URL `url`: connections for it
go to the status application, which sees its own path for the page, and whoever asks for it with the
key, if there is one, gets the page. -/
structure FoundAt (url : String) (h : Host) (n : Nat) (srv : Server) (id : Nat)
    (c : Config.AdminConfig) : Prop where
  routed : ∃ e, srv.router.route (some .http) url = .mounted e ∧
    e.application = application id n c.apiKey ∧
    ∀ text req, Target.parse? text = some req.target → req.path = url →
      (Router.rebase e req).path = "/status"
  answered : ∀ text req requestIds j, Target.parse? text = some req.target → req.path = url →
    ScopeKind.classify req.headers = some .http → req.method = "GET" →
    (∀ key, c.apiKey = some key → isAuthorized key req = true) →
    (Gateway.answer srv.router (h.surroundings requestIds) req).value j =
      Gateway.propagate (Gateway.identified (h.surroundings requestIds) j.minted req)
        (.withJson (statusReport srv.view).json)

variable {h : Host} {n id : Nat} {srv : Server} {c : Config.AdminConfig}

theorem foundAt_pageUrl (hserver : h.server? n = some srv) (hrouter : srv.router = soleRouter id n c)
    (hslash : Target.startsWith c.path "/" = true) (hend : ¬ EndsTwice c.path) :
    FoundAt (pageUrl c.path) h n srv id c := by
  have hprefix : Target.startsWith (pageUrl c.path) c.path = true :=
    Target.startsWith_iff_prefix_toList.mpr (prefix_pageUrl_iff.mpr hend)
  have hlookup : srv.router.mounts.lookup .http (pageUrl c.path) = some (soleEntry id n c) := by
    rw [hrouter, lookup_soleRouter, if_pos hprefix]
  have hlegal : ∀ text (req : Http.Request), Target.parse? text = some req.target →
      req.path = pageUrl c.path → req.target.IsLegal := by
    intro text req hread hpath
    refine Target.isLegal_of_parse hread ?_
    rw [show req.target.path = pageUrl c.path from hpath]
    exact startsWith_pageUrl hslash
  refine ⟨⟨soleEntry id n c, Router.route_of_lookup hlookup, rfl, fun text req hread hpath => ?_⟩,
    fun text req requestIds j hread hpath hfamily hget hkey => ?_⟩
  · rw [Router.rebase_eq_handed (hlegal text req hread hpath) (hpath ▸ hlookup)]
    exact path_beneath_pageUrl hend hpath
  · let around := h.surroundings requestIds
    let inner := (Gateway.identified around j.minted req).handed [c.path]
    obtain ⟨es, hvalue, -⟩ := Gateway.answer_of_lookup (r := srv.router) hfamily
      (hlegal text req hread hpath) (hpath ▸ hlookup) around j
    have hkey' : ∀ key, c.apiKey = some key → isAuthorized key inner = true := by
      intro key hk
      have hfirst : inner.headers.first? "authorization" = req.headers.first? "authorization" :=
        Gateway.first?_identifiedHeaders around j.minted req.headers (by decide)
      rw [isAuthorized, hfirst]
      exact hkey key hk
    have hserved : around.servers n = some srv.view := by
      show (h.server? n).map Server.view = some srv.view
      rw [hserver, Option.map_some]
    have hown : inner.path = "/status" :=
      path_beneath_pageUrl (t := req.target) hend hpath
    have hrun := run_handle_status hown hget hkey' hserved id
      (j.passed es 1 (Gateway.lacking req))
    have hpage : ((application id n c.apiKey).handle around inner).value
        (j.passed es 1 (Gateway.lacking req)) = .withJson (statusReport srv.view).json :=
      congrArg Prod.fst hrun
    rw [hvalue]
    show Gateway.propagate inner ((((application id n c.apiKey).handle around inner).value
      (j.passed es 1 (Gateway.lacking req))).forMethod req.method) = _
    rw [hpage, hget]
    rfl

/-- Whoever asks for `/` is sent to the URL, unless the page is mounted there. -/
theorem route_root (hrouter : srv.router = soleRouter id n c)
    (hslash : Target.startsWith c.path "/" = true) (hroot : c.path ≠ "/") :
    srv.router.route (some .http) "/" = .indexRedirect (pageUrl c.path) := by
  have hprefix : ¬ Target.startsWith "/" c.path = true := by
    intro h
    obtain ⟨rest, hrest⟩ := Target.startsWith_iff_prefix_toList.mp hslash
    have hlength := (Target.startsWith_iff_prefix_toList.mp h).length_le
    obtain rfl : rest = [] := by
      rw [← hrest] at hlength
      simpa using hlength
    exact hroot (String.toList_inj.mp hrest.symm)
  refine Router.route_of_indexUrl ?_ rfl ?_
  · rw [hrouter, lookup_soleRouter, if_neg hprefix]
  · rw [hrouter, indexUrl_soleRouter]

/-- A URL that is made of a path that ends in two slashes leads nowhere. -/
theorem route_pageUrl_of_endsTwice (hrouter : srv.router = soleRouter id n c)
    (hend : EndsTwice c.path) : srv.router.route (some .http) (pageUrl c.path) = .notFound := by
  have hprefix : Target.startsWith (pageUrl c.path) c.path = false := by
    rw [← Bool.not_eq_true, Target.startsWith_iff_prefix_toList, prefix_pageUrl_iff]
    exact not_not.mpr hend
  refine Router.route_of_none ?_ fun hroot => ?_
  · rw [hrouter, lookup_soleRouter, hprefix]
    rfl
  · have hlength := congrArg (fun s : String => s.toList.length) hroot
    simp [toList_pageUrl] at hlength

/-- **The status page is found at its URL, unless its path ends in two slashes.** Whatever has been
done with a host: on a server that was just loaded, the status page can be mounted at every path that
a slash begins. Its URL is then what its route name stands for, and where `/` leads to if the page is
not mounted there. It can be asked for unless it is too long, and in a location it refers to itself
unless the path begins with two slashes. It leads to the status page if the path ends in one slash
at most, and nowhere otherwise. -/
theorem page_found_at_url (ports : Config.PortConfig) (policy : RetryPolicy) (ds : List Deed)
    (j : Journal) (server : Config.HttpServerConfig) (j' : Journal) (h : Host) (n : Nat)
    (hload : ((Estate.after { host := { ports, policy } } ds j).host.load server).value j' =
      (h, .ok n))
    (id : Nat) (c : Config.AdminConfig) (hslash : Target.startsWith c.path "/" = true)
    (hlegal : ∀ x ∈ c.path.toList, Target.isPathChar x = true) (j'' : Journal) :
    ∃ h' page srv, (h.onRouter n (mountStatus id n c)).value j'' = (h', some (.ok page)) ∧
      h'.server? n = some srv ∧
      let url := pageUrl c.path
      srv.router.names.resolve routeName = some url ∧ srv.router.indexUrl = some url ∧
      (c.path ≠ "/" → srv.router.route (some .http) "/" = .indexRedirect url) ∧
      (url.utf8ByteSize ≤ Target.maxBytes → Target.parse? url = some { path := url }) ∧
      (Target.startsWith c.path "//" = false → Reference.read url.toList =
        { scheme := none, authority := none, path := url.toList, query := none, fragment := none }) ∧
      (¬ EndsTwice c.path → FoundAt url h' n srv id c) ∧
      (EndsTwice c.path → srv.router.route (some .http) url = .notFound) := by
  obtain ⟨ms, ps, hstanding, -, -⟩ := (Estate.standing_start ports policy).after ds j
  obtain ⟨srv, hsrv, hempty⟩ := (hstanding.fresh hload).tables
  let srv' : Server := { srv with router := soleRouter id n c }
  have hvalue : (h.onRouter n (mountStatus id n c)).value j'' =
      (h.put srv', some (.ok ⟨{ number := 0 }, { number := 0 }⟩)) := by
    simp only [Host.value_onRouter, hsrv, hempty, value_mountStatus_first, if_pos hslash, srv']
  have hserver : (h.put srv').server? n = some srv' := by
    have hnumber : n = srv'.number := (Host.number_of_server? hsrv).symm
    rw [Host.server?_put, if_pos hnumber, hsrv, Option.map_some]
  have hname : RouteNames.isUrl routeName = false := by decide
  refine ⟨h.put srv', _, srv', hvalue, hserver, ?_, indexUrl_soleRouter id n c,
    route_root rfl hslash, fun hsize => ?_, read_pageUrl hslash hlegal,
    foundAt_pageUrl hserver rfl hslash, route_pageUrl_of_endsTwice rfl⟩
  · show (({} : RouteNames).register routeName (pageUrl c.path)).resolve routeName = _
    rw [RouteNames.resolve_register _ hname, if_pos rfl]
  · exact Target.parse?_path (startsWith_pageUrl hslash) (isPathChar_pageUrl hlegal) hsize

/-- One slash at the end of the path, on a host that has loaded another server before. -/
theorem page_found_at_url_slash :
    let s : Estate := Estate.after { host := {} } [.load {}] {}
    let c : Config.AdminConfig := { path := "/admin/" }
    let h : Host := ((s.host.load {}).value {}).1
    (s.host.load {}).value {} = (h, .ok 1) ∧ Target.startsWith c.path "/" = true ∧
      (∀ x ∈ c.path.toList, Target.isPathChar x = true) ∧
      ∃ h' srv, h'.server? 1 = some srv ∧
        srv.router.route (some .http) "/" = .indexRedirect "/admin/status" ∧
        FoundAt "/admin/status" h' 1 srv 0 c := by
  intro s c h
  have hnumber : ((s.host.load {}).value {}).2 = .ok 1 := by
    rw [Host.value_load]
    decide +kernel
  have hload : (s.host.load {}).value {} = (h, .ok 1) := Prod.ext rfl hnumber
  have hslash : Target.startsWith c.path "/" = true := by decide +kernel
  have hlegal : ∀ x ∈ c.path.toList, Target.isPathChar x = true :=
    List.all_eq_true.mp (by decide +kernel)
  have hurl : pageUrl c.path = "/admin/status" := by decide +kernel
  obtain ⟨h', page, srv, -, hserver, -, -, hroot, -, -, hfound, -⟩ :=
    page_found_at_url {} {} [.load {}] {} {} {} h 1 hload 0 c hslash hlegal {}
  rw [hurl] at hroot hfound
  exact ⟨hload, hslash, hlegal, h', srv, hserver, hroot (by decide), hfound (by decide +kernel)⟩

end Admin

end AppHost
