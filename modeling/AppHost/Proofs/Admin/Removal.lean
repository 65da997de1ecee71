import AppHost.Admin.Page
import AppHost.Proofs.Heap.History
import AppHost.Proofs.Mount.Outcome
import AppHost.Proofs.Routing.Dispatch

/-!
# Taking the status page away

A status page that could not be mounted leaves no trace. One that was mounted and is dropped takes
its mount and its proposal with it: the entries are those from before, and so are the proposals, in
the order in which they rank (`Restored`). Its route name stays. So every connection goes where it
went before, except those that the name decides about (`GoesByName`): ones for `/` that nothing is
mounted for, while the proposal that wins names the status page.
-/

namespace AppHost

open Journaled

/-! ## A proposal and a mount that are taken back -/

/-- Once a proposal is withdrawn, the heap shows what it showed before. -/
theorem ProposalHeap.Shows.revoke_propose {h : ProposalHeap} {live : List Proposal} {n : Nat}
    (hs : Shows h live n) (hlt : ∀ p ∈ live, p.id < n) (hn : (live.map Proposal.id).Nodup)
    (route : String) (priority : Int) (j : Journal) :
    Shows (((h.propose route priority).revoke { number := h.nextId }).value j).1 live (n + 1) := by
  have hlater : ((live ++ [(⟨n, priority, route⟩ : Proposal)]).map Proposal.id).Nodup := by
    rw [List.map_append, List.map_singleton, List.nodup_append_comm, List.singleton_append,
      List.nodup_cons]
    refine ⟨fun hmem => ?_, hn⟩
    obtain ⟨p, hp, hid⟩ := List.mem_map.mp hmem
    exact absurd (hlt p hp) (by rw [hid]; exact Nat.lt_irrefl n)
  have hunused : ({ number := h.nextId } : Handle).revoked = false := rfl
  obtain ⟨h', hvalue, hs'⟩ := desk_keeps.revoke (hs.propose route priority) hlater hunused j
  have hothers : (live ++ [(⟨n, priority, route⟩ : Proposal)]).filter
      (fun p => scheme.number p != h.nextId) = live := by
    rw [List.filter_append, hs.nextId]
    have hkept : live.filter (fun p => scheme.number p != n) = live :=
      List.filter_eq_self.mpr fun p hp => bne_iff_ne.mpr (Nat.ne_of_lt (hlt p hp))
    rw [hkept]
    simp [scheme]
  rw [hothers] at hs'
  have hrevoked : ((h.propose route priority).revoke { number := h.nextId }).value j =
      (h', Handle.used { number := h.nextId }) := hvalue
  rw [hrevoked]
  exact hs'

/-- Once an entry that was added is removed, the table has the entries from before. -/
theorem MountTable.revoke_add {t : MountTable} (hlt : ∀ e ∈ t.entries, e.seq < t.nextSeq)
    (app : Application) (path : String) (o : MountOptions) (j : Journal) :
    (((t.add app path o).revoke { number := t.nextSeq }).value j).1 =
      { t with nextSeq := t.nextSeq + 1 } := by
  have hcontains : (t.add app path o).contains t.nextSeq = true := by
    simp [contains, add]
  have hkept : t.entries.filter (fun e => e.seq != t.nextSeq) = t.entries :=
    List.filter_eq_self.mpr fun e he => bne_iff_ne.mpr (Nat.ne_of_lt (hlt e he))
  rw [value_revoke, hcontains]
  simp [remove, add, hkept]

namespace Admin

/-! ## Mounting the page -/

/-- The router with the page, once its application is mounted. -/
def withPage (r : Router) (t : MountTable) (c : Config.AdminConfig) : Router where
  mounts := t
  index := r.index.propose routeName indexPriority
  names := r.names.register routeName (pageUrl c.path)

/-- What a mount of the page comes to is what the mount of its application comes to. -/
theorem value_mountStatus (id server : Nat) (c : Config.AdminConfig) (r : Router) (j : Journal) :
    (mountStatus id server c r).value j =
      match r.mounts.mount (application id server c.apiKey) c.path {} with
      | .error e => (r, .error e)
      | .ok (.already n) =>
        (withPage r r.mounts c, .ok ⟨{ number := n }, { number := r.index.nextId }⟩)
      | .ok (.added t) =>
        (withPage r t c, .ok ⟨{ number := r.mounts.nextSeq }, { number := r.index.nextId }⟩) := by
  unfold mountStatus Router.mount MountTable.grant
  cases r.mounts.mount (application id server c.apiKey) c.path {} with
  | error e => rfl
  | ok m => cases m <;> rfl

/-- The page can be mounted at its path. -/
def IsFree (r : Router) (c : Config.AdminConfig) : Prop :=
  Http.Target.startsWith c.path "/" = true ∧
    ∀ e ∈ r.mounts.entries, ¬ (e.path = c.path ∧ e.scopes = .all)

variable {r : Router} {id : Nat}

/-- An application that is new is either refused or gets an entry of its own. -/
theorem value_mountStatus_of_fresh (ho : r.mounts.Orderly)
    (hfresh : ∀ e ∈ r.mounts.entries, e.application.id ≠ id) (server : Nat)
    (c : Config.AdminConfig) (j : Journal) :
    (∃ e, ¬ IsFree r c ∧ (mountStatus id server c r).value j = (r, .error e)) ∨
      (IsFree r c ∧ (mountStatus id server c r).value j =
        (withPage r (r.mounts.add (application id server c.apiKey) c.path {}) c,
          .ok ⟨{ number := r.mounts.nextSeq }, { number := r.index.nextId }⟩)) := by
  let m : MountTable.Mounting := ⟨application id server c.apiKey, c.path, {}⟩
  rw [value_mountStatus]
  by_cases hp : Http.Target.startsWith c.path "/" = true
  · by_cases hheld : ∃ e ∈ r.mounts.entries, m.isHeldBy e = true
    · obtain ⟨e, he, hheld⟩ := hheld
      have hid : e.application.id ≠ m.application.id := hfresh e he
      have hmount := ho.mount_of_held he hheld
      rw [if_neg hid] at hmount
      refine .inl ⟨_, fun hfree => ?_, by rw [hmount]⟩
      exact hfree.2 e he (MountTable.Mounting.isHeldBy_iff.mp hheld)
    · have hfree : ∀ e ∈ r.mounts.entries, m.isHeldBy e = false :=
        fun e he => Bool.eq_false_iff.mpr fun hm => hheld ⟨e, he, hm⟩
      have hmount := @MountTable.mount_of_free r.mounts m hp hfree
      refine .inr ⟨⟨hp, fun e he hsame => ?_⟩, by rw [hmount]⟩
      exact hheld ⟨e, he, MountTable.Mounting.isHeldBy_iff.mpr hsame⟩
  · have hmount := @MountTable.mount_of_unrooted r.mounts m (by simpa using hp)
    exact .inl ⟨_, fun hfree => hp hfree.1, by rw [hmount]⟩

/-! ## Dropping the page -/

/-- What the router `r'` has in common with `r`, once a status page with the URL `url` has come and
gone: all but the name of the page. -/
structure Restored (r r' : Router) (url : String) : Prop where
  entries : r'.mounts.entries = r.mounts.entries
  ranking : r'.index.ranking = r.index.ranking
  winner : r'.index.winner = r.index.winner
  names : r'.names = r.names.register routeName url

/-- The name of the status page decides about connections for `/` that nothing is mounted for, while
it is what the winning proposal names. -/
structure GoesByName (r : Router) (scope : Option ScopeKind) (path : String) : Prop where
  root : path = "/"
  unmounted : ∃ k, scope = some k ∧ r.mounts.lookup k path = none
  wins : r.index.winner = some routeName

/-- A page that is dropped at once takes back its mount and its proposal. -/
theorem restored_drop (ho : r.mounts.Orderly) {live : List Proposal} {n : Nat}
    (hs : r.index.Shows live n) (hlt : ∀ p ∈ live, p.id < n) (hn : (live.map Proposal.id).Nodup)
    (id server : Nat) (c : Config.AdminConfig) (j : Journal) :
    Restored r ((StatusPage.drop ⟨{ number := r.mounts.nextSeq }, { number := r.index.nextId }⟩
      (withPage r (r.mounts.add (application id server c.apiKey) c.path {}) c)).value j)
      (pageUrl c.path) := by
  let t := r.mounts.add (application id server c.apiKey) c.path {}
  let h := r.index.propose routeName indexPriority
  have hmounts := MountTable.revoke_add ho.seq_lt (application id server c.apiKey) c.path {} j
  have hindex := hs.revoke_propose hlt hn routeName indexPriority
    ((t.revoke { number := r.mounts.nextSeq }).rest j)
  have hdrop : (StatusPage.drop ⟨{ number := r.mounts.nextSeq }, { number := r.index.nextId }⟩
      (withPage r t c)).value j =
        ⟨((t.revoke { number := r.mounts.nextSeq }).value j).1,
          ((h.revoke { number := r.index.nextId }).value
            ((t.revoke { number := r.mounts.nextSeq }).rest j)).1,
          r.names.register routeName (pageUrl c.path)⟩ := rfl
  rw [hdrop, hmounts]
  exact ⟨rfl, hindex.ranking_eq hs hn, hindex.winner_eq hs hn, rfl⟩

/-- **Where connections go is restored but for the name.** -/
theorem Restored.route {r' : Router} {url : String} (h : Restored r r' url)
    (scope : Option ScopeKind) (path : String) :
    (¬ GoesByName r scope path → r'.route scope path = r.route scope path) ∧
      (GoesByName r scope path → r'.route scope path = .indexRedirect url ∧
        r.route scope path = match r.names.resolve routeName with
          | some own => .indexRedirect own
          | none => .notFound) := by
  have hname : RouteNames.isUrl routeName = false := by decide
  cases scope with
  | none => exact ⟨fun _ => rfl, fun hgoes => by obtain ⟨k, hk, -⟩ := hgoes.unmounted; cases hk⟩
  | some k =>
    have hlookup : r'.mounts.lookup k path = r.mounts.lookup k path := by
      rw [MountTable.lookup, MountTable.lookup, h.entries]
    cases hl : r.mounts.lookup k path with
    | some e =>
      refine ⟨fun _ => ?_, fun hgoes => ?_⟩
      · rw [Router.route_of_lookup (hlookup.trans hl), Router.route_of_lookup hl]
      · obtain ⟨k', hk, hnone⟩ := hgoes.unmounted
        cases hk
        rw [hl] at hnone
        cases hnone
    | none =>
      have hurl : r'.indexUrl = r.index.winner.bind (r.names.register routeName url).resolve := by
        rw [Router.indexUrl, ProposalHeap.url, h.winner, h.names]
      constructor
      · intro hgoes
        by_cases hroot : path = "/"
        · have hindex : r'.indexUrl = r.indexUrl := by
            rw [hurl, Router.indexUrl, ProposalHeap.url]
            cases hwinner : r.index.winner with
            | none => rfl
            | some route =>
              have hne : route ≠ routeName := fun heq =>
                hgoes ⟨hroot, ⟨k, rfl, hl⟩, heq ▸ hwinner⟩
              by_cases hisUrl : RouteNames.isUrl route = true
              · simp only [Option.bind_some, RouteNames.resolve, if_pos hisUrl]
              · rw [Option.bind_some, Option.bind_some,
                  RouteNames.resolve_register _ (by simpa using hisUrl), if_neg hne]
          simp only [Router.route, hlookup, hl, hindex]
        · simp only [Router.route, hlookup, hl, if_neg hroot]
      · intro hgoes
        have hindex : r.indexUrl = r.names.resolve routeName := by
          rw [Router.indexUrl, ProposalHeap.url, hgoes.wins, Option.bind_some]
        rw [hgoes.wins, Option.bind_some, RouteNames.resolve_register _ hname, if_pos rfl] at hurl
        refine ⟨Router.route_of_indexUrl (hlookup.trans hl) hgoes.root hurl, ?_⟩
        cases hown : r.names.resolve routeName with
        | some own => exact Router.route_of_indexUrl hl hgoes.root (hindex.trans hown)
        | none => exact Router.route_of_none hl fun _ => hindex.trans hown

/-! ## In every state -/

/-- **A status page that comes and goes leaves its route name behind, and nothing else.** In every
state that mounts and proposals lead to, and whatever routes are named: the page cannot be mounted
exactly if its path begins with no slash or is held for all connections, and then the router is as
before. If it is mounted and dropped, the mounts are those from before, and so are the proposals in
their ranking; its name stands for its URL, in place of any other that it had. So a connection goes
where it went before, unless the name decides about it: then it is sent to the URL of the page that is
gone, where it went to the URL that the name had before, or nowhere if it had none. -/
theorem page_leaves_name (mounts : List (Move MountTable.Mounting))
    (pages : List (Move (String × Int))) (names : RouteNames) (jm jp : Journal)
    (id server : Nat) (c : Config.AdminConfig) (j : Journal)
    (hfresh : ∀ e ∈ (MountTable.after mounts jm).entries, e.application.id ≠ id) :
    let r : Router := ⟨MountTable.after mounts jm, ProposalHeap.after pages jp, names⟩
    let url := pageUrl c.path
    let mounted := (mountStatus id server c r).value j
    ((∃ page, mounted.2 = .ok page) ↔ IsFree r c) ∧
    (∀ err, mounted.2 = .error err → mounted.1 = r) ∧
    ∀ page, mounted.2 = .ok page → ∀ j',
      let r' := (page.drop mounted.1).value j'
      Restored r r' url ∧
      ∀ scope path,
        (¬ GoesByName r scope path → r'.route scope path = r.route scope path) ∧
        (GoesByName r scope path → r'.route scope path = .indexRedirect url ∧
          r.route scope path = match names.resolve routeName with
            | some own => .indexRedirect own
            | none => .notFound) := by
  intro r url mounted
  have ho : r.mounts.Orderly := MountTable.orderly_after mounts jm
  have hs := ProposalHeap.shows_after pages jp
  have hsound := ProposalHeap.scheme.sound_ledger pages
  obtain ⟨e, hheld, hvalue⟩ | ⟨hfree, hvalue⟩ :=
    value_mountStatus_of_fresh ho hfresh server c j
  · have hmounted : mounted = (r, .error e) := hvalue
    rw [hmounted]
    refine ⟨iff_of_false (fun ⟨_, hok⟩ => nomatch hok) hheld, fun _ _ => rfl, fun _ hok => ?_⟩
    cases hok
  · have hmounted : mounted = _ := hvalue
    rw [hmounted]
    refine ⟨iff_of_true ⟨_, rfl⟩ hfree, fun _ herr => ?_, fun page hok j' => ?_⟩
    · cases herr
    cases hok
    have hrestored := restored_drop ho hs hsound.live_lt hsound.nodup id server c j'
    exact ⟨hrestored, hrestored.route⟩

/-- Somebody else proposes the page by its name while there is none. Once the page has been there, `/`
leads to a URL at which nothing is mounted. -/
theorem page_leaves_name_dangling :
    let mounts : List (Move MountTable.Mounting) := [.ask ⟨.echo 1 "app", "/app", {}⟩ false]
    let pages : List (Move (String × Int)) := [.ask (routeName, 0) false]
    let r : Router := ⟨MountTable.after mounts {}, ProposalHeap.after pages {}, {}⟩
    let mounted := (mountStatus 2 0 {} r).value {}
    (∀ e ∈ (MountTable.after mounts {}).entries, e.application.id ≠ 2) ∧
      r.route (some .http) "/" = .notFound ∧
      ∃ page, mounted.2 = .ok page ∧
        let r' := (page.drop mounted.1).value {}
        r'.route (some .http) "/" = .indexRedirect "/admin/status" ∧
        r'.route (some .http) "/admin/status" = .notFound := by
  intro mounts pages r mounted
  have hentries : (MountTable.after mounts {}).entries.all (fun e => e.application.id ≠ 2) = true := by
    decide +kernel
  have hfresh : ∀ e ∈ (MountTable.after mounts {}).entries, e.application.id ≠ 2 := by
    simpa using hentries
  have hlookup : ∀ path, Http.Target.startsWith path "/app" = false →
      r.mounts.lookup .http path = none := by
    intro path hpath
    rw [MountTable.lookup_eq_none_iff]
    intro e he
    obtain rfl : e = ⟨0, .echo 1 "app", "/app", .all, 0⟩ := List.mem_singleton.mp he
    exact hpath
  obtain ⟨hfree, -, hdropped⟩ := page_leaves_name mounts pages {} {} {} 2 0 {} {} hfresh
  obtain ⟨page, hok⟩ : ∃ page, mounted.2 = .ok page := hfree.mpr
    ⟨by decide +kernel, fun e he hsame => by
      obtain rfl : e = ⟨0, .echo 1 "app", "/app", .all, 0⟩ := List.mem_singleton.mp he
      exact absurd hsame.1 (by decide)⟩
  have hgoes : GoesByName r (some .http) "/" :=
    ⟨rfl, ⟨.http, rfl, hlookup "/" (by decide +kernel)⟩, ProposalHeap.winner_propose_first routeName 0⟩
  have hstays : ¬ GoesByName r (some .http) "/admin/status" := fun h => absurd h.root (by decide)
  have hurl : pageUrl ({} : Config.AdminConfig).path = "/admin/status" := by decide +kernel
  obtain ⟨-, hroute⟩ := hdropped page hok {}
  obtain ⟨hafter, hbefore⟩ := (hroute (some .http) "/").2 hgoes
  refine ⟨hfresh, hbefore, page, hok, hafter.trans (congrArg _ hurl), ?_⟩
  refine ((hroute (some .http) "/admin/status").1 hstays).trans ?_
  exact Router.route_of_none (hlookup _ (by decide +kernel)) fun h => absurd h (by decide)

end Admin

end AppHost
