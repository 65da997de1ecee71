import AppHost.Proofs.Heap.History
import AppHost.Proofs.Mount.History
import AppHost.Proofs.Server.Host
import Mathlib.Logic.Function.Basic

/-!
# The books of a host

Every server of a host has a table of mounts and one of index page proposals, and for each of them
rights are handed out. `Books` says that for all servers one of the two tables is as the history of
what was done through that server tells. A move through one server is entered for that server and
leaves the books of all others alone; to unload a server is to clear its tables; and the history of
a new server is empty. So what is known of the history of a table is known of each server, whatever
is done with the others.
-/

namespace AppHost

open Journaled

/-! ## The tables of a router -/

namespace Router

/-- Mounts on a router. -/
def mountDesk : Desk Router MountTable.Mounting where
  ask r m := do
    match ← r.mount m.application m.path m.options with
    | (r, .ok h) => return (r, some h)
    | (r, .error _) => return (r, none)
  revoke := unmount
  clear := clearMounts

/-- Index page proposals on a router. -/
def pageDesk : Desk Router (String × Int) where
  ask r a := do
    let (r, h) ← r.propose a.1 a.2
    return (r, some h)
  revoke := withdraw
  clear r := return r.clearIndex

theorem mountDesk_part :
    mountDesk.Part MountTable.desk mounts fun r mounts => { r with mounts } where
  get_put _ _ := rfl
  put_get _ := rfl
  ask r m j := by
    simp only [mountDesk, MountTable.desk, mount, value_bind]
    cases (r.mounts.grant m.application m.path m.options).value j with
    | ok x => rfl
    | error e => rfl
  revoke _ _ _ := rfl
  clear _ _ := rfl

theorem pageDesk_part :
    pageDesk.Part ProposalHeap.desk index fun r index => { r with index } where
  get_put _ _ := rfl
  put_get _ := rfl
  ask _ _ _ := rfl
  revoke _ _ _ := rfl
  clear _ _ := rfl

/-- Name a route of a router. -/
def naming (name url : String) (r : Router) : Journaled (Router × Unit) :=
  return (← r.register name url, ())

def unnaming (name : String) (r : Router) : Journaled (Router × Option String) :=
  return r.unregister name

/-- One of the two tables of a router: who works on it, and how it shows its live entries. -/
structure Side (α ε : Type) where
  desk : Desk Router α
  scheme : Scheme α ε
  Shows : Router → List ε → Nat → Prop
  keeps : desk.Keeps scheme Shows
  shows_empty : Shows {} [] 0
  shows_emptied : ∀ {r live n}, Shows r live n → Shows r.emptied [] n

def mountSide : Side MountTable.Mounting MountEntry where
  desk := mountDesk
  scheme := MountTable.scheme
  Shows r := MountTable.Shows r.mounts
  keeps := mountDesk_part.keeps MountTable.desk_keeps
  shows_empty := rfl
  shows_emptied h := MountTable.desk_keeps.clear h {}

def pageSide : Side (String × Int) Proposal where
  desk := pageDesk
  scheme := ProposalHeap.scheme
  Shows r := ProposalHeap.Shows r.index
  keeps := pageDesk_part.keeps ProposalHeap.desk_keeps
  shows_empty := ProposalHeap.shows_empty
  shows_emptied h := ProposalHeap.desk_keeps.clear h {}

/-- Mounts leave the proposals as they are. -/
theorem pageSide_shows_mounts {b : Board Router} {live : List Proposal} {k : Nat}
    (h : pageSide.Shows b.table live k) (m : Move MountTable.Mounting) (j : Journal) :
    pageSide.Shows ((mountDesk.step b m).value j).table live k := by
  obtain ⟨t, ht⟩ := mountDesk_part.table_step b m j
  rw [ht]
  exact h

/-- Proposals leave the mounts as they are. -/
theorem mountSide_shows_pages {b : Board Router} {live : List MountEntry} {k : Nat}
    (h : mountSide.Shows b.table live k) (m : Move (String × Int)) (j : Journal) :
    mountSide.Shows ((pageDesk.step b m).value j).table live k := by
  obtain ⟨t, ht⟩ := pageDesk_part.table_step b m j
  rw [ht]
  exact h

end Router

/-! ## Moves through a server -/

namespace Host

variable {α ε : Type} {h : Host} {g : Nat} {rights : Nat → List Right}

/-- A move at a desk of a router, with the rights that were handed out there. -/
def atDesk (d : Desk Router α) (held : List Right) (m : Move α) (r : Router) :
    Journaled (Router × List Right) := do
  let b ← d.step { table := r, rights := held } m
  return (b.table, b.rights)

/-- A move at a desk of the server `g`. -/
def onDesk (h : Host) (d : Desk Router α) (rights : Nat → List Right) (g : Nat) (m : Move α) :
    Journaled (Host × (Nat → List Right)) := do
  let (h, held?) ← h.onRouter g (atDesk d (rights g) m)
  return (h, Function.update rights g (held?.getD (rights g)))

theorem onDesk_of_none (he : h.server? g = none) (d : Desk Router α) (m : Move α) (j : Journal) :
    (h.onDesk d rights g m).value j = (h, rights) := by
  simp only [onDesk, value_bind, value_onRouter, he, value_pure, Option.getD_none,
    Function.update_eq_self]

theorem onDesk_of_some (hs : h.Sound) {s : Server} (he : h.server? g = some s)
    (d : Desk Router α) (m : Move α) (j : Journal) :
    let b := (d.step { table := s.router, rights := rights g } m).value j
    (h.onDesk d rights g m).value j = (h.reroute g b.table, Function.update rights g b.rights) := by
  simp only [onDesk, atDesk, value_bind, value_onRouter_of_some hs he, value_pure, Option.getD_some]

end Host

namespace Router.Side

variable {α ε : Type} {side : Side α ε} {h : Host} {rights : Nat → List Right}
  {past : Nat → List (Move α)}

/-- For every server, its table and the rights handed out for it are as its past tells. Numbers that
no server has yet have neither rights nor a past. -/
structure Books (side : Side α ε) (h : Host) (rights : Nat → List Right)
    (past : Nat → List (Move α)) : Prop where
  agrees : ∀ n s, h.server? n = some s →
    Desk.Agrees side.scheme side.Shows { table := s.router, rights := rights n }
      (side.scheme.ledger (past n))
  unused : ∀ n, h.next ≤ n → rights n = [] ∧ past n = []

/-- The books stay right if no server is added and no table changes. -/
theorem Books.of_frame (hb : side.Books h rights past) {h' : Host} (hnext : h.next ≤ h'.next)
    (hs : ∀ n s', h'.server? n = some s' → ∃ s, h.server? n = some s ∧
      ∀ live k, side.Shows s.router live k → side.Shows s'.router live k) :
    side.Books h' rights past where
  agrees n s' he' := by
    obtain ⟨s, he, hshow⟩ := hs n s' he'
    have ha := hb.agrees n s he
    exact ⟨hshow _ _ ha.shows, ha.issued, ha.spent⟩
  unused n hn := hb.unused n (Nat.le_trans hnext hn)

/-- So if what is done on a router leaves the table as it is. -/
theorem Books.onRouter {γ : Type} (hb : side.Books h rights past) (hs : h.Sound) (g : Nat)
    (f : Router → Journaled (Router × γ)) (j : Journal)
    (hf : ∀ r live k, side.Shows r live k → side.Shows ((f r).value j).1 live k) :
    side.Books ((h.onRouter g f).value j).1 rights past := by
  cases he : h.server? g with
  | none => simpa only [Host.value_onRouter, he] using hb
  | some s =>
    rw [Host.value_onRouter_of_some hs he]
    refine hb.of_frame (Nat.le_refl _) fun n s' he' => ?_
    rw [Host.server?_reroute] at he'
    by_cases hn : n = g
    · subst hn
      rw [if_pos rfl, he] at he'
      cases he'
      exact ⟨s, he, hf s.router⟩
    · rw [if_neg hn] at he'
      exact ⟨s', he', fun _ _ h => h⟩

/-- A move through the server `g` is entered there, if the server is still there. -/
theorem Books.onDesk (hb : side.Books h rights past) (hs : h.Sound) (g : Nat) (m : Move α)
    (j : Journal) : ∃ ms,
      side.Books ((h.onDesk side.desk rights g m).value j).1
        ((h.onDesk side.desk rights g m).value j).2 (Function.update past g (past g ++ ms)) := by
  cases he : h.server? g with
  | none =>
    -- nobody holds the server any more, so that the move comes to nothing
    refine ⟨[], ?_⟩
    rw [Host.onDesk_of_none he, List.append_nil, Function.update_eq_self]
    exact hb
  | some s =>
    refine ⟨[m], ?_⟩
    let b := (side.desk.step { table := s.router, rights := rights g } m).value j
    have hb' : Desk.Agrees side.scheme side.Shows b (side.scheme.ledger (past g ++ [m])) := by
      rw [side.scheme.ledger_concat]
      exact (hb.agrees g s he).step side.keeps (side.scheme.sound_ledger _) m j
    rw [Host.onDesk_of_some hs he]
    show side.Books (h.reroute g b.table) (Function.update rights g b.rights) _
    refine ⟨fun n s' he' => ?_, fun n hn => ?_⟩
    · rw [Host.server?_reroute] at he'
      by_cases hng : n = g
      · subst hng
        rw [if_pos rfl, he] at he'
        cases he'
        rw [Function.update_self, Function.update_self]
        exact hb'
      · rw [if_neg hng] at he'
        rw [Function.update_of_ne hng, Function.update_of_ne hng]
        exact hb.agrees n s' he'
    · -- a server that is there has a number below the next one
      have hng : n ≠ g := (Nat.lt_of_lt_of_le (Host.lt_next_of_server? hs he) hn).ne'
      rw [Function.update_of_ne hng, Function.update_of_ne hng]
      exact hb.unused n hn

/-- To close the host is to clear the tables of the server that is loaded. -/
theorem Books.closed (hb : side.Books h rights past) (hs : h.Sound) :
    side.Books h.closed rights fun n =>
      if h.current = some n then past n ++ [.clear] else past n where
  agrees n s' he' := by
    rw [Host.server?_closed hs] at he'
    split at he'
    · obtain ⟨s, he, rfl⟩ := Option.map_eq_some_iff.mp he'
      obtain ⟨hshow, hissued, -⟩ := hb.agrees n s he
      rw [if_pos ‹_›, side.scheme.ledger_concat, side.scheme.next_clear]
      exact ⟨side.shows_emptied hshow, hissued, fun r _ _ e he => absurd he List.not_mem_nil⟩
    · rw [if_neg ‹_›]
      exact hb.agrees n s' he'
  unused n hn := by
    rw [Host.next_closed] at hn
    have hnone : h.current ≠ some n := by
      intro hc
      obtain ⟨s, he⟩ := hs.loaded n hc
      exact absurd (Host.lt_next_of_server? hs he) (Nat.not_lt.mpr hn)
    rw [if_neg hnone]
    exact hb.unused n hn

/-- A new server has no past. -/
theorem Books.opened (hb : side.Books h rights past) (hs : h.Sound) (c : Config.HttpServerConfig) :
    side.Books (h.opened c).1 rights past := by
  cases hp : h.portOf c with
  | none => simpa only [Host.opened, hp] using hb
  | some port =>
    refine ⟨fun n s he => ?_, fun n hn => hb.unused n ?_⟩
    · rw [Host.server?_opened hs hp] at he
      by_cases hn : n = h.next
      · rw [if_pos hn] at he
        cases he
        obtain ⟨hrights, hpast⟩ := hb.unused n (Nat.le_of_eq hn.symm)
        rw [hrights, hpast]
        exact ⟨side.shows_empty, rfl, fun r _ _ e he => absurd he List.not_mem_nil⟩
      · rw [if_neg hn] at he
        exact hb.agrees n s he
    · simp only [Host.opened, hp] at hn
      exact Nat.le_of_succ_le hn

/-- A right from before the table of the server was cleared changes nothing. -/
theorem Books.onDesk_of_cleared (hb : side.Books h rights past) (hs : h.Sound) {g k : Nat}
    {before later : List (Move α)} (hpast : past g = before ++ [.clear] ++ later)
    (hk : k < (side.scheme.ledger before).issued.length) {m : Move α}
    (hm : m = .revoke k ∨ m = .drop k) (j : Journal) :
    ((h.onDesk side.desk rights g m).value j).1 = h := by
  cases he : h.server? g with
  | none => rw [Host.onDesk_of_none he]
  | some s =>
    obtain ⟨n, isGuard, hr, hgone⟩ := side.scheme.gone_of_cleared hk later
    rw [← hpast] at hr hgone
    have htable := Desk.step_of_gone side.keeps (hb.agrees g s he) hr hgone hm j
    rw [Host.onDesk_of_some hs he, htable]
    exact Host.reroute_self hs he

end Router.Side

end AppHost
