import AppHost.Proofs.Heap.Elements
import AppHost.Proofs.Rights.Desk
import Mathlib.Data.Set.Card

/-!
# Histories of a proposal heap

A proposal heap seen as a desk: one proposes a route with a priority, and every proposal comes with
a right to withdraw it. After every history the heap is in order and holds exactly the live
proposals, so that its winner, its size and its ranking are those of the live proposals; and the
ranking is the order in which the winners come up when they are withdrawn in turn.
-/

namespace AppHost.ProposalHeap

open Journaled Proposal

/-- Proposals, each a route and a priority. -/
def desk : Desk ProposalHeap (String × Int) where
  ask h a := do
    let (h, k) ← h.grant a.1 a.2
    return (h, some k)
  revoke := ProposalHeap.revoke
  clear h := return h.clear

/-- Every proposal is taken, under the next number. -/
def scheme : Scheme (String × Int) Proposal where
  number := Proposal.id
  answer _ n a := .opened ⟨n, a.2, a.1⟩
  number_opened h := by cases h; rfl
  number_again h := nomatch h

/-- The heap is in order, holds the proposals `live` and gives the next one the number `n`. -/
structure Shows (h : ProposalHeap) (live : List Proposal) (n : Nat) : Prop where
  ordered : Heap.IsOrdered h.items
  perm : h.items.toList.Perm live
  nextId : h.nextId = n

theorem shows_empty : Shows {} [] 0 where
  ordered _ _ hi := absurd hi (Nat.not_lt_zero _)
  perm := .nil
  nextId := rfl

theorem Shows.mem_iff {h : ProposalHeap} {live : List Proposal} {n : Nat} (hs : Shows h live n)
    (p : Proposal) : p ∈ h.items ↔ p ∈ live := by
  rw [← hs.perm.mem_iff, Array.mem_toList_iff]

theorem Shows.propose {h : ProposalHeap} {live : List Proposal} {n : Nat} (hs : Shows h live n)
    (route : String) (priority : Int) :
    Shows (h.propose route priority) (live ++ [⟨n, priority, route⟩]) (n + 1) where
  ordered := Heap.push_isOrdered hs.ordered _
  perm := by
    have hp := Heap.push_perm h.items ⟨h.nextId, priority, route⟩
    rw [← hs.nextId]
    exact hp.trans ((hs.perm.cons _).trans (List.perm_append_singleton _ _).symm)
  nextId := congrArg (· + 1) hs.nextId

/-- Without the one element that has the number `id` a heap holds those with another number. -/
theorem Shows.withdraw {h h' : ProposalHeap} {live : List Proposal} {n id : Nat}
    (hs : Shows h live n) (hn : (live.map Proposal.id).Nodup) (hw : h.withdraw id = some h') :
    Shows h' (live.filter fun p => p.id != id) n := by
  obtain ⟨items, hr, rfl⟩ := Option.map_eq_some_iff.mp hw
  have hnd := (hs.perm.map Proposal.id).nodup_iff.mpr hn
  exact ⟨Heap.remove_isOrdered hs.ordered hr,
    (Heap.remove_perm_filter hnd hr).trans (hs.perm.filter _), hs.nextId⟩

theorem withdraw_eq_none_iff {h : ProposalHeap} {id : Nat} :
    h.withdraw id = none ↔ ∀ p ∈ h.items, p.id ≠ id := by
  rw [withdraw, Option.map_eq_none_iff, Heap.remove_eq_none_iff]

theorem value_revoke_of_revoked {h : ProposalHeap} {k : Handle} (hk : k.revoked = true)
    (j : Journal) : (h.revoke k).value j = (h, k) := by
  simp only [revoke, hk, if_true, value_pure]

theorem value_revoke {h : ProposalHeap} {k : Handle} (hk : k.revoked = false) (j : Journal) :
    (h.revoke k).value j = ((h.withdraw k.number).getD h, k.used) := by
  simp only [revoke, hk]
  cases h.withdraw k.number <;> rfl

theorem used_of_revoked {k : Handle} (hk : k.revoked = true) : k.used = k := by
  cases k; cases hk; rfl

/-- The operations of a proposal heap do what the scheme tells. -/
theorem desk_keeps : desk.Keeps scheme Shows where
  refused _ ha := nomatch ha
  again _ ha := nomatch ha
  opened {t live n a e} hs ha j := by
    cases ha
    refine ⟨t.propose a.1 a.2, ?_, hs.propose a.1 a.2⟩
    rw [← hs.nextId]
    rfl
  revoke {t live n h} hs hn hr j := by
    refine ⟨_, value_revoke hr j, ?_⟩
    cases hw : t.withdraw h.number with
    | none =>
      have hgone := withdraw_eq_none_iff.mp hw
      rw [List.filter_eq_self.mpr]
      · exact hs
      · intro p hp
        have := hgone p ((hs.mem_iff p).mpr hp)
        simpa [scheme] using this
    | some t' => exact hs.withdraw hn hw
  void {t live n h} hs hv j := by
    cases hr : h.revoked with
    | true =>
      rw [used_of_revoked hr]
      exact value_revoke_of_revoked hr j
    | false =>
      have hgone := hv.resolve_left (by simp [hr])
      have hw : t.withdraw h.number = none :=
        withdraw_eq_none_iff.mpr fun p hp => hgone p ((hs.mem_iff p).mp hp)
      exact (value_revoke hr j).trans (by rw [hw]; rfl)
  clear {t live n} hs j :=
    { ordered := fun _ _ hi => absurd hi (Nat.not_lt_zero _), perm := .nil, nextId := hs.nextId }

/-- The heap after a history. -/
def after (moves : List (Move (String × Int))) (j : Journal) : ProposalHeap :=
  (desk.after {} moves j).table

theorem shows_after (moves : List (Move (String × Int))) (j : Journal) :
    Shows (after moves j) (scheme.ledger moves).live (scheme.ledger moves).opened :=
  (Desk.agrees_after desk_keeps shows_empty moves j).shows

theorem mem_after_iff {moves : List (Move (String × Int))} {j : Journal} {p : Proposal} :
    p ∈ (after moves j).items ↔ scheme.IsLive moves p := by
  rw [(shows_after moves j).mem_iff, scheme.mem_live_iff]

theorem nodup_after (moves : List (Move (String × Int))) (j : Journal) :
    ((after moves j).items.toList.map Proposal.id).Nodup :=
  ((shows_after moves j).perm.map Proposal.id).nodup_iff.mpr (scheme.sound_ledger moves).nodup

/-! ## The winner -/

theorem winner_eq_none_iff {h : ProposalHeap} : h.winner = none ↔ ∀ p, p ∉ h.items := by
  rw [winner, Option.map_eq_none_iff, Array.getElem?_eq_none_iff]
  constructor
  · intro h0 p hp
    obtain ⟨i, hi, -⟩ := Array.mem_iff_getElem.mp hp
    omega
  · intro hn
    rcases Nat.eq_zero_or_pos h.items.size with h0 | h0
    · exact Nat.le_of_eq h0
    · exact absurd (Array.getElem_mem h0) (hn _)

/-- The element at the root is the highest of all. -/
theorem getElem?_zero_eq_some_iff {h : ProposalHeap} (ho : Heap.IsOrdered h.items)
    (hn : (h.items.toList.map Proposal.id).Nodup) {p : Proposal} :
    h.items[0]? = some p ↔ p ∈ h.items ∧ ∀ q ∈ h.items, q.outranks p = false := by
  constructor
  · intro h0
    obtain ⟨hlt, rfl⟩ := Array.getElem?_eq_some_iff.mp h0
    refine ⟨Array.getElem_mem hlt, fun q hq => ?_⟩
    obtain ⟨i, hi, rfl⟩ := Array.mem_iff_getElem.mp hq
    exact Heap.not_outranks_root ho hlt i hi
  · rintro ⟨hp, hmax⟩
    obtain ⟨i, hi, e⟩ := Array.mem_iff_getElem.mp hp
    have h0 : 0 < h.items.size := Nat.zero_lt_of_lt hi
    have hroot : p.outranks h.items[0] = false := by
      rw [← e]; exact Heap.not_outranks_root ho h0 i hi
    have hid := id_eq_of_not_outranks hroot (hmax _ (Array.getElem_mem h0))
    have heq : p = h.items[0] :=
      List.inj_on_of_nodup_map hn (Array.mem_toList_iff.mpr hp)
        (Array.mem_toList_iff.mpr (Array.getElem_mem h0)) hid
    rw [heq]
    exact Array.getElem?_eq_getElem h0

/-- A proposal wins if there is no other. -/
theorem winner_propose_first (route : String) (priority : Int) :
    (({} : ProposalHeap).propose route priority).winner = some route := by
  have hitems : (({} : ProposalHeap).propose route priority).items = #[⟨0, priority, route⟩] := by
    refine Array.toList_inj.mp (List.perm_singleton.mp ?_)
    exact Heap.push_perm #[] ⟨0, priority, route⟩
  rw [winner, hitems]
  rfl

/-! ## The ranking -/

theorem mem_ranking {h : ProposalHeap} {p : Proposal} : p ∈ h.ranking ↔ p ∈ h.items := by
  rw [ranking, List.mem_mergeSort, Array.mem_toList_iff]

theorem ranking_pairwise (h : ProposalHeap) :
    h.ranking.Pairwise fun p q => q.outranks p = false := by
  have hs : h.ranking.Pairwise fun p q => (!q.outranks p) = true := by
    refine List.pairwise_mergeSort (fun a b c hab hbc => ?_) (fun a b => ?_) h.items.toList
    · simp only [Bool.not_eq_true'] at hab hbc ⊢
      exact not_outranks_trans hbc hab
    · cases hab : b.outranks a with
      | false => simp
      | true => simp [not_outranks_of_outranks hab]
  exact hs.imp fun h => by simpa using h

/-- There is only one list of the elements in which nobody outranks anybody before. -/
theorem ranking_eq_of_pairwise {h : ProposalHeap} (hn : (h.items.toList.map Proposal.id).Nodup)
    {l : List Proposal} (hp : h.items.toList.Perm l)
    (hl : l.Pairwise fun p q => q.outranks p = false) : h.ranking = l := by
  have hperm : h.ranking.Perm h.items.toList := List.mergeSort_perm _ _
  refine List.Perm.eq_of_pairwise (fun p q hpm hqm hpq hqp => ?_) (ranking_pairwise h) hl
    (hperm.trans hp)
  have hpm' : p ∈ h.items.toList := hperm.mem_iff.mp hpm
  have hqm' : q ∈ h.items.toList := hp.mem_iff.mpr hqm
  exact List.inj_on_of_nodup_map hn hpm' hqm' (id_eq_of_not_outranks hqp hpq)

/-- The ranking is the element at the root, and then the ranking of the others. -/
theorem ranking_eq_cons {h h' : ProposalHeap} (ho : Heap.IsOrdered h.items)
    (hn : (h.items.toList.map Proposal.id).Nodup) {p : Proposal} (h0 : h.items[0]? = some p)
    (hp : h.items.toList.Perm (p :: h'.items.toList)) : h.ranking = p :: h'.ranking := by
  refine ranking_eq_of_pairwise hn (hp.trans (.cons _ (List.mergeSort_perm _ _).symm)) ?_
  refine List.pairwise_cons.mpr ⟨fun q hq => ?_, ranking_pairwise h'⟩
  have hq' : q ∈ h.items := Array.mem_toList_iff.mp
    (hp.mem_iff.mpr (List.mem_cons_of_mem p (Array.mem_toList_iff.mpr (mem_ranking.mp hq))))
  exact ((getElem?_zero_eq_some_iff ho hn).mp h0).2 q hq'

/-- The proposals alone tell the ranking and the winner, however they came into the heap. -/
theorem Shows.ranking_eq {h h' : ProposalHeap} {live : List Proposal} {n n' : Nat}
    (hs : Shows h live n) (hs' : Shows h' live n') (hn : (live.map Proposal.id).Nodup) :
    h.ranking = h'.ranking := by
  have hnodup := (hs.perm.map Proposal.id).nodup_iff.mpr hn
  have hperm : h.items.toList.Perm h'.ranking :=
    (hs.perm.trans hs'.perm.symm).trans (List.mergeSort_perm _ _).symm
  exact ranking_eq_of_pairwise hnodup hperm (ranking_pairwise h')

theorem Shows.winner_eq {h h' : ProposalHeap} {live : List Proposal} {n n' : Nat}
    (hs : Shows h live n) (hs' : Shows h' live n') (hn : (live.map Proposal.id).Nodup) :
    h.winner = h'.winner := by
  have hroot : h.items[0]? = h'.items[0]? := by
    refine Option.ext fun p => ?_
    rw [getElem?_zero_eq_some_iff hs.ordered ((hs.perm.map Proposal.id).nodup_iff.mpr hn),
      getElem?_zero_eq_some_iff hs'.ordered ((hs'.perm.map Proposal.id).nodup_iff.mpr hn)]
    simp only [hs.mem_iff, hs'.mem_iff]
  rw [winner, winner, hroot]

/-! ## Withdrawing the winners -/

/-- The winners in turn, if after `moves` the handle of whichever proposal wins is used again and
again until there is no winner. -/
inductive Drains (j : Journal) : List (Move (String × Int)) → List Proposal → Prop where
  | done {moves : List (Move (String × Int))} : (after moves j).winner = none → Drains j moves []
  | next {moves : List (Move (String × Int))} {p : Proposal} {ps : List Proposal} :
    (after moves j).items[0]? = some p → Drains j (moves ++ [.revoke p.id]) ps →
    Drains j moves (p :: ps)

/-- The rights are numbered as the proposals are. -/
theorem issued_eq_range (moves : List (Move (String × Int))) :
    (scheme.ledger moves).issued.map Prod.fst = List.range (scheme.ledger moves).opened := by
  induction moves using List.reverseRecOn with
  | nil => rfl
  | append_singleton moves m ih =>
    rw [scheme.ledger_concat]
    cases m with
    | ask a g =>
      show ((scheme.ledger moves).issued ++ [((scheme.ledger moves).opened, g)]).map Prod.fst = _
      rw [List.map_append, ih]
      exact (List.range_succ).symm
    | intoGuard k => exact (Scheme.map_fst_modify _ k).trans ih
    | _ => exact ih

theorem takes_revoke {moves : List (Move (String × Int))} {n : Nat}
    (hn : n < (scheme.ledger moves).opened) (m : Nat) :
    (scheme.ledger moves).takes m (.revoke n : Move (String × Int)) = (n == m) := by
  have hk : ((scheme.ledger moves).issued.map Prod.fst)[n]? = some n := by
    rw [issued_eq_range, List.getElem?_range hn]
  rw [List.getElem?_map] at hk
  obtain ⟨r, hr, hr1⟩ := Option.map_eq_some_iff.mp hk
  simp only [Ledger.takes, hr, hr1]

/-- Using the handle of a live proposal takes away exactly that one. -/
theorem after_revoke_perm {moves : List (Move (String × Int))} {j : Journal} {p : Proposal}
    (hp : p ∈ (after moves j).items) :
    (after moves j).items.toList.Perm (p :: (after (moves ++ [.revoke p.id]) j).items.toList) := by
  have hnd := nodup_after moves j
  have hnd' := nodup_after (moves ++ [.revoke p.id]) j
  have hlive := scheme.mem_live_iff.mpr (mem_after_iff.mp hp)
  have hlt : p.id < (scheme.ledger moves).opened := (scheme.sound_ledger moves).live_lt p hlive
  have hmem : ∀ q, q ∈ (after (moves ++ [.revoke p.id]) j).items ↔
      q ∈ (after moves j).items ∧ q.id ≠ p.id := by
    intro q
    rw [mem_after_iff, mem_after_iff, scheme.isLive_concat, takes_revoke hlt]
    constructor
    · rintro (⟨a, g, e, -⟩ | ⟨hq, hne⟩)
      · cases e
      · exact ⟨hq, fun e => by simp [scheme, e] at hne⟩
    · rintro ⟨hq, hne⟩
      exact .inr ⟨hq, by simpa [scheme] using fun e => hne e.symm⟩
  rw [List.perm_ext_iff_of_nodup (List.Nodup.of_map _ hnd)]
  · intro q
    rw [List.mem_cons, Array.mem_toList_iff, Array.mem_toList_iff, hmem]
    constructor
    · intro hq
      by_cases he : q.id = p.id
      · exact .inl (List.inj_on_of_nodup_map hnd (Array.mem_toList_iff.mpr hq)
          (Array.mem_toList_iff.mpr hp) he)
      · exact .inr ⟨hq, he⟩
    · rintro (rfl | ⟨hq, -⟩)
      · exact hp
      · exact hq
  · refine List.nodup_cons.mpr ⟨fun hp' => ?_, List.Nodup.of_map _ hnd'⟩
    exact ((hmem p).mp (Array.mem_toList_iff.mp hp')).2 rfl

theorem drains_ranking (moves : List (Move (String × Int))) (j : Journal) :
    Drains j moves (after moves j).ranking := by
  generalize hl : (after moves j).ranking = l
  induction l generalizing moves with
  | nil =>
    refine .done (winner_eq_none_iff.mpr fun p hp => ?_)
    have hp' := mem_ranking.mpr hp
    rw [hl] at hp'
    cases hp'
  | cons p ps ih =>
    have ho := (shows_after moves j).ordered
    have hnd := nodup_after moves j
    have h0 : (after moves j).items[0]? = some p := by
      refine (getElem?_zero_eq_some_iff ho hnd).mpr ⟨?_, fun q hq => ?_⟩
      · rw [← mem_ranking, hl]; exact List.mem_cons_self
      · have hpw := ranking_pairwise (after moves j)
        rw [← mem_ranking, hl] at hq
        rw [hl] at hpw
        rcases List.mem_cons.mp hq with rfl | hq
        · exact not_outranks_self _
        · exact List.rel_of_pairwise_cons hpw hq
    have hp := ((getElem?_zero_eq_some_iff ho hnd).mp h0).1
    refine .next h0 (ih _ ?_)
    have hcons := ranking_eq_cons ho hnd h0 (after_revoke_perm hp)
    rw [hl] at hcons
    exact (List.cons.inj hcons).2.symm

/-! ## The heap shows its history -/

theorem size_after (moves : List (Move (String × Int))) (j : Journal) :
    (after moves j).size = {p | scheme.IsLive moves p}.ncard := by
  have hset : {p | scheme.IsLive moves p} =
      ((after moves j).items.toList.toFinset : Set Proposal) := by
    ext p
    rw [Set.mem_ofPred_eq, Finset.mem_coe, List.mem_toFinset, Array.mem_toList_iff, mem_after_iff]
  rw [hset, Set.ncard_coe_finset,
    List.toFinset_card_of_nodup (List.Nodup.of_map _ (nodup_after moves j))]
  exact Array.length_toList.symm

theorem winner_after_iff {moves : List (Move (String × Int))} {j : Journal} {route : String} :
    (after moves j).winner = some route ↔ ∃ p, scheme.IsLive moves p ∧ p.route = route ∧
      ∀ q, scheme.IsLive moves q →
        q.priority < p.priority ∨ (q.priority = p.priority ∧ q.id ≤ p.id) := by
  have ho := (shows_after moves j).ordered
  have hnd := nodup_after moves j
  have hroot : ∀ p, (after moves j).items[0]? = some p ↔ scheme.IsLive moves p ∧
      ∀ q, scheme.IsLive moves q →
        q.priority < p.priority ∨ (q.priority = p.priority ∧ q.id ≤ p.id) := by
    intro p
    rw [getElem?_zero_eq_some_iff ho hnd, mem_after_iff]
    refine and_congr_right fun _ => forall_congr' fun q => ?_
    rw [mem_after_iff, not_outranks_iff]
  rw [winner, Option.map_eq_some_iff]
  constructor
  · rintro ⟨p, h0, e⟩
    obtain ⟨hp, hmax⟩ := (hroot p).mp h0
    exact ⟨p, hp, e, hmax⟩
  · rintro ⟨p, hp, e, hmax⟩
    exact ⟨p, (hroot p).mpr ⟨hp, hmax⟩, e⟩

/-- **After every history the heap is in order and holds the live proposals, each once.** So its
size is their number, its winner the highest of them, and its ranking lists them in the order in
which they win when the winner is withdrawn again and again. -/
theorem after_shows_live (moves : List (Move (String × Int))) (j : Journal) :
    let h := after moves j
    let Live := scheme.IsLive moves
    Heap.IsOrdered h.items ∧
    (h.items.toList.map Proposal.id).Nodup ∧
    (∀ p, p ∈ h.items ↔ Live p) ∧
    h.size = {p | Live p}.ncard ∧
    (h.winner = none ↔ ∀ p, ¬ Live p) ∧
    (∀ route, h.winner = some route ↔ ∃ p, Live p ∧ p.route = route ∧ ∀ q, Live q →
      q.priority < p.priority ∨ (q.priority = p.priority ∧ q.id ≤ p.id)) ∧
    (∀ p, p ∈ h.ranking ↔ Live p) ∧
    Drains j moves h.ranking := by
  refine ⟨(shows_after moves j).ordered, nodup_after moves j, fun _ => mem_after_iff,
    size_after moves j, ?_, fun _ => winner_after_iff, fun _ => ?_, drains_ranking moves j⟩
  · rw [winner_eq_none_iff]
    exact forall_congr' fun _ => not_congr mem_after_iff
  · rw [mem_ranking, mem_after_iff]

end AppHost.ProposalHeap
