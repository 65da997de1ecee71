import AppHost.Proofs.Heap.Order

/-!
# Adding to a heap and removing from it

`push` adds exactly one element and `remove` takes exactly one away, whatever the arrangement is,
and both keep the order. The element at the root is not outranked by any other.
-/

namespace AppHost.Heap

open Proposal

variable {n : Nat} {items items' : Array Proposal} {p : Proposal} {id : Nat}

/-! ## Elements -/

theorem siftUp_perm (v : Vector Proposal n) (i : Fin n) : (siftUp v i).1.Perm v := by
  fun_induction siftUp v i with
  | case1 v i h0 => exact .refl v
  | case2 v i h0 parent ho ih => exact ih.trans (Vector.swap_perm i.isLt parent.isLt)
  | case3 v i h0 parent ho => exact .refl v

theorem siftDown_perm (v : Vector Proposal n) (i : Fin n) : (siftDown v i).Perm v := by
  fun_induction siftDown v i with
  | case1 v i best hbest => exact .refl v
  | case2 v i best hbest ih => exact ih.trans (Vector.swap_perm i.isLt best.isLt)

/-- `push` adds exactly the new element. -/
theorem push_perm (items : Array Proposal) (p : Proposal) :
    (push items p).toList.Perm (p :: items.toList) := by
  have h : (push items p).Perm (items.push p) := (siftUp_perm _ _).toArray
  refine (Array.perm_iff_toList_perm.mp h).trans ?_
  rw [Array.toList_push]
  exact List.perm_append_singleton p items.toList

theorem restore_perm (items : Array Proposal) (i : Nat) : (restore items i).Perm items := by
  unfold restore
  split
  · exact ((siftDown_perm _ _).trans (siftUp_perm _ _)).toArray
  · exact .refl items

/-- An array as its last element and the others. -/
theorem back_cons_pop_perm {items : Array Proposal} (h : 0 < items.size) :
    items.toList.Perm (items[items.size - 1] :: items.pop.toList) := by
  have hne : items.toList ≠ [] := by
    intro e
    rw [← Array.length_toList, e] at h
    exact absurd h (Nat.lt_irrefl 0)
  have hlast : items[items.size - 1] = items.toList.getLast hne := by
    rw [List.getLast_eq_getElem]; rfl
  have hp := List.perm_append_singleton (items.toList.getLast hne) items.toList.dropLast
  rw [List.dropLast_concat_getLast hne] at hp
  rwa [Array.toList_pop, hlast]

theorem swap_pop_perm {i : Nat} (hi : i < items.size) :
    items.toList.Perm
      (items[i] :: ((items.swap i (items.size - 1) hi (by omega)).pop).toList) := by
  have hl : items.size - 1 < items.size := by omega
  have hp := Array.perm_iff_toList_perm.mp (Array.swap_perm hi hl)
  have hs : 0 < (items.swap i (items.size - 1) hi hl).size := by rw [Array.size_swap]; omega
  refine hp.symm.trans ?_
  simpa using back_cons_pop_perm hs

/-- There is nothing to remove if, and only if, no element has the number. -/
theorem remove_eq_none_iff : remove items id = none ↔ ∀ p ∈ items, p.id ≠ id := by
  unfold remove
  split
  · next h =>
    rw [Array.findFinIdx?_eq_none_iff] at h
    exact ⟨fun _ p hp => by simpa using h p hp, fun _ => rfl⟩
  · next i h =>
    obtain ⟨hi, -⟩ := Array.findFinIdx?_eq_some_iff.mp h
    constructor
    · intro e; cases e
    · intro hn
      exact absurd (by simpa using hi) (hn items[i] (Array.getElem_mem i.isLt))

/-- `remove` takes away one element that has the number. -/
theorem remove_perm (h : remove items id = some items') :
    ∃ p, p.id = id ∧ items.toList.Perm (p :: items'.toList) := by
  unfold remove at h
  split at h
  · cases h
  · next i hi =>
    obtain ⟨hid, -⟩ := Array.findFinIdx?_eq_some_iff.mp hi
    cases h
    refine ⟨items[i], by simpa using hid, ?_⟩
    refine (swap_pop_perm i.isLt).trans (.cons _ ?_)
    exact (Array.perm_iff_toList_perm.mp (restore_perm _ _)).symm

/-- Without the one element that has the number `id` there are those with another number. -/
theorem remove_perm_filter (hn : (items.toList.map Proposal.id).Nodup)
    (h : remove items id = some items') :
    items'.toList.Perm (items.toList.filter fun p => p.id != id) := by
  obtain ⟨p, rfl, hp⟩ := remove_perm h
  have hothers : ∀ q ∈ items'.toList, (q.id != p.id) = true := by
    intro q hq
    have hnd := (hp.map Proposal.id).nodup_iff.mp hn
    rw [List.map_cons, List.nodup_cons] at hnd
    have hne : q.id ≠ p.id := fun e => hnd.1 (e ▸ List.mem_map_of_mem hq)
    simpa using hne
  have hf := hp.filter fun q => q.id != p.id
  rw [List.filter_cons_of_neg (by simp), List.filter_eq_self.mpr hothers] at hf
  exact hf.symm

/-! ## Order -/

theorem get_push (p : Proposal) {i : Fin (items.size + 1)} (hi : i.val < items.size) :
    (⟨items.push p, by simp⟩ : Vector Proposal (items.size + 1)).get i = items[i.val] :=
  Array.getElem_push_lt hi

/-- A heap whose last slot is new has a hole there. -/
theorem hole_push (h : IsOrdered items) (p : Proposal) :
    Hole (⟨items.push p, by simp⟩ : Vector Proposal (items.size + 1)) (Fin.last items.size) where
  off j k hjk hj hk := by
    have hj' : j.val < items.size := Fin.val_lt_last hj
    have hk' : k.val < items.size := Fin.val_lt_last hk
    rw [get_push p hj', get_push p hk']
    exact h j k hj' hk' hjk.1 hjk.2
  across j _ hj _ := absurd hj.lt (Nat.not_lt_of_le (Nat.le_of_lt_succ j.isLt))

theorem fitsBelow_last (v : Vector Proposal (n + 1)) : FitsBelow v (Fin.last n) :=
  fun j hj => absurd hj.lt (Nat.not_lt_of_le (Nat.le_of_lt_succ j.isLt))

theorem push_isOrdered (h : IsOrdered items) (p : Proposal) : IsOrdered (push items p) := by
  have hh := hole_push h p
  obtain ⟨h1, h2⟩ := siftUp_hole hh
  exact ordered_iff.mp (h1.ordered h2 (siftUp_fitsBelow hh (fitsBelow_last _)))

/-- Where the slots other than `i` hold what an ordered heap holds there, `i` is a hole. -/
theorem hole_of_agree (h : IsOrdered items) {v : Vector Proposal n} (hn : n ≤ items.size)
    {i : Fin n} (ha : ∀ j : Fin n, j ≠ i → v.get j = items[j.val]) : Hole v i where
  off j k hjk hj hk := by
    rw [ha j hj, ha k hk]
    exact h j k (by omega) (by omega) hjk.1 hjk.2
  across j k hj hk := by
    rw [ha j hj.ne, ha k hk.ne.symm]
    exact not_outranks_trans (h j i (by omega) (by omega) hj.1 hj.2)
      (h i k (by omega) (by omega) hk.1 hk.2)

/-- A hole may have its element too low or too high; both are put right. -/
theorem restore_isOrdered {i : Nat} (h : ∀ hi : i < items.size,
    Hole (⟨items, rfl⟩ : Vector Proposal items.size) ⟨i, hi⟩)
    (hout : items.size ≤ i → IsOrdered items) : IsOrdered (restore items i) := by
  unfold restore
  split
  · next hi =>
    obtain ⟨h1, h2⟩ := siftUp_hole (h hi)
    exact ordered_iff.mp (siftDown_ordered h1 h2)
  · next hi => exact hout (Nat.le_of_not_lt hi)

theorem swap_pop_agree {i j : Nat} (hi : i < items.size)
    (hj : j < (items.swap i (items.size - 1) hi (by omega)).pop.size) (hj' : j < items.size)
    (hij : j ≠ i) : (items.swap i (items.size - 1) hi (by omega)).pop[j] = items[j] := by
  simp only [Array.size_pop, Array.size_swap] at hj
  rw [Array.getElem_pop, Array.getElem_swap_of_ne hij (by omega)]

theorem remove_isOrdered (ho : IsOrdered items) (h : remove items id = some items') :
    IsOrdered items' := by
  unfold remove at h
  split at h
  · cases h
  · next i hi =>
    cases h
    refine restore_isOrdered (fun hlt => ?_) fun hle => ?_
    · refine hole_of_agree ho (by simp) fun j hj => ?_
      have hjlt := j.isLt
      simp only [Array.size_pop, Array.size_swap] at hjlt
      exact swap_pop_agree i.isLt j.isLt (by omega) fun e => hj (Fin.ext e)
    · -- the removed element was the last one, so that nothing has moved
      intro j k hj hk h0 hjk
      have hj' := hj
      simp only [Array.size_pop, Array.size_swap] at hj'
      rw [swap_pop_agree i.isLt hj (by omega) (by omega),
        swap_pop_agree i.isLt hk (by omega) (by omega)]
      exact ho j k _ _ h0 hjk

/-- No element of an ordered heap outranks the one at the root. -/
theorem not_outranks_root (h : IsOrdered items) (h0 : 0 < items.size) (i : Nat)
    (hi : i < items.size) : items[i].outranks items[0] = false := by
  induction i using Nat.strongRecOn with
  | ind i ih =>
    rcases Nat.eq_zero_or_pos i with rfl | hpos
    · exact not_outranks_self _
    · have hlt : (i - 1) / 2 < i := by omega
      exact not_outranks_trans (h i ((i - 1) / 2) hi (by omega) hpos rfl) (ih _ hlt (by omega))

end AppHost.Heap
