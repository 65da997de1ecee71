import AppHost.Index.Heap

/-!
# Heap order

Proposals are ordered by priority and, among equal priorities, by number. `Ordered v` says that no
element of `v` outranks its parent; `Hole v i` says so of every pair that the slot `i` has no part
in, with the children of `i` in order with the parent of `i`. Moving an element up or down keeps
the hole, now at the slot where the element is, and ends where the element fits.
-/

namespace AppHost

namespace Proposal

theorem outranks_iff {p q : Proposal} :
    p.outranks q = true ↔ q.priority < p.priority ∨ (q.priority = p.priority ∧ q.id < p.id) := by
  simp [outranks]

theorem not_outranks_iff {p q : Proposal} :
    p.outranks q = false ↔ p.priority < q.priority ∨ (p.priority = q.priority ∧ p.id ≤ q.id) := by
  rw [← Bool.not_eq_true, outranks_iff]; omega

theorem not_outranks_self (p : Proposal) : p.outranks p = false := by
  rw [not_outranks_iff]; omega

theorem not_outranks_of_outranks {p q : Proposal} (h : p.outranks q = true) :
    q.outranks p = false := by
  rw [outranks_iff] at h; rw [not_outranks_iff]; omega

theorem outranks_trans {p q r : Proposal} (h1 : p.outranks q = true)
    (h2 : q.outranks r = true) : p.outranks r = true := by
  rw [outranks_iff] at h1 h2 ⊢; omega

theorem not_outranks_trans {p q r : Proposal} (h1 : p.outranks q = false)
    (h2 : q.outranks r = false) : p.outranks r = false := by
  rw [not_outranks_iff] at h1 h2 ⊢; omega

/-- Two proposals of which neither outranks the other have the same number. -/
theorem id_eq_of_not_outranks {p q : Proposal} (h1 : p.outranks q = false)
    (h2 : q.outranks p = false) : p.id = q.id := by
  rw [not_outranks_iff] at h1 h2; omega

end Proposal

namespace Heap

open Proposal

variable {n : Nat} {v : Vector Proposal n}

/-- The slot `j` is a child of the slot `k`. -/
def IsChild (j k : Fin n) : Prop := 0 < j.val ∧ k.val = (j.val - 1) / 2

theorem IsChild.lt {j k : Fin n} (h : IsChild j k) : k.val < j.val := by
  unfold IsChild at h; omega

theorem IsChild.ne {j k : Fin n} (h : IsChild j k) : j ≠ k := by
  rintro rfl
  exact absurd h.lt (Nat.lt_irrefl _)

/-- A slot has only one parent. -/
theorem IsChild.unique {j k k' : Fin n} (h : IsChild j k) (h' : IsChild j k') : k = k' :=
  Fin.ext (h.2.trans h'.2.symm)

theorem IsChild.eq_left_or_right {j k : Fin n} (h : IsChild j k) :
    j.val = 2 * k.val + 1 ∨ j.val = 2 * k.val + 2 := by
  unfold IsChild at h; omega

/-- No element outranks its parent. -/
def Ordered (v : Vector Proposal n) : Prop :=
  ∀ j k : Fin n, IsChild j k → (v.get j).outranks (v.get k) = false

theorem ordered_iff : Ordered v ↔ IsOrdered v.toArray := by
  constructor
  · intro h i j hi hj h0 hij
    have hin : i < n := by simpa using hi
    have hjn : j < n := by simpa using hj
    exact h ⟨i, hin⟩ ⟨j, hjn⟩ ⟨h0, hij⟩
  · intro h j k hjk
    exact h j k (by simp) (by simp) hjk.1 hjk.2

/-- In order but for the element at `i`, whose neighbours are in order with each other. -/
structure Hole (v : Vector Proposal n) (i : Fin n) : Prop where
  off : ∀ j k, IsChild j k → j ≠ i → k ≠ i → (v.get j).outranks (v.get k) = false
  across : ∀ j k, IsChild j i → IsChild i k → (v.get j).outranks (v.get k) = false

/-- The element at `i` does not outrank its parent. -/
def FitsAbove (v : Vector Proposal n) (i : Fin n) : Prop :=
  ∀ k, IsChild i k → (v.get i).outranks (v.get k) = false

/-- No child of `i` outranks the element at `i`. -/
def FitsBelow (v : Vector Proposal n) (i : Fin n) : Prop :=
  ∀ j, IsChild j i → (v.get j).outranks (v.get i) = false

theorem Hole.ordered {i : Fin n} (h : Hole v i) (ha : FitsAbove v i) (hb : FitsBelow v i) :
    Ordered v := by
  intro j k hjk
  by_cases hj : j = i
  · subst hj; exact ha k hjk
  · by_cases hk : k = i
    · subst hk; exact hb j hjk
    · exact h.off j k hjk hj hk

/-! ## Swaps -/

theorem get_swap_left (v : Vector Proposal n) (i k : Fin n) :
    (v.swap i k i.2 k.2).get i = v.get k :=
  Vector.getElem_swap_left i.2 k.2

theorem get_swap_right (v : Vector Proposal n) (i k : Fin n) :
    (v.swap i k i.2 k.2).get k = v.get i :=
  Vector.getElem_swap_right i.2 k.2

theorem get_swap_other (v : Vector Proposal n) {i k j : Fin n} (hi : j ≠ i) (hk : j ≠ k) :
    (v.swap i k i.2 k.2).get j = v.get j :=
  Vector.getElem_swap_of_ne (Fin.val_ne_of_ne hi) (Fin.val_ne_of_ne hk)

/-- After the element at `i` and its parent at `k` change places the hole is at `k`. -/
theorem Hole.swap_parent {i k : Fin n} (h : Hole v i) (hik : IsChild i k) :
    Hole (v.swap i k i.2 k.2) k where
  off j l hjl hjk hlk := by
    have hji : j ≠ i := fun e => hlk ((e ▸ hjl).unique hik)
    rw [get_swap_other v hji hjk]
    by_cases hli : l = i
    · subst hli; rw [get_swap_left]; exact h.across j k hjl hik
    · rw [get_swap_other v hli hlk]; exact h.off j l hjl hji hli
  across j l hjk hkl := by
    have hkl' : (v.get k).outranks (v.get l) = false := h.off k l hkl hik.ne.symm fun e => by
      have h1 := hik.lt; have h2 := hkl.lt; rw [e] at h2; omega
    have hli : l ≠ i := fun e => by
      have h1 := hik.lt; have h2 := hkl.lt; rw [e] at h2; omega
    rw [get_swap_other v hli hkl.ne.symm]
    by_cases hji : j = i
    · subst hji; rw [get_swap_left]; exact hkl'
    · rw [get_swap_other v hji hjk.ne]
      exact not_outranks_trans (h.off j k hjk hji hik.ne.symm) hkl'

/-- An element that has moved up outranks what is below it. -/
theorem Hole.fitsBelow_swap_parent {i k : Fin n} (h : Hole v i) (hik : IsChild i k)
    (ho : (v.get i).outranks (v.get k) = true) : FitsBelow (v.swap i k i.2 k.2) k := by
  intro j hjk
  rw [get_swap_right]
  by_cases hji : j = i
  · subst hji; rw [get_swap_left]; exact not_outranks_of_outranks ho
  · rw [get_swap_other v hji hjk.ne]
    exact not_outranks_trans (h.off j k hjk hji hik.ne.symm) (not_outranks_of_outranks ho)

/-- After the element at `i` and its highest child at `b` change places the hole is at `b`. -/
theorem Hole.swap_child {i b : Fin n} (h : Hole v i) (hbi : IsChild b i)
    (hmax : ∀ j, IsChild j i → (v.get j).outranks (v.get b) = false) :
    Hole (v.swap i b i.2 b.2) b where
  off j k hjk hjb hkb := by
    by_cases hji : j = i
    · subst hji
      rw [get_swap_left, get_swap_other v hjk.ne.symm hkb]
      exact h.across b k hbi hjk
    · rw [get_swap_other v hji hjb]
      by_cases hki : k = i
      · subst hki; rw [get_swap_left]; exact hmax j hjk
      · rw [get_swap_other v hki hkb]; exact h.off j k hjk hji hki
  across j k hjb hbk := by
    obtain rfl : k = i := hbk.unique hbi
    have hji : j ≠ k := fun e => by
      have h1 := hjb.lt; have h2 := hbk.lt; rw [e] at h1; omega
    rw [get_swap_left, get_swap_other v hji hjb.ne]
    exact h.off j b hjb hji hbk.ne

theorem fitsAbove_swap_child {i b : Fin n} (hbi : IsChild b i)
    (ho : (v.get b).outranks (v.get i) = true) : FitsAbove (v.swap i b i.2 b.2) b := by
  intro k hbk
  obtain rfl : k = i := hbk.unique hbi
  rw [get_swap_left, get_swap_right]
  exact not_outranks_of_outranks ho

/-! ## Moving up -/

/-- The element at a hole, moved up, does not outrank its parent any more, and the hole is where
it ends. -/
theorem siftUp_hole {i : Fin n} (h : Hole v i) :
    Hole (siftUp v i).1 (siftUp v i).2 ∧ FitsAbove (siftUp v i).1 (siftUp v i).2 := by
  fun_induction siftUp v i with
  | case1 v i h0 =>
    exact ⟨h, fun k hk => absurd h0 (Nat.ne_of_gt hk.1)⟩
  | case2 v i h0 parent ho ih =>
    exact ih (h.swap_parent ⟨by omega, rfl⟩)
  | case3 v i h0 parent ho =>
    refine ⟨h, fun k hk => ?_⟩
    obtain rfl : k = parent := Fin.ext hk.2
    exact Bool.eq_false_iff.mpr ho

/-- An element that fits above what is below it still does so after moving up. -/
theorem siftUp_fitsBelow {i : Fin n} (h : Hole v i) (hb : FitsBelow v i) :
    FitsBelow (siftUp v i).1 (siftUp v i).2 := by
  fun_induction siftUp v i with
  | case1 v i h0 => exact hb
  | case2 v i h0 parent ho ih =>
    have hip : IsChild i parent := ⟨by omega, rfl⟩
    exact ih (h.swap_parent hip) (h.fitsBelow_swap_parent hip ho)
  | case3 v i h0 parent ho => exact hb

/-! ## Moving down -/

theorem outranks_of_better_ne {best : Fin n} {j : Nat} (h : better v best j ≠ best) :
    (v.get (better v best j)).outranks (v.get best) = true := by
  unfold better at h
  split at h
  · next hj =>
    split at h
    · next ho =>
      have e : better v best j = ⟨j, hj⟩ := by
        simp only [better, dif_pos hj]
        exact if_pos ho
      simp only [e]
      exact ho
    · exact absurd rfl h
  · exact absurd rfl h

theorem not_outranks_better (v : Vector Proposal n) (best j : Fin n) :
    (v.get j).outranks (v.get (better v best j)) = false := by
  by_cases ho : (v.get j).outranks (v.get best) = true
  · have e : better v best j = j := by
      simp only [better, dif_pos j.isLt, Fin.eta]
      exact if_pos ho
    simp only [e, not_outranks_self]
  · have e : better v best j = best := by
      simp only [better, dif_pos j.isLt, Fin.eta]
      exact if_neg ho
    simpa only [e] using Bool.eq_false_iff.mpr ho

theorem better_not_outranked (v : Vector Proposal n) (best : Fin n) (j : Nat) :
    (v.get best).outranks (v.get (better v best j)) = false := by
  by_cases h : better v best j = best
  · simp only [h, not_outranks_self]
  · exact not_outranks_of_outranks (outranks_of_better_ne h)

/-- No child of `i` outranks the highest of `i` and its children. -/
theorem not_outranks_bestChild {i j : Fin n} (hj : IsChild j i) :
    (v.get j).outranks (v.get (bestChild v i)) = false := by
  rcases hj.eq_left_or_right with hl | hr
  · have h1 := not_outranks_better v i j
    have h2 := better_not_outranked v (better v i j) (2 * i.val + 2)
    simpa only [bestChild, ← hl] using not_outranks_trans h1 h2
  · have h1 := not_outranks_better v (better v i (2 * i.val + 1)) j
    simpa only [bestChild, ← hr] using h1

theorem isChild_bestChild {i : Fin n} (h : bestChild v i ≠ i) : IsChild (bestChild v i) i := by
  unfold IsChild
  rcases better_eq_or v (better v i (2 * i.val + 1)) (2 * i.val + 2) with h2 | h2
  · rcases better_eq_or v i (2 * i.val + 1) with h1 | h1
    · exact absurd (h2.trans h1) h
    · rw [bestChild, h2]; omega
  · rw [bestChild]; omega

/-- The highest of `i` and its children outranks the element at `i` unless it is that element. -/
theorem outranks_of_bestChild_ne {i : Fin n} (h : bestChild v i ≠ i) :
    (v.get (bestChild v i)).outranks (v.get i) = true := by
  by_cases h2 : better v (better v i (2 * i.val + 1)) (2 * i.val + 2) = better v i (2 * i.val + 1)
  · have h1 : better v i (2 * i.val + 1) ≠ i := fun e => h (h2.trans e)
    simpa only [bestChild, h2] using outranks_of_better_ne h1
  · have ho := outranks_of_better_ne h2
    by_cases h1 : better v i (2 * i.val + 1) = i
    · simpa only [bestChild, h1] using ho
    · exact outranks_trans ho (outranks_of_better_ne h1)

/-- The element at a hole that does not outrank its parent, moved down, leaves everything in
order. -/
theorem siftDown_ordered {i : Fin n} (h : Hole v i) (ha : FitsAbove v i) :
    Ordered (siftDown v i) := by
  fun_induction siftDown v i with
  | case1 v i best hbest =>
    refine h.ordered ha fun j hj => ?_
    have hm := not_outranks_bestChild (v := v) hj
    simpa only [show bestChild v i = i from hbest] using hm
  | case2 v i best hbest ih =>
    have hc : IsChild best i := isChild_bestChild hbest
    exact ih (h.swap_child hc fun j hj => not_outranks_bestChild hj)
      (fitsAbove_swap_child hc (outranks_of_bestChild_ne hbest))

end Heap

end AppHost
