import AppHost.Proofs.Heap.Elements
import Mathlib.Algebra.Group.Nat.Defs

/-!
# The heap in place

Adding and removing as a machine does them: on one array, with every access checked against its
size and every loop allowed so many exchanges. Both come to what `push` and `remove` say. They never
reach outside the array, and the binary logarithm of its size is enough exchanges for each loop,
whatever the elements are and in whatever order.
-/

namespace AppHost.Heap

/-- Why the work on an array breaks down. -/
inductive Fault where
  /-- There is no such slot. -/
  | outside
  /-- A loop makes more exchanges than it may. -/
  | endless
  deriving DecidableEq, Repr

section Machine

variable (items : Array Proposal)

/-- The element at `i`. -/
def slot (i : Nat) : Except Fault Proposal :=
  if h : i < items.size then .ok items[i] else .error .outside

/-- With the elements at `i` and `j` exchanged. -/
def exchange (i j : Nat) : Except Fault (Array Proposal) :=
  if h : i < items.size ∧ j < items.size then .ok (items.swap i j h.1 h.2) else .error .outside

/-- The slot to exchange `pos` with on the way up, if any. -/
def turnUp (pos : Nat) : Except Fault (Option Nat) := do
  if pos = 0 then return none
  let parent := (pos - 1) / 2
  if (← slot items pos).outranks (← slot items parent) then return some parent
  return none

/-- `j` if there is such a slot and its element outranks the one at `best`. -/
def higher (best j : Nat) : Except Fault Nat := do
  if items.size ≤ j then return best
  if (← slot items j).outranks (← slot items best) then return j
  return best

/-- The slot to exchange `pos` with on the way down, if any. -/
def turnDown (pos : Nat) : Except Fault (Option Nat) := do
  let best ← higher items pos (2 * pos + 1)
  let best ← higher items best (2 * pos + 2)
  if best = pos then return none
  return some best

/-- Follow the turns from `pos` on, with at most `fuel` exchanges. -/
def walk (turn : Array Proposal → Nat → Except Fault (Option Nat)) (fuel : Nat)
    (items : Array Proposal) (pos : Nat) : Except Fault (Array Proposal × Nat) := do
  match ← turn items pos with
  | none => return (items, pos)
  | some next =>
    match fuel with
    | 0 => throw .endless
    | fuel + 1 => walk turn fuel (← exchange items pos next) next

/-- Add `p` at the end and move it up. -/
def pushInPlace (fuel : Nat) (p : Proposal) : Except Fault (Array Proposal) := do
  let items := items.push p
  let (items, _) ← walk turnUp fuel items (items.size - 1)
  return items

/-- Restore the order at `pos`, whose element is new there. -/
def restoreInPlace (fuel pos : Nat) : Except Fault (Array Proposal) := do
  if items.size ≤ pos then return items
  let (items, pos) ← walk turnUp fuel items pos
  let (items, _) ← walk turnDown fuel items pos
  return items

/-- Whether there is a proposal `id`, and what is left without it. -/
def removeInPlace (fuel id : Nat) : Except Fault (Bool × Array Proposal) := do
  match items.findIdx? (·.id == id) with
  | none => return (false, items)
  | some pos =>
    let items ← exchange items pos (items.size - 1)
    return (true, ← restoreInPlace items.pop fuel pos)

end Machine

variable {n : Nat} {items : Array Proposal}

/-! ## Accesses -/

/-- A slot of a vector is there. -/
theorem slot_toArray (v : Vector Proposal n) (i : Fin n) : slot v.toArray i = .ok (v.get i) := by
  have hi : i.val < v.toArray.size := by rw [v.size_toArray]; exact i.isLt
  rw [slot, dif_pos hi]
  rfl

theorem exchange_toArray (v : Vector Proposal n) (i j : Fin n) :
    exchange v.toArray i j = .ok (v.swap i j i.2 j.2).toArray := by
  have hi : i.val < v.toArray.size := by rw [v.size_toArray]; exact i.isLt
  have hj : j.val < v.toArray.size := by rw [v.size_toArray]; exact j.isLt
  rw [exchange, dif_pos ⟨hi, hj⟩]
  rfl

/-! ## Turns -/

theorem turnUp_toArray (v : Vector Proposal n) {i parent : Fin n} (hp : IsChild i parent) :
    turnUp v.toArray i =
      .ok (if (v.get i).outranks (v.get parent) then some parent.val else none) := by
  have hne : i.val ≠ 0 := Nat.ne_of_gt hp.1
  simp only [turnUp, hne, if_false, ← hp.2, slot_toArray]
  change (if _ then _ else _) = _
  split <;> rfl

theorem higher_toArray (v : Vector Proposal n) (best : Fin n) (j : Nat) :
    higher v.toArray best j = .ok (better v best j).val := by
  unfold higher better
  rw [v.size_toArray]
  split
  · next hj =>
    rw [dif_neg (Nat.not_lt.mpr hj)]
    rfl
  · next hj =>
    have hlt : j < n := Nat.lt_of_not_le hj
    have hslot : slot v.toArray j = .ok (v.get ⟨j, hlt⟩) := slot_toArray v ⟨j, hlt⟩
    simp only [hslot, slot_toArray, dif_pos hlt]
    change (if _ then _ else _) = _
    split <;> rfl

theorem turnDown_toArray (v : Vector Proposal n) (i : Fin n) :
    turnDown v.toArray i =
      .ok (if bestChild v i = i then none else some (bestChild v i).val) := by
  simp only [turnDown, higher_toArray]
  change (do
    let best ← higher v.toArray (better v i (2 * i.val + 1)).val (2 * i.val + 2)
    if best = i.val then return none
    return some best) = _
  rw [higher_toArray]
  change (if (bestChild v i).val = i.val then _ else _) = _
  simp only [Fin.val_inj]
  split <;> rfl

/-! ## Walks -/

section

variable {turn : Array Proposal → Nat → Except Fault (Option Nat)} {pos next : Nat}

theorem walk_of_none (h : turn items pos = .ok none) (fuel : Nat) :
    walk turn fuel items pos = .ok (items, pos) := by
  rw [walk, h]
  rfl

theorem walk_of_some {items' : Array Proposal} (h : turn items pos = .ok (some next))
    (hx : exchange items pos next = .ok items') (fuel : Nat) :
    walk turn (fuel + 1) items pos = walk turn fuel items' next := by
  rw [walk, h]
  change (do walk turn fuel (← exchange items pos next) next) = _
  rw [hx]
  rfl

end

/-- The way up from slot `i` is no longer than the binary logarithm of `i + 1`. -/
theorem walk_turnUp (v : Vector Proposal n) (i : Fin n) : ∀ fuel : Nat,
    i.val + 1 < 2 ^ (fuel + 1) →
      walk turnUp fuel v.toArray i = .ok ((siftUp v i).1.toArray, (siftUp v i).2.val) := by
  fun_induction siftUp v i with
  | case1 v i h0 =>
    intro fuel _
    refine walk_of_none ?_ fuel
    rw [h0]
    rfl
  | case2 v i h0 parent ho ih =>
    intro fuel hfuel
    have hparent : IsChild i parent := ⟨Nat.pos_of_ne_zero h0, rfl⟩
    have hturn := turnUp_toArray v hparent
    rw [if_pos ho] at hturn
    cases fuel with
    | zero => omega
    | succ fuel =>
      rw [walk_of_some hturn (exchange_toArray v i parent)]
      refine ih fuel ?_
      have hhalf := hparent.eq_left_or_right
      rw [Nat.pow_succ] at hfuel
      omega
  | case3 v i h0 parent ho =>
    intro fuel _
    have hparent : IsChild i parent := ⟨Nat.pos_of_ne_zero h0, rfl⟩
    have hturn := turnUp_toArray v hparent
    rw [if_neg ho] at hturn
    exact walk_of_none hturn fuel

/-- The way down from slot `i` is no longer than the number of levels below it. -/
theorem walk_turnDown (v : Vector Proposal n) (i : Fin n) : ∀ fuel : Nat,
    n < (i.val + 1) * 2 ^ (fuel + 1) →
      ∃ j, walk turnDown fuel v.toArray i = .ok ((siftDown v i).toArray, j) := by
  fun_induction siftDown v i with
  | case1 v i best hbest =>
    intro fuel _
    have hturn := turnDown_toArray v i
    rw [if_pos hbest] at hturn
    exact ⟨i, walk_of_none hturn fuel⟩
  | case2 v i best hbest ih =>
    intro fuel hfuel
    have hturn := turnDown_toArray v i
    rw [if_neg hbest] at hturn
    have hchild : 2 * (i.val + 1) ≤ best.val + 1 := by
      have := (isChild_bestChild hbest).eq_left_or_right
      omega
    cases fuel with
    | zero =>
      have hlt := best.isLt
      omega
    | succ fuel =>
      rw [walk_of_some hturn (exchange_toArray v i best)]
      refine ih fuel ?_
      calc n < (i.val + 1) * 2 ^ (fuel + 1 + 1) := hfuel
        _ = 2 * (i.val + 1) * 2 ^ (fuel + 1) := by
          rw [Nat.pow_succ', ← Nat.mul_assoc, Nat.mul_comm 2]
        _ ≤ (best.val + 1) * 2 ^ (fuel + 1) := Nat.mul_le_mul_right _ hchild

/-! ## Pushing and removing -/

theorem pushInPlace_eq {fuel : Nat} (hfuel : items.size + 1 < 2 ^ (fuel + 1)) (p : Proposal) :
    pushInPlace items fuel p = .ok (push items p) := by
  let v : Vector Proposal (items.size + 1) := ⟨items.push p, by simp⟩
  have hlast : (items.push p).size - 1 = (Fin.last items.size).val := by simp
  have hwalk : walk turnUp fuel (items.push p) (Fin.last items.size).val = .ok _ :=
    walk_turnUp v (Fin.last items.size) fuel hfuel
  simp only [pushInPlace, hlast, hwalk]
  rfl

theorem restoreInPlace_eq {fuel : Nat} (hfuel : items.size < 2 ^ (fuel + 1)) (pos : Nat) :
    restoreInPlace items fuel pos = .ok (restore items pos) := by
  unfold restoreInPlace restore
  split
  · next h =>
    rw [dif_neg (Nat.not_lt.mpr h)]
    rfl
  · next h =>
    have hpos : pos < items.size := Nat.lt_of_not_le h
    rw [dif_pos hpos]
    let v : Vector Proposal items.size := ⟨items, rfl⟩
    have hup : walk turnUp fuel items pos = .ok _ :=
      walk_turnUp v ⟨pos, hpos⟩ fuel (Nat.lt_of_le_of_lt hpos hfuel)
    obtain ⟨j, hdown⟩ := walk_turnDown (siftUp v ⟨pos, hpos⟩).1 (siftUp v ⟨pos, hpos⟩).2 fuel
      (Nat.lt_of_lt_of_le hfuel (Nat.le_mul_of_pos_left _ (Nat.succ_pos _)))
    rw [hup]
    change (do
      let (items, _) ← walk turnDown fuel (siftUp v ⟨pos, hpos⟩).1.toArray _
      return items) = _
    rw [hdown]
    rfl

theorem removeInPlace_eq {fuel : Nat} (hfuel : items.size < 2 ^ (fuel + 1)) (id : Nat) :
    removeInPlace items fuel id =
      .ok ((remove items id).isSome, (remove items id).getD items) := by
  unfold removeInPlace remove
  rw [Array.findIdx?_eq_map_findFinIdx?_val]
  cases items.findFinIdx? (·.id == id) with
  | none => rfl
  | some i =>
    have hlast : items.size - 1 < items.size := Nat.sub_one_lt_of_lt i.isLt
    have hx : exchange items i (items.size - 1) = .ok (items.swap i (items.size - 1)) :=
      dif_pos ⟨i.isLt, hlast⟩
    have hless : (items.swap i (items.size - 1)).pop.size < 2 ^ (fuel + 1) := by
      rw [Array.size_pop, Array.size_swap]
      omega
    change (do
      let items ← exchange items i (items.size - 1)
      return (true, ← restoreInPlace items.pop fuel i)) = _
    rw [hx]
    change (do return (true, ← restoreInPlace (items.swap i (items.size - 1)).pop fuel i)) = _
    rw [restoreInPlace_eq hless]
    rfl

/-! ## Orderly heaps -/

/-- What the operations of a heap keep: order, and a number for each element of its own. -/
structure Orderly (items : Array Proposal) : Prop where
  ordered : IsOrdered items
  distinct : (items.toList.map Proposal.id).Nodup

instance (items : Array Proposal) : Decidable (IsOrdered items) :=
  decidable_of_iff (∀ i j : Fin items.size, 0 < i.val → j.val = (i.val - 1) / 2 →
    items[i].outranks items[j] = false)
    ⟨fun h i j hi hj => h ⟨i, hi⟩ ⟨j, hj⟩, fun h i j => h i j i.isLt j.isLt⟩

theorem Orderly.push {p : Proposal} (h : Orderly items) (hp : ∀ q ∈ items, q.id ≠ p.id) :
    Orderly (push items p) where
  ordered := push_isOrdered h.ordered p
  distinct := by
    have hids := (push_perm items p).map Proposal.id
    refine hids.nodup_iff.mpr (List.nodup_cons.mpr ⟨fun hid => ?_, h.distinct⟩)
    obtain ⟨q, hq, e⟩ := List.mem_map.mp hid
    exact hp q (Array.mem_toList_iff.mp hq) e

theorem Orderly.remove {id : Nat} {items' : Array Proposal} (h : Orderly items)
    (hr : remove items id = some items') : Orderly items' where
  ordered := remove_isOrdered h.ordered hr
  distinct := by
    have hperm := (remove_perm_filter h.distinct hr).map Proposal.id
    exact hperm.nodup_iff.mpr (h.distinct.sublist (List.filter_sublist.map Proposal.id))

/-- **An orderly heap stays orderly, in place and without a breakdown.** Removing finds nothing, and
changes nothing, if and only if no element has the number; otherwise all others remain, each once.
Adding an element with a number of its own keeps the others, whatever its rank. -/
theorem orderly_in_place (h : Orderly items) :
    (∀ id fuel, items.size < 2 ^ (fuel + 1) →
      (removeInPlace items fuel id = .ok (false, items) ↔ ∀ p ∈ items, p.id ≠ id) ∧
      ∀ p ∈ items, p.id = id → ∃ items', removeInPlace items fuel id = .ok (true, items') ∧
        remove items id = some items' ∧ Orderly items' ∧
        items'.toList.Perm (items.toList.filter fun q => q.id != id)) ∧
    ∀ p fuel, items.size + 1 < 2 ^ (fuel + 1) → (∀ q ∈ items, q.id ≠ p.id) →
      pushInPlace items fuel p = .ok (push items p) ∧ Orderly (push items p) ∧
        (push items p).toList.Perm (p :: items.toList) := by
  refine ⟨fun id fuel hfuel => ⟨?_, fun p hp hid => ?_⟩, fun p fuel hfuel hp =>
    ⟨pushInPlace_eq hfuel p, h.push hp, push_perm items p⟩⟩
  · rw [removeInPlace_eq hfuel, ← remove_eq_none_iff]
    cases hr : remove items id with
    | none => simp
    | some items' => simp
  · cases hr : remove items id with
    | none => exact absurd hid (remove_eq_none_iff.mp hr p hp)
    | some items' =>
      refine ⟨items', ?_, rfl, h.remove hr, remove_perm_filter h.distinct hr⟩
      rw [removeInPlace_eq hfuel, hr]
      rfl

/-- The last element comes into a slot whose parent it outranks, and has to move up. -/
theorem orderly_in_place_upwards :
    let items : Array Proposal := #[⟨0, 10, "a"⟩, ⟨1, 4, "b"⟩, ⟨2, 9, "c"⟩, ⟨3, 3, "d"⟩,
      ⟨4, 2, "e"⟩, ⟨5, 8, "f"⟩, ⟨6, 7, "g"⟩]
    Orderly items ∧ items.size < 2 ^ 3 ∧ ⟨3, 3, "d"⟩ ∈ items ∧ (∀ q ∈ items, q.id ≠ 7) ∧
      removeInPlace items 2 3 = .ok (true, #[⟨0, 10, "a"⟩, ⟨6, 7, "g"⟩, ⟨2, 9, "c"⟩, ⟨1, 4, "b"⟩,
        ⟨4, 2, "e"⟩, ⟨5, 8, "f"⟩]) ∧
      (∃ items', removeInPlace items 2 3 = .ok (true, items') ∧ Orderly items') ∧
      removeInPlace items 2 7 = .ok (false, items) ∧ Orderly (push items ⟨7, 4, "h"⟩) := by
  intro items
  have h : Orderly items := ⟨by decide, by decide⟩
  have hmem : (⟨3, 3, "d"⟩ : Proposal) ∈ items := by simp [items]
  have hfresh : ∀ q ∈ items, q.id ≠ 7 := by decide
  obtain ⟨hremove, hpush⟩ := orderly_in_place h
  obtain ⟨-, hfound⟩ := hremove 3 2 (by decide)
  obtain ⟨items', hgone, -, horderly, -⟩ := hfound _ hmem rfl
  exact ⟨h, by decide, hmem, hfresh, by cbv, ⟨items', hgone, horderly⟩,
    (hremove 7 2 (by decide)).1.mpr hfresh, (hpush ⟨7, 4, "h"⟩ 3 (by decide) hfresh).2.1⟩

end AppHost.Heap
