import AppHost.Handle
import AppHost.Journal

/-!
# Index page proposals

Extensions propose routes as the landing page. The proposal of highest priority wins, among equal
priorities the latest one. Live proposals sit in a binary max-heap over an array, so the winner is
at the root; withdrawing one overwrites its slot with the last element and restores the order from
there, first upwards and then downwards.
-/

namespace AppHost

structure Proposal where
  id : Nat
  priority : Int
  route : String
  deriving DecidableEq, Repr

namespace Proposal

/-- Higher priority, or equal priority and proposed later. -/
def outranks (p q : Proposal) : Bool :=
  q.priority < p.priority || (q.priority == p.priority && q.id < p.id)

end Proposal

namespace Heap

variable {n : Nat}

/-- Move the element at `i` up past every ancestor that it outranks; also where it ends. -/
def siftUp (v : Vector Proposal n) (i : Fin n) : Vector Proposal n × Fin n :=
  if h : i.val = 0 then (v, i)
  else
    let parent : Fin n := ⟨(i.val - 1) / 2, by omega⟩
    if (v.get i).outranks (v.get parent) then siftUp (v.swap i parent i.2 parent.2) parent
    else (v, i)
termination_by i.val
decreasing_by omega

/-- `j` if there is such a slot and its element outranks the one at `best`. -/
def better (v : Vector Proposal n) (best : Fin n) (j : Nat) : Fin n :=
  if h : j < n then if (v.get ⟨j, h⟩).outranks (v.get best) then ⟨j, h⟩ else best else best

/-- The slot of the highest among `i` and its children. -/
def bestChild (v : Vector Proposal n) (i : Fin n) : Fin n :=
  better v (better v i (2 * i.val + 1)) (2 * i.val + 2)

theorem better_eq_or (v : Vector Proposal n) (best : Fin n) (j : Nat) :
    better v best j = best ∨ (better v best j).val = j := by
  simp only [better]
  split
  · split <;> simp
  · simp

theorem lt_bestChild {v : Vector Proposal n} {i : Fin n} (h : bestChild v i ≠ i) :
    i.val < (bestChild v i).val := by
  rcases better_eq_or v (better v i (2 * i.val + 1)) (2 * i.val + 2) with h2 | h2
  · rcases better_eq_or v i (2 * i.val + 1) with h1 | h1
    · exact absurd (h2.trans h1) h
    · rw [bestChild, h2, h1]; omega
  · rw [bestChild, h2]; omega

/-- Move the element at `i` down past every child that outranks it. -/
def siftDown (v : Vector Proposal n) (i : Fin n) : Vector Proposal n :=
  let best := bestChild v i
  if best = i then v else siftDown (v.swap i best i.2 best.2) best
termination_by n - i.val
decreasing_by
  next h =>
    have := lt_bestChild h
    have := (bestChild v i).isLt
    omega

/-- Add `p` at the end and move it up. -/
def push (items : Array Proposal) (p : Proposal) : Array Proposal :=
  let v : Vector Proposal (items.size + 1) := ⟨items.push p, by simp⟩
  (siftUp v (Fin.last items.size)).1.toArray

/-- Restore the order at slot `i`, whose element is new there. -/
def restore (items : Array Proposal) (i : Nat) : Array Proposal :=
  if h : i < items.size then
    let (v, j) := siftUp (⟨items, rfl⟩ : Vector Proposal items.size) ⟨i, h⟩
    (siftDown v j).toArray
  else items

/-- Without the proposal `id`, if it is there. -/
def remove (items : Array Proposal) (id : Nat) : Option (Array Proposal) :=
  match items.findFinIdx? (·.id == id) with
  | none => none
  | some i =>
    let last : Fin items.size := ⟨items.size - 1, by have := i.isLt; omega⟩
    some (restore (items.swap i last).pop i)

/-- No element outranks its parent. -/
def IsOrdered (items : Array Proposal) : Prop :=
  ∀ i j (hi : i < items.size) (hj : j < items.size), 0 < i → j = (i - 1) / 2 →
    items[i].outranks items[j] = false

end Heap

/-- The live proposals, and the number of the next one. -/
structure ProposalHeap where
  items : Array Proposal := #[]
  nextId : Nat := 0
  deriving DecidableEq, Repr

namespace ProposalHeap

def proposed (route : String) (priority : Int) : Log.Event where
  level := .debug
  part := ["routing", "index"]
  message := "Index page proposed"
  fields := [("route", route), ("priority", toString priority)]

def withdrawn (id : Nat) : Log.Event where
  level := .debug
  part := ["routing", "index"]
  message := "Index page proposal revoked"
  fields := [("proposal", toString id)]

/-- With one more proposal, whose number is the old `nextId`. -/
def propose (h : ProposalHeap) (route : String) (priority : Int) : ProposalHeap where
  items := Heap.push h.items ⟨h.nextId, priority, route⟩
  nextId := h.nextId + 1

/-- Without the proposal `id`, if it is live. -/
def withdraw (h : ProposalHeap) (id : Nat) : Option ProposalHeap :=
  (Heap.remove h.items id).map fun items => { h with items }

/-- The winning route, if any proposal is live. -/
def winner (h : ProposalHeap) : Option String := h.items[0]?.map Proposal.route

/-- The live proposals, best first. -/
def ranking (h : ProposalHeap) : List Proposal :=
  h.items.toList.mergeSort fun p q => !q.outranks p

def clear (h : ProposalHeap) : ProposalHeap := { h with items := #[] }

def size (h : ProposalHeap) : Nat := h.items.size

/-! ## Holders -/

/-- Propose a page and hand out the right to withdraw it. -/
def grant (h : ProposalHeap) (route : String) (priority : Int) :
    Journaled (ProposalHeap × Handle) := do
  Journal.note (proposed route priority)
  return (h.propose route priority, { number := h.nextId })

/-- Use a handle: its proposal is withdrawn unless the handle was used before or the proposal is
gone. -/
def revoke (h : ProposalHeap) (k : Handle) : Journaled (ProposalHeap × Handle) := do
  if k.revoked then return (h, k)
  match h.withdraw k.number with
  | none => return (h, k.used)
  | some h' =>
    Journal.note (withdrawn k.number)
    return (h', k.used)

end ProposalHeap

end AppHost
