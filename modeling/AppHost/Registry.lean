import AppHost.Journal

/-!
# Registries

Entries kept under text identifiers, each identifier at most once. Listings are sorted by code
point, so they do not depend on the order of insertion.
-/

namespace AppHost

structure Registry (α : Type) where
  entries : List (String × α) := []

namespace Registry

variable {α : Type}

def find? (r : Registry α) (id : String) : Option α := r.entries.lookup id

def contains (r : Registry α) (id : String) : Bool := (r.find? id).isSome

/-- Without the entry under `id`. -/
def erase (r : Registry α) (id : String) : Registry α :=
  ⟨r.entries.filter fun e => e.1 != id⟩

/-- With `entry` under `id`, in place of any earlier one. -/
def insert (r : Registry α) (id : String) (entry : α) : Registry α :=
  ⟨(r.erase id).entries ++ [(id, entry)]⟩

def size (r : Registry α) : Nat := r.entries.length

def isEmpty (r : Registry α) : Bool := r.size = 0

/-- All identifiers, sorted. -/
def ids (r : Registry α) : List String :=
  (r.entries.map Prod.fst).mergeSort fun a b => decide (a ≤ b)

def missing (id reason : String) : Log.Event where
  level := .debug
  part := ["registry"]
  message := "Registry lookup failed"
  fields := [("id", id), ("reason", reason)]

/-- The events of looking up `id`: one with `reason` if it is not there. -/
def lookupEvents (r : Registry α) (id reason : String) : List Log.Event :=
  if (r.find? id).isNone then [missing id reason] else []

def lookup (r : Registry α) (id reason : String) : Journaled (Option α) := do
  Journal.notes (r.lookupEvents id reason)
  return r.find? id

theorem find?_erase (r : Registry α) (id key : String) :
    (r.erase id).find? key = if key = id then none else r.find? key := by
  obtain ⟨es⟩ := r
  simp only [erase, find?]
  induction es with
  | nil => simp
  | cons e es ih =>
    obtain ⟨k, v⟩ := e
    rw [List.filter_cons]
    by_cases hk : k = id
    · subst hk
      simp only [bne_self_eq_false, Bool.false_eq_true, if_false]
      rw [ih]
      by_cases h : key = k
      · simp [h]
      · have : (key == k) = false := by simpa using h
        simp [h, List.lookup_cons, this]
    · have : (k != id) = true := by simpa using hk
      rw [if_pos this]
      by_cases h : key = k
      · subst h
        simp [hk]
      · have h' : (key == k) = false := by simpa using h
        simp only [List.lookup_cons, h']
        exact ih

@[simp] theorem find?_insert (r : Registry α) (id key : String) (x : α) :
    (r.insert id x).find? key = if key = id then some x else r.find? key := by
  have he := find?_erase r id key
  simp only [find?, insert] at he ⊢
  rw [List.lookup_append, he]
  by_cases hk : key = id
  · simp [hk]
  · have hb : (key == id) = false := by simpa using hk
    simp [hk, List.lookup_cons, hb]

end Registry

end AppHost
