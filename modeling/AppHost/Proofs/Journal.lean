import AppHost.Journal

/-!
# Computations that write to a journal

A computation with a journal yields a value and leaves a journal. Nothing reads the journal back,
but the journal at the end depends on the one at the beginning.
-/

namespace AppHost

namespace Journaled

variable {α β : Type}

/-- What a computation yields that is begun with the journal `j`. -/
def value (x : Journaled α) (j : Journal) : α := (x.run j).run.1

/-- The journal that it leaves. -/
def rest (x : Journaled α) (j : Journal) : Journal := (x.run j).run.2

@[simp] theorem value_pure (a : α) (j : Journal) : value (pure a) j = a := rfl

@[simp] theorem rest_pure (a : α) (j : Journal) : rest (pure a) j = j := rfl

@[simp] theorem value_bind (x : Journaled α) (f : α → Journaled β) (j : Journal) :
    value (x >>= f) j = value (f (value x j)) (rest x j) := rfl

@[simp] theorem rest_bind (x : Journaled α) (f : α → Journaled β) (j : Journal) :
    rest (x >>= f) j = rest (f (value x j)) (rest x j) := rfl

end Journaled

end AppHost
