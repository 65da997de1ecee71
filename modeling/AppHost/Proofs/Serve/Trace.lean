import AppHost.Proofs.Journal
import AppHost.Serve.Loop

/-!
# Calls and restarts

What a trace tells about the serve loop: when it made which attempt, and how many restarts it
counted. An attempt in itself makes no others, and counts no restart.
-/

namespace AppHost

/-- The loop makes an attempt or counts a restart, or it reports that an attempt has failed. -/
def Happening.goesOn : Happening → Bool
  | starts _ => true
  | restarts => true
  | enters .crashed => true
  | enters .retrying => true
  | enters .failed => true
  | _ => false

namespace Trace

/-- The state that is entered last is the one that stays. -/
theorem finalState_enters (s : ServeState) (tr : Trace) (t : Nat) (s' : ServeState) :
    finalState s (tr ++ [(t, .enters s')]) = s' := by
  rw [finalState_append]
  rfl

/-- The attempts that the loop makes, each with its time. -/
def calls (tr : Trace) : List (Nat × Nat) :=
  tr.filterMap fun h =>
    match h.2 with
    | .starts n => some (h.1, n)
    | _ => none

/-- How many restarts the loop counts. -/
def restarts (tr : Trace) : Nat := tr.countP fun h => h.2 = .restarts

@[simp] theorem calls_append (a b : Trace) : calls (a ++ b) = a.calls ++ b.calls :=
  List.filterMap_append

@[simp] theorem restarts_append (a b : Trace) : restarts (a ++ b) = a.restarts + b.restarts :=
  List.countP_append

/-- The counter for restarts grows by those in the trace. -/
theorem restarts_journal (s : ServeState) (tr : Trace) (j : Journal) :
    ((journal s tr).rest j).metrics.restarts = j.metrics.restarts + tr.restarts := by
  induction tr generalizing s j with
  | nil => rfl
  | cons h tr ih =>
    obtain ⟨t, h⟩ := h
    have hone : ((h.journal s).rest j).metrics.restarts =
        j.metrics.restarts + if h = .restarts then 1 else 0 := by
      simp only [Happening.journal, Journaled.rest_bind]
      split <;> rfl
    simp only [journal, Journaled.rest_bind, ih, hone, restarts, List.countP_cons]
    by_cases hh : h = .restarts
    · simp only [hh, if_true, decide_true]
      omega
    · simp only [hh, if_false, decide_false, Bool.false_eq_true]
      omega

/-- What does not go on makes no attempt and counts no restart. -/
theorem calls_of_quiet {tr : Trace} (h : ∀ x ∈ tr, x.2.goesOn = false) :
    tr.calls = [] ∧ tr.restarts = 0 := by
  constructor
  · rw [calls, List.filterMap_eq_nil_iff]
    intro x hx
    split
    · rename_i k hk
      have hquiet := h x hx
      rw [hk] at hquiet
      cases hquiet
    · rfl
  · rw [restarts, List.countP_eq_zero]
    intro x hx hr
    have hquiet := h x hx
    rw [of_decide_eq_true hr] at hquiet
    cases hquiet

end Trace

namespace ServePlan

variable {p : ServePlan} {s : ServePoint}

/-- Between its call and its end there are the acts of an attempt, and log events. -/
theorem act_or_log_of_mem {n : Nat} {a : Attempt} {play : Play} {c : Closure} {h : Nat × Happening}
    (hh : h ∈ p.attemptTrace n a play c) :
    (∃ x : Act, h.2 = x.happening n) ∨ ∃ e, h.2 = .logs e := by
  cases c with
  | returns time result woken =>
    rcases List.mem_append.mp hh with hh | hh
    · obtain ⟨x, -, rfl⟩ := List.mem_map.mp hh
      exact .inl ⟨x.2, rfl⟩
    · obtain ⟨x, -, rfl⟩ := List.mem_map.mp hh
      exact .inl ⟨x, rfl⟩
  | isCut time =>
    rcases List.mem_append.mp hh with hh | hh
    · obtain ⟨x, -, rfl⟩ := List.mem_map.mp hh
      exact .inl ⟨x.2, rfl⟩
    · rw [List.mem_singleton.mp hh]
      exact .inr ⟨p.tooSlow, rfl⟩

theorem goesOn_attemptTrace {n : Nat} {a : Attempt} {play : Play} {c : Closure}
    {h : Nat × Happening} (hh : h ∈ p.attemptTrace n a play c) : h.2.goesOn = false := by
  rcases act_or_log_of_mem hh with ⟨x, hx⟩ | ⟨e, he⟩
  · rw [hx]
    cases x <;> rfl
  · rw [he]
    rfl

@[simp] theorem calls_attemptFrom (play : Play) (c : Closure) :
    (p.attemptFrom s play c).calls = [(s.now, s.next)] := by
  rw [attemptFrom, Trace.calls_append, (Trace.calls_of_quiet fun _ => goesOn_attemptTrace).1]
  rfl

@[simp] theorem restarts_attemptFrom (play : Play) (c : Closure) :
    (p.attemptFrom s play c).restarts = 0 := by
  rw [attemptFrom, Trace.restarts_append, (Trace.calls_of_quiet fun _ => goesOn_attemptTrace).2]
  rfl

@[simp] theorem calls_setback (time : Nat) (f : ServeFailure) (attempt up : Nat) :
    (p.setback time f attempt up).calls = [] := rfl

@[simp] theorem restarts_setback (time : Nat) (f : ServeFailure) (attempt up : Nat) :
    (p.setback time f attempt up).restarts = 1 := rfl

end ServePlan

end AppHost
