import AppHost.Proofs.Serve.Cut

/-!
# Whose report it is

The number of a report tells the attempt that makes it, but the published state does not look at it:
any report counts that finds an attempt starting. So the state says of the attempt in progress that
it runs if every attempt keeps its reports to itself, as in runs that are left alone
(`running_by_own_report`), and a report from an attempt that is long over may say so in the place of
the one in progress (`leftover_counts`).
-/

namespace AppHost

/-- The attempt in progress after the happening, from the one before it. When the loop publishes a
state, an attempt is over or has not been called yet. -/
def Happening.attempt (cur : Option Nat) : Happening → Option Nat
  | starts n => some n
  | enters _ => none
  | _ => cur

/-! ## Traces -/

namespace Trace

variable {cur : Option Nat} {a b tr : Trace} {n t : Nat}

/-- The attempt in progress after the trace, if `cur` is the one before it. -/
def attempt (cur : Option Nat) (tr : Trace) : Option Nat :=
  tr.foldl (fun cur h => h.2.attempt cur) cur

/-- Every report in the trace comes from the attempt in progress. -/
def Own : Option Nat → Trace → Prop
  | _, [] => True
  | cur, h :: tr => (∀ n, h.2 = .ready n → cur = some n) ∧ Own (h.2.attempt cur) tr

theorem own_append : Own cur (a ++ b) ↔ Own cur a ∧ Own (attempt cur a) b := by
  induction a generalizing cur with
  | nil => exact (true_and _).symm.to_iff
  | cons h a ih => rw [List.cons_append, Own, Own, ih, and_assoc]; rfl

theorem Own.attempt_eq (h : Own cur (a ++ (t, .ready n) :: b)) : attempt cur a = some n :=
  (own_append.mp h).2.1 n rfl

/-- The loop itself reports nothing. -/
theorem own_of_ofLoop (h : ∀ x ∈ tr, x.2.ofLoop = true) (cur : Option Nat) : Own cur tr := by
  induction tr generalizing cur with
  | nil => trivial
  | cons x tr ih =>
    refine ⟨fun n hn => ?_, ih (fun y hy => h y (List.mem_cons_of_mem _ hy)) _⟩
    have hloop := h x List.mem_cons_self
    rw [hn] at hloop
    cases hloop

/-- What attempt number `n` does, it does as that attempt. -/
theorem own_of_acts (h : ∀ x ∈ tr, (∃ y : Act, x.2 = y.happening n) ∨ ∃ e, x.2 = .logs e) :
    Own (some n) tr := by
  induction tr with
  | nil => trivial
  | cons x tr ih =>
    have hrest := ih fun y hy => h y (List.mem_cons_of_mem _ hy)
    rw [Own]
    rcases h x List.mem_cons_self with ⟨y, hy⟩ | ⟨e, he⟩
    · rw [hy]
      cases y with
      | ready => exact ⟨fun k hk => congrArg some (Happening.ready.inj hk), hrest⟩
      | _ => exact ⟨fun k hk => (by cases hk), hrest⟩
    · rw [he]
      exact ⟨fun k hk => (by cases hk), hrest⟩

end Trace

/-! ## Runs -/

namespace ServePlan

open Trace

variable {p : ServePlan} {s : ServePoint}

theorem own_attemptFrom (play : Play) (c : Closure) (cur : Option Nat) :
    Own cur (p.attemptFrom s play c) :=
  ⟨fun _ h => (by cases h), fun _ h => (by cases h), own_of_acts fun _ => act_or_log_of_mem⟩

theorem own_lap {l : Lap} (h : p.lap s = .ok l) (cur : Option Nat) : Own cur l.trace := by
  rcases trace_of_lap h with hpast | ⟨c, tail, -, htrace, hloop, -⟩
  · rw [hpast]
    exact ⟨fun _ h => (by cases h), trivial⟩
  · rw [htrace]
    exact own_append.mpr ⟨own_attemptFrom _ c cur, own_of_ofLoop hloop _⟩

theorem own_broken (cur : Option Nat) : Own cur (p.broken s) := by
  unfold broken
  dsimp only
  split
  · refine ⟨fun _ h => (by cases h), fun _ h => (by cases h), own_of_acts fun x hx => ?_⟩
    obtain ⟨y, -, rfl⟩ := List.mem_map.mp hx
    exact .inl ⟨y.2, rfl⟩
  · exact own_append.mpr ⟨own_attemptFrom _ _ cur, fun _ h => (by cases h), trivial⟩

/-- In a run that is left alone every attempt keeps its reports to itself. -/
theorem own_story (fuel : Nat) (s : ServePoint) (cur : Option Nat) : Own cur (p.story fuel s) := by
  induction fuel generalizing s cur with
  | zero => trivial
  | succ fuel ih =>
    rw [story]
    cases hlap : p.lap s with
    | error e => exact own_broken cur
    | ok l =>
      cases l with
      | ends r => exact own_lap hlap cur
      | again tr s' => exact own_append.mpr ⟨own_lap hlap cur, ih s' _⟩

theorem own_runs {fuel n : Nat} {rs : List ServeRun} (h : p.runs fuel n s = .ok rs)
    (cur : Option Nat) : Own cur (rs.flatMap ServeRun.trace) := by
  induction n generalizing p s rs cur with
  | zero =>
    cases h
    trivial
  | succ n ih =>
    obtain ⟨r, rs', hr, hrs, rfl⟩ := runs_succ_eq_ok h
    rw [List.flatMap_cons, ← story_of_runFrom hr]
    exact own_append.mpr ⟨own_story fuel _ cur, ih hrs _⟩

end ServePlan

/-! ## Stages -/

namespace Stage

open Trace

variable {g g' : Stage} {e : Happening} {cur : Option Nat} {tr : Trace}

def isServing : Stage → Bool
  | serving _ => true
  | _ => false

/-- At a stage of serving, and at no other, an attempt is in progress. -/
theorem Step.isSome_attempt (h : Step g e g') (hcur : cur.isSome = g.isServing) :
    (e.attempt cur).isSome = g'.isServing := by
  cases h with
  | turn h =>
    cases h with
    | reports n hg => cases g <;> exact hcur
    | notes hg he => cases e <;> first | exact hcur | cases he
    | _ => rfl
  | _ => rfl

theorem Path.isSome_attempt (h : Path Step g tr g') (hcur : cur.isSome = g.isServing) :
    (attempt cur tr).isSome = g'.isServing := by
  induction h generalizing cur with
  | refl g => exact hcur
  | step hs _ ih => exact ih (hs.isSome_attempt hcur)

end Stage

/-! ## What the state says -/

namespace ServePlan

open Stage Trace

variable {p : ServePlan} {fuel : Nat} {s : ServePoint} {past tr a b : Trace} {t : Nat}
  {e : Happening}

/-- Up to any instant of a history there is a stage at which it stands, and which tells whether an
attempt is in progress. -/
theorem stage_of_prefix (hpast : Lived past) (htr : Strays (p.story fuel s) tr)
    (hab : past ++ tr = a ++ b) : ∃ g g', Path Step idle a g ∧ Path Step g b g' ∧
      (attempt none a).isSome = g.isServing := by
  obtain ⟨g0, hbefore, hg0⟩ := hpast.path
  obtain ⟨g', hrun, -⟩ := path_run hg0 htr
  obtain ⟨g, ha, hb⟩ := (hab ▸ hbefore.trans hrun).of_append
  exact ⟨g, g', ha, hb, ha.isSome_attempt rfl⟩

/-- When the state comes to say that an attempt runs, one is in progress and has been starting, and
some attempt reports. -/
theorem running_reported (hpast : Lived past) (htr : Strays (p.story fuel s) tr)
    (hab : past ++ tr = a ++ (t, e) :: b) (hup : e.next (a.finalState .idle) = .running)
    (hne : a.finalState .idle ≠ .running) :
    a.finalState .idle = .starting ∧ ∃ m n, attempt none a = some m ∧ e = .ready n := by
  obtain ⟨g, g', ha, hb, hsome⟩ := stage_of_prefix hpast htr hab
  obtain ⟨g1, hstep, -⟩ := hb.of_cons
  have hg : a.finalState .idle = g.state := ha.finalState_eq
  rw [hg] at hup hne ⊢
  rw [hstep.next_state] at hup
  obtain ⟨rfl, n, rfl⟩ := hstep.eq_ready hup hne
  obtain ⟨m, hm⟩ := Option.isSome_iff_exists.mp hsome
  exact ⟨rfl, m, n, hm, rfl⟩

/-- **The state says of the right attempt that it runs if and only if no other attempt reports while
one is starting.** Reports at any other time make no difference, whoever makes them. -/
theorem running_by_own_report_iff (hpast : Lived past) (htr : Strays (p.story fuel s) tr) :
    (∀ (a : Trace) t e b, past ++ tr = a ++ (t, e) :: b →
      e.next (a.finalState .idle) = .running → a.finalState .idle ≠ .running →
        ∃ m, attempt none a = some m ∧ e = .ready m) ↔
    ∀ (a : Trace) t n b, past ++ tr = a ++ (t, .ready n) :: b →
      a.finalState .idle = .starting → attempt none a = some n := by
  constructor
  · intro h a t n b hab hstart
    obtain ⟨m, hm, hn⟩ := h a t _ b hab (by rw [hstart]; rfl) (by rw [hstart]; decide)
    cases hn
    exact hm
  · intro h a t e b hab hup hne
    obtain ⟨hstart, m, n, -, rfl⟩ := running_reported hpast htr hab hup hne
    exact ⟨n, h a t n b hab hstart, rfl⟩

/-- **Attempts that keep their reports to themselves speak for themselves alone,** over any runs in
a row and one more, which may still be in progress, hang or break down: the state comes to say that
an attempt runs by the report of the attempt in progress. -/
theorem running_by_own_report {q : ServePlan} {n fuel' : Nat} {s' : ServePoint} {rs : List ServeRun}
    (h : q.runs fuel' n s' = .ok rs)
    (hab : rs.flatMap ServeRun.trace ++ p.story fuel s = a ++ (t, e) :: b)
    (hup : e.next (a.finalState .idle) = .running) (hne : a.finalState .idle ≠ .running) :
    ∃ m, attempt none a = some m ∧ e = .ready m := by
  have hown : Own none (rs.flatMap ServeRun.trace ++ p.story fuel s) :=
    own_append.mpr ⟨own_runs h none, own_story fuel s _⟩
  have hpast : Lived (rs.flatMap ServeRun.trace) := Lived.of_runs .new h
  obtain ⟨-, m, k, -, rfl⟩ := running_reported hpast .none hab hup hne
  exact ⟨k, (hab ▸ hown).attempt_eq, rfl⟩

/-- **A leftover report counts for the attempt in progress.** Whenever that one is starting, a
report of any attempt whatever may come next and makes the state say that it runs. -/
theorem leftover_counts {x : Nat × Happening} (hpast : Lived past)
    (htr : Strays (p.story fuel s) (a ++ x :: b)) (hx : x.2 ≠ .enters .starting)
    (hstart : (past ++ (a ++ [x])).finalState .idle = .starting) (t n : Nat) :
    Strays (p.story fuel s) (a ++ x :: (t, .ready n) :: b) ∧
      (past ++ (a ++ [x, (t, .ready n)])).finalState .idle = .running ∧
      ∃ m, attempt none (past ++ (a ++ [x])) = some m := by
  have hab : past ++ (a ++ x :: (t, .ready n) :: b) =
      (past ++ (a ++ [x])) ++ (t, .ready n) :: b := by
    simp only [List.append_assoc, List.cons_append, List.nil_append]
  have hstray : Strays (p.story fuel s) (a ++ x :: (t, .ready n) :: b) := .report t n htr hx
  have hrun : (past ++ (a ++ [x, (t, .ready n)])).finalState .idle = .running := by
    have hsplit : past ++ (a ++ [x, (t, .ready n)]) = (past ++ (a ++ [x])) ++ [(t, .ready n)] := by
      simp only [List.append_assoc, List.cons_append, List.nil_append]
    rw [hsplit, finalState_append, hstart]
    rfl
  obtain ⟨-, m, k, hm, -⟩ := running_reported hpast hstray hab (by rw [hstart]; rfl)
    (by rw [hstart]; decide)
  exact ⟨hstray, hrun, m, hm⟩

/-- Attempt number 0 fails and reports later on, and the state says of number 1 that it runs. -/
theorem leftover_counts_after_failure :
    let p : ServePlan := {
      policy := { backoff := .fixed (.ofSecs 1) }
      attempts := fun n =>
        if n = 0 then { ending := some (1, .error (.broken (.other "listener died"))) } else {} }
    let before : Trace := p.story 2 {}
    let tr : Trace := before ++ [(1500, Happening.ready 0)]
    before.getLast? = some (1001, .starts 1) ∧ Strays (p.story 2 {}) tr ∧
      (before.finalState .idle = .starting ∧ attempt none before = some 1) ∧
      tr.finalState .idle = .running := by
  intro p before tr
  have hstart : before.finalState .idle = .starting := by decide +kernel
  have hattempt : attempt none before = some 1 := by decide +kernel
  obtain ⟨lead, hlead⟩ : ∃ lead, before = lead ++ [(1001, .starts 1)] :=
    ⟨before.take 7, by decide +kernel⟩
  have hnone : Strays (p.story 2 {}) before := .none
  clear_value before
  subst hlead
  obtain ⟨htr, hrun, -⟩ := leftover_counts .new hnone (by decide) hstart 1500 0
  have hsplit : tr = lead ++ [(1001, .starts 1), (1500, .ready 0)] := List.append_assoc _ _ _
  exact ⟨List.getLast?_concat, hsplit ▸ htr, ⟨hstart, hattempt⟩, hsplit ▸ hrun⟩

end ServePlan

end AppHost
