import AppHost.Proofs.Serve.Trace

/-!
# The stages of serving

The published state does not tell whether an attempt that is starting has been called. A `Stage`
does, and with it each happening leads from one stage to the next: `Turn` says how during a run,
and `Step` also how a run begins. What holds of every step then holds along every `Path`, and so of
every trace that is one.
-/

namespace AppHost

namespace ServeState

/-- The states in which no run is in progress. -/
def atRest : ServeState → Bool
  | idle => true
  | stopped => true
  | failed => true
  | _ => false

/-- The changes of state that may be published. -/
def leads : ServeState → ServeState → Bool
  | idle, starting => true
  | stopped, starting => true
  | failed, starting => true
  | idle, stopped => true
  | failed, stopped => true
  | starting, running => true
  | starting, stopped => true
  | running, stopped => true
  | starting, crashed => true
  | running, crashed => true
  | crashed, retrying => true
  | crashed, failed => true
  | retrying, starting => true
  | retrying, stopped => true
  | _, _ => false

theorem leads_starting_of_atRest {s : ServeState} (h : s.atRest = true) :
    s.leads starting = true := by
  cases s <;> first | rfl | cases h

theorem leads_stopped_of_atRest {s : ServeState} (h : s.atRest = true) (hne : stopped ≠ s) :
    s.leads stopped = true := by
  cases s <;> first | exact absurd rfl hne | rfl | cases h

end ServeState

namespace Happening

/-- What is neither a state, a call nor a report. -/
def isNote : Happening → Bool
  | listens _ => true
  | restarts => true
  | logs _ => true
  | _ => false

theorem next_of_isNote {h : Happening} (hh : h.isNote = true) (s : ServeState) : h.next s = s := by
  cases h <;> first | rfl | cases hh

end Happening

/-- Where a lifecycle stands. -/
inductive Stage where
  | idle
  /-- The attempt is announced, and not called yet. -/
  | calling
  /-- An attempt is in progress, and whether the state says that it runs. -/
  | serving (up : Bool)
  | crashed
  | retrying
  | stopped
  | failed
  deriving DecidableEq, Repr

namespace Stage

def state : Stage → ServeState
  | idle => .idle
  | calling => .starting
  | serving false => .starting
  | serving true => .running
  | crashed => .crashed
  | retrying => .retrying
  | stopped => .stopped
  | failed => .failed

/-- The stage after a report that an attempt accepts connections. -/
def report : Stage → Stage
  | serving _ => serving true
  | g => g

@[simp] theorem report_report (g : Stage) : g.report.report = g.report := by cases g <;> rfl

theorem serving_ne_calling (up : Bool) : serving up ≠ calling := fun h => by cases h

theorem report_eq_calling {g : Stage} : g.report = calling ↔ g = calling := by
  cases g <;> simp [report]

theorem state_report {g : Stage} (hg : g ≠ calling) : g.report.state = g.state.markRunning := by
  cases g with
  | serving up => cases up <;> rfl
  | calling => exact absurd rfl hg
  | _ => rfl

/-- A report makes a difference to an attempt that is starting and to nothing else. -/
theorem eq_serving_of_report {g : Stage} (hne : g.report.state ≠ g.state) : g = serving false := by
  cases g with
  | serving up =>
    cases up with
    | false => rfl
    | true => exact absurd rfl hne
  | _ => exact absurd rfl hne

/-- A lifecycle at rest takes no notice of reports. -/
theorem report_of_atRest {g : Stage} (hg : g.state.atRest = true) : g.report = g := by
  cases g with
  | serving up => cases up <;> cases hg
  | _ => rfl

/-! ## Steps -/

/-- What happens during a run. An attempt that has been announced is called before anything else
happens; reports may come from attempts that are long over. -/
inductive Turn : Stage → Happening → Stage → Prop where
  | calls (n : Nat) : Turn calling (.starts n) (serving false)
  | reports {g : Stage} (n : Nat) : g ≠ calling → Turn g (.ready n) g.report
  | notes {g : Stage} {h : Happening} : g ≠ calling → h.isNote = true → Turn g h g
  | stops (up : Bool) : Turn (serving up) (.enters .stopped) stopped
  | crashes (up : Bool) : Turn (serving up) (.enters .crashed) crashed
  | givesUp : Turn crashed (.enters .failed) failed
  | pauses : Turn crashed (.enters .retrying) retrying
  | goesOn : Turn retrying (.enters .starting) calling
  | breaksOff : Turn retrying (.enters .stopped) stopped

/-- What happens to a lifecycle: a run begins, and makes an attempt or declines to, or it goes
on. -/
inductive Step : Stage → Happening → Stage → Prop where
  | turn {g g' : Stage} {h : Happening} : Turn g h g' → Step g h g'
  | begins {g : Stage} : g.state.atRest = true → Step g (.enters .starting) calling
  | declines {g : Stage} : g.state.atRest = true → Step g (.enters .stopped) stopped

variable {g g' g'' : Stage} {e : Happening}

theorem Turn.next_state (h : Turn g e g') : e.next g.state = g'.state := by
  cases h with
  | reports n hg => exact (state_report hg).symm
  | notes hg he => exact Happening.next_of_isNote he _
  | _ => rfl

theorem Step.next_state (h : Step g e g') : e.next g.state = g'.state := by
  cases h with
  | turn h => exact h.next_state
  | _ => rfl

/-- Only a run that begins leaves a state of rest. -/
theorem Turn.atRest_eq_false (h : Turn g e g') (hne : g'.state ≠ g.state) :
    g.state.atRest = false := by
  cases h with
  | reports n hg =>
    obtain rfl := eq_serving_of_report hne
    rfl
  | notes hg he => exact absurd rfl hne
  | stops up => cases up <;> rfl
  | crashes up => cases up <;> rfl
  | _ => rfl

theorem Turn.leads (h : Turn g e g') (hne : g'.state ≠ g.state) :
    g.state.leads g'.state = true := by
  cases h with
  | calls n => exact absurd rfl hne
  | reports n hg =>
    obtain rfl := eq_serving_of_report hne
    rfl
  | notes hg he => exact absurd rfl hne
  | stops up => cases up <;> rfl
  | crashes up => cases up <;> rfl
  | _ => rfl

theorem Step.leads (h : Step g e g') (hne : g'.state ≠ g.state) :
    g.state.leads g'.state = true := by
  cases h with
  | turn h => exact h.leads hne
  | begins hg => exact ServeState.leads_starting_of_atRest hg
  | declines hg => exact ServeState.leads_stopped_of_atRest hg hne

/-- A run begins as it goes on after a pause. -/
theorem Turn.step_of_atRest {st : ServeState} (h : Turn retrying (.enters st) g')
    (hg : g.state.atRest = true) : Step g (.enters st) g' := by
  cases h with
  | notes _ he => cases he
  | goesOn => exact .begins hg
  | breaksOff => exact .declines hg

/-- Nothing but a report in an attempt that is starting makes the state say that it runs. -/
theorem Step.eq_ready (h : Step g e g') (hup : g'.state = .running) (hne : g.state ≠ .running) :
    g = serving false ∧ ∃ n, e = .ready n := by
  cases h with
  | turn h =>
    cases h with
    | reports n hg => exact ⟨eq_serving_of_report fun h => hne (h ▸ hup), n, rfl⟩
    | notes hg he => exact absurd hup hne
    | _ => cases hup
  | _ => cases hup

theorem Step.eq_calling {n : Nat} (h : Step g (.starts n) g') : g = calling := by
  cases h with
  | turn h =>
    cases h with
    | calls n => rfl
    | notes hg he => cases he

/-- How many more times the state may come to say that an attempt runs, before another one is
called. -/
def chances : Stage → Nat
  | serving false => 1
  | _ => 0

theorem chances_le_one (g : Stage) : g.chances ≤ 1 := by
  cases g with
  | serving up => cases up <;> decide
  | _ => decide

theorem Step.chances_le (h : Step g e g') (he : ∀ n, e ≠ .starts n) :
    (if g'.state ≠ g.state ∧ g'.state = .running then 1 else 0) + g'.chances ≤ g.chances := by
  have hdown : g'.state ≠ .running → g'.chances = 0 →
      (if g'.state ≠ g.state ∧ g'.state = .running then 1 else 0) + g'.chances ≤ g.chances := by
    intro hne hg'
    rw [if_neg fun hup => hne hup.2, hg']
    exact Nat.zero_le _
  cases h with
  | turn h =>
    cases h with
    | calls n => exact absurd rfl (he n)
    | @reports g n hg =>
      cases g with
      | serving up => cases up <;> decide
      | _ => decide
    | notes hg hnote =>
      rw [if_neg fun hup => hup.1 rfl]
      exact Nat.le_of_eq (Nat.zero_add _)
    | _ => exact hdown (by decide) rfl
  | _ => exact hdown (by decide) rfl

/-- Only the announcement of an attempt makes it the next thing to call it. -/
theorem Turn.eq_enters (h : Turn g e calling) : e = .enters .starting := by
  generalize hg' : calling = g' at h
  cases h with
  | reports n hg => exact absurd (report_eq_calling.mp hg'.symm) hg
  | notes hg he => exact absurd hg'.symm hg
  | goesOn => rfl
  | _ => cases hg'

/-- A report earlier on makes no difference but that the attempt may run already. -/
theorem Turn.after_report (h : Turn g e g') :
    ∃ g'', Turn g.report e g'' ∧ (g'' = g' ∨ g'' = g'.report) := by
  cases h with
  | calls n => exact ⟨_, .calls n, .inl rfl⟩
  | @reports g n hg =>
    exact ⟨_, .reports n (mt report_eq_calling.mp hg), .inl (report_report g)⟩
  | notes hg he => exact ⟨_, .notes (mt report_eq_calling.mp hg) he, .inr rfl⟩
  | stops up => exact ⟨_, .stops true, .inl rfl⟩
  | crashes up => exact ⟨_, .crashes true, .inl rfl⟩
  | givesUp => exact ⟨_, .givesUp, .inl rfl⟩
  | pauses => exact ⟨_, .pauses, .inl rfl⟩
  | goesOn => exact ⟨_, .goesOn, .inl rfl⟩
  | breaksOff => exact ⟨_, .breaksOff, .inl rfl⟩

/-! ## Paths -/

/-- The trace leads from one stage to another by steps of the kind `R`. -/
inductive Path (R : Stage → Happening → Stage → Prop) : Stage → Trace → Stage → Prop where
  | refl (g : Stage) : Path R g [] g
  | step {g g' g'' : Stage} {t : Nat} {e : Happening} {tr : Trace} : R g e g' → Path R g' tr g'' →
    Path R g ((t, e) :: tr) g''

namespace Path

variable {R R' : Stage → Happening → Stage → Prop} {a b tr : Trace} {t : Nat}

theorem single (h : R g e g') : Path R g [(t, e)] g' := .step h (.refl g')

theorem mono (hR : ∀ {g e g'}, R g e g' → R' g e g') (h : Path R g tr g') : Path R' g tr g' := by
  induction h with
  | refl g => exact .refl g
  | step hs _ ih => exact .step (hR hs) ih

theorem trans (h : Path R g a g') (h' : Path R g' b g'') : Path R g (a ++ b) g'' := by
  induction h with
  | refl g => exact h'
  | step hs _ ih => exact .step hs (ih h')

theorem of_append (h : Path R g (a ++ b) g'') : ∃ g', Path R g a g' ∧ Path R g' b g'' := by
  induction a generalizing g with
  | nil => exact ⟨g, .refl g, h⟩
  | cons x a ih =>
    cases h with
    | step hs h =>
      obtain ⟨g', h1, h2⟩ := ih h
      exact ⟨g', .step hs h1, h2⟩

theorem of_cons {x : Nat × Happening} (h : Path R g (x :: tr) g'') :
    ∃ g', R g x.2 g' ∧ Path R g' tr g'' := by
  cases h with
  | step hs h => exact ⟨_, hs, h⟩

/-- What every step that changes the state tells of that change is true of all changes. -/
theorem forall_changes {P : ServeState → ServeState → Prop}
    (hnext : ∀ {g e g'}, R g e g' → e.next g.state = g'.state)
    (hP : ∀ {g e g'}, R g e g' → g'.state ≠ g.state → P g.state g'.state) (h : Path R g tr g') :
    ∀ c ∈ tr.changes g.state, P c.2.1 c.2.2 := by
  induction h with
  | refl g => exact fun c hc => absurd hc List.not_mem_nil
  | step hs _ ih =>
    intro c hc
    simp only [Trace.changes, hnext hs] at hc
    split at hc
    · exact ih c hc
    · rename_i hne
      rcases List.mem_cons.mp hc with rfl | hc
      · exact hP hs hne
      · exact ih c hc

theorem finalState_eq (h : Path Step g tr g') : tr.finalState g.state = g'.state := by
  induction h with
  | refl g => rfl
  | step hs _ ih => rw [← ih, ← hs.next_state, Trace.finalState, List.foldl_cons, Trace.finalState]

/-- Attempts are called while the state says that one is starting. -/
theorem state_of_mem_starts (h : Path Step g tr g') :
    ∀ c ∈ tr.starts g.state, c.2 = .starting := by
  induction h with
  | refl g => exact fun c hc => absurd hc List.not_mem_nil
  | @step g g' g'' t e tr hs _ ih =>
    intro c hc
    cases e with
    | starts n =>
      have hg := hs.eq_calling
      subst hg
      rcases List.mem_cons.mp hc with rfl | hc
      · rfl
      · exact ih c (hs.next_state ▸ hc)
    | _ => exact ih c (hs.next_state ▸ hc)

/-- Between two calls the state comes to say that an attempt runs at most once. -/
theorem countP_running_le (h : Path Step g tr g') (hcalls : tr.calls = []) :
    (tr.changes g.state).countP (fun c => c.2.2 = .running) + g'.chances ≤ g.chances := by
  induction h with
  | refl g => exact Nat.le_of_eq (Nat.zero_add _)
  | @step g g' g'' t e tr hs _ ih =>
    have he : ∀ n, e ≠ .starts n := by
      rintro n rfl
      cases hcalls
    have hrest : tr.calls = [] := by
      cases e with
      | starts n => exact absurd rfl (he n)
      | _ => exact hcalls
    have hstep := hs.chances_le he
    have hpath := ih hrest
    simp only [Trace.changes, hs.next_state]
    split
    · omega
    · rename_i hne
      rw [List.countP_cons]
      by_cases hup : g'.state = .running
      · rw [if_pos ⟨hne, hup⟩] at hstep
        rw [if_pos (decide_eq_true hup)]
        omega
      · rw [if_neg fun h => hup (of_decide_eq_true h)]
        omega

/-- A report that comes in between makes no difference but that an attempt may run already. -/
theorem after_report (h : Path Turn g tr g') :
    ∃ g'', Path Turn g.report tr g'' ∧ (g'' = g' ∨ g'' = g'.report) := by
  induction h with
  | refl g => exact ⟨_, .refl _, .inr rfl⟩
  | @step g g1 g2 t e tr hs h ih =>
    obtain ⟨g1', hs', rfl | rfl⟩ := hs.after_report
    · exact ⟨g2, .step hs' h, .inl rfl⟩
    · obtain ⟨g2', h', hg2'⟩ := ih
      exact ⟨g2', .step hs' h', hg2'⟩

end Path

/-! ## Late reports -/

/-- A trace with reports of any attempts put in between, though not where an attempt has been
announced and is about to be called: the loop does the one after the other without waiting, which
leaves no time to whoever takes turns with it. -/
inductive Strays (tr : Trace) : Trace → Prop where
  | none : Strays tr tr
  | report {a b : Trace} {x : Nat × Happening} (t n : Nat) : Strays tr (a ++ x :: b) →
    x.2 ≠ .enters .starting → Strays tr (a ++ x :: (t, .ready n) :: b)

/-- A report that comes after `x`. -/
theorem Path.insert_report {a b : Trace} {x : Nat × Happening} (h : Path Turn g (a ++ x :: b) g')
    (hx : x.2 ≠ .enters .starting) (t n : Nat) :
    ∃ g'', Path Turn g (a ++ x :: (t, .ready n) :: b) g'' ∧ (g'' = g' ∨ g'' = g'.report) := by
  obtain ⟨g1, h1, h⟩ := h.of_append
  obtain ⟨g2, hs, h2⟩ := h.of_cons
  have hg2 : g2 ≠ calling := by
    rintro rfl
    exact hx hs.eq_enters
  obtain ⟨g'', h'', hg''⟩ := h2.after_report
  exact ⟨g'', h1.trans (.step hs (.step (.reports n hg2) h'')), hg''⟩

namespace Strays

variable {tr tr' : Trace}

theorem path (h : Strays tr tr') (hp : Path Turn g tr g') :
    ∃ g'', Path Turn g tr' g'' ∧ (g'' = g' ∨ g'' = g'.report) := by
  induction h with
  | none => exact ⟨g', hp, .inl rfl⟩
  | report t n _ hx ih =>
    obtain ⟨g1, h1, hg1⟩ := ih
    obtain ⟨g2, h2, hg2⟩ := h1.insert_report hx t n
    refine ⟨g2, h2, ?_⟩
    rcases hg1 with rfl | rfl
    · exact hg2
    · rw [report_report, or_self] at hg2
      exact .inr hg2

/-- Nothing is put in front. -/
theorem head?_eq (h : Strays tr tr') : tr'.head? = tr.head? := by
  induction h with
  | none => rfl
  | @report a b x t n _ _ ih =>
    rw [← ih]
    cases a <;> rfl

end Strays

end Stage

end AppHost
