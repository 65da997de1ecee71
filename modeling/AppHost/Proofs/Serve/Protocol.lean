import AppHost.Proofs.Serve.Lap
import AppHost.Proofs.Serve.Stage

/-!
# The published states

What a serve loop publishes is a path through the stages of serving, over any number of runs and
whether the last of them returns, hangs or breaks down. So every change of state is one of
`ServeState.leads`, and the state in which a run leaves the loop tells its result.
-/

namespace AppHost

namespace ServeRun

/-- Where the run leaves the lifecycle. -/
def stage (r : ServeRun) : Stage :=
  match r.result with
  | .ok _ => .stopped
  | .error _ => .failed

theorem atRest_stage (r : ServeRun) : r.stage.state.atRest = true := by
  unfold stage
  split <;> rfl

theorem result_eq_ok_iff (r : ServeRun) : r.result = .ok () ↔ r.stage.state = .stopped := by
  unfold stage
  cases r.result with
  | ok _ => exact iff_of_true rfl rfl
  | error e => exact iff_of_false (by rintro ⟨⟩) (by rintro ⟨⟩)

theorem result_eq_error_iff (r : ServeRun) :
    (∃ e, r.result = .error e) ↔ r.stage.state = .failed := by
  unfold stage
  cases r.result with
  | ok _ => exact iff_of_false (by rintro ⟨_, ⟨⟩⟩) (by rintro ⟨⟩)
  | error e => exact iff_of_true ⟨e, rfl⟩ rfl

end ServeRun

namespace Lap

def trace : Lap → Trace
  | ends r => r.trace
  | again tr _ => tr

def stage : Lap → Stage
  | ends r => r.stage
  | again _ _ => .retrying

end Lap

namespace ServePlan

open Stage

variable {p : ServePlan} {s : ServePoint} {l : Lap}

/-! ## One lap -/

/-- The state that the loop publishes first. -/
def opening (p : ServePlan) (s : ServePoint) : ServeState :=
  if p.signal.isPast s.now then .stopped else .starting

def opened (p : ServePlan) (s : ServePoint) : Stage :=
  if p.signal.isPast s.now then .stopped else .calling

theorem path_acts {tr : Trace} (h : ∀ x ∈ tr, (∃ n, x.2 = .ready n) ∨ x.2.isNote = true)
    (up : Bool) : ∃ up', Path Turn (serving up) tr (serving up') := by
  induction tr generalizing up with
  | nil => exact ⟨up, .refl _⟩
  | cons x tr ih =>
    obtain ⟨t, e⟩ := x
    have hrest := fun up => ih (fun x hx => h x (List.mem_cons_of_mem _ hx)) up
    rcases h _ List.mem_cons_self with ⟨n, rfl⟩ | hnote
    · obtain ⟨up', hpath⟩ := hrest true
      exact ⟨up', .step (.reports n (serving_ne_calling up)) hpath⟩
    · obtain ⟨up', hpath⟩ := hrest up
      exact ⟨up', .step (.notes (serving_ne_calling up) hnote) hpath⟩

theorem ready_or_isNote (n : Nat) (a : Act) :
    (∃ n', a.happening n = .ready n') ∨ (a.happening n).isNote = true := by
  cases a with
  | ready => exact .inl ⟨n, rfl⟩
  | _ => exact .inr rfl

theorem path_attemptTrace (n : Nat) (a : Attempt) (play : Play) (c : Closure) :
    ∃ up, Path Turn (serving false) (p.attemptTrace n a play c) (serving up) := by
  refine path_acts (fun x hx => ?_) false
  rcases act_or_log_of_mem hx with ⟨y, hy⟩ | ⟨e, he⟩
  · rw [hy]
    exact ready_or_isNote n y
  · rw [he]
    exact .inr rfl

/-- What the loop publishes once an attempt has failed. -/
theorem path_afterFailure {pre : Trace} {f : ServeFailure} {up : Nat}
    (h : p.afterFailure pre f up s = .ok l) :
    ∃ tr, l.trace = pre ++ tr ∧ ∀ b, Path Turn (serving b) tr l.stage := by
  have hsetback : ∀ attempt b, Path Turn (serving b) (p.setback s.now f attempt up) .retrying :=
    fun attempt b => .step (.crashes b) (.step (.notes (by decide) rfl)
      (.step (.notes (by decide) rfl) (.single .pauses)))
  unfold afterFailure at h
  split at h
  · cases h
  · cases h
    exact ⟨_, rfl, fun b => .step (.crashes b) (.single .givesUp)⟩
  · rename_i attempt delay count dice _
    dsimp only at h
    split at h
    · cases h
      exact ⟨_, List.append_assoc _ _ _, fun b => (hsetback attempt b).trans (.single .breaksOff)⟩
    · cases h
      exact ⟨_, rfl, fun b => hsetback attempt b⟩

/-- What the loop publishes once an attempt has ended. -/
theorem path_conclude {pre : Trace} {c : Closure} (h : p.conclude s pre c = .ok l) :
    ∃ tr, l.trace = pre ++ tr ∧ ∀ b, Path Turn (serving b) tr l.stage := by
  obtain ⟨ignoring, hignoring, rfl⟩ | ⟨f, -, hf⟩ := conclude_cases h
  · refine ⟨_, List.append_assoc _ _ _, fun b => .trans ?_ (.single (.stops b))⟩
    rcases hignoring with rfl | ⟨f, -, rfl⟩
    · exact .refl _
    · exact .single (.notes (serving_ne_calling b) rfl)
  · exact path_afterFailure hf

/-- **Every lap is a path,** whatever the attempt does and whenever the signal comes. -/
theorem path_lap (h : p.lap s = .ok l) :
    ∃ tr, l.trace = (s.now, .enters (p.opening s)) :: tr ∧ Path Turn (p.opened s) tr l.stage := by
  unfold lap at h
  unfold opening opened
  split at h
  · rename_i hpast
    cases h
    simp only [hpast, if_true]
    exact ⟨[], rfl, .refl _⟩
  · rename_i hpast
    simp only [hpast, Bool.false_eq_true, if_false]
    dsimp only at h
    split at h
    · cases h
    · rename_i c _
      obtain ⟨up, hattempt⟩ := path_attemptTrace (p := p) s.next (p.attempts s.next)
        ((p.attempts s.next).play s.now p.signal) c
      obtain ⟨tr, htr, hpath⟩ := path_conclude h
      exact ⟨_, htr, (Path.step (.calls s.next) hattempt).trans (hpath up)⟩

/-! ## Runs, and those that do not end -/

/-- What is seen of a lap that does not come to an end: the attempt hangs, or it fails and the
policy breaks down over that. -/
def broken (p : ServePlan) (s : ServePoint) : Trace :=
  let play := (p.attempts s.next).play s.now p.signal
  match p.closure s.now play with
  | none => s.called ++ play.acts.map fun x => (x.1, x.2.happening s.next)
  | some c => p.attemptFrom s play c ++ [(c.time, .enters .crashed)]

theorem path_broken {e : NoEnd} (h : p.lap s = .error e) :
    ∃ tr g, p.broken s = (s.now, .enters (p.opening s)) :: tr ∧ Path Turn (p.opened s) tr g := by
  have hpast : p.signal.isPast s.now = false := by
    refine Bool.eq_false_iff.mpr fun hpast => ?_
    rw [lap, if_pos hpast] at h
    cases h
  unfold broken opening opened
  simp only [hpast, Bool.false_eq_true, if_false]
  split
  · have hacts : ∀ x ∈ ((p.attempts s.next).play s.now p.signal).acts.map
        (fun x => (x.1, x.2.happening s.next)), (∃ n, x.2 = .ready n) ∨ x.2.isNote = true := by
      intro x hx
      obtain ⟨y, -, rfl⟩ := List.mem_map.mp hx
      exact ready_or_isNote s.next y.2
    obtain ⟨up, hpath⟩ := path_acts hacts false
    exact ⟨_, _, rfl, .step (.calls s.next) hpath⟩
  · rename_i c _
    obtain ⟨up, hattempt⟩ := path_attemptTrace (p := p) s.next (p.attempts s.next)
      ((p.attempts s.next).play s.now p.signal) c
    exact ⟨_, _, rfl, .step (.calls s.next) (hattempt.trans (.single (.crashes up)))⟩

/-- What is seen of a run that stands at `s`, over at most `fuel` attempts. -/
def story (p : ServePlan) : Nat → ServePoint → Trace
  | 0, _ => []
  | fuel + 1, s =>
    match p.lap s with
    | .error _ => p.broken s
    | .ok (.ends r) => r.trace
    | .ok (.again tr s') => tr ++ p.story fuel s'

theorem story_of_runFrom {fuel : Nat} {r : ServeRun} (h : p.runFrom fuel s = .ok r) :
    p.story fuel s = r.trace := by
  induction fuel generalizing s r with
  | zero => cases h
  | succ fuel ih =>
    cases hlap : p.lap s with
    | error e =>
      rw [runFrom_of_error hlap] at h
      cases h
    | ok l =>
      cases l with
      | ends r' =>
        rw [runFrom_of_ends hlap] at h
        cases h
        simp only [story, hlap]
      | again tr s' =>
        obtain ⟨r', hr', rfl⟩ := runFrom_of_again hlap h
        simp only [story, hlap, ih hr', ServeRun.after]

theorem turn_opening (p : ServePlan) (s : ServePoint) :
    Turn .retrying (.enters (p.opening s)) (p.opened s) := by
  unfold opening opened
  split
  · exact .breaksOff
  · exact .goesOn

theorem head?_story (fuel : Nat) :
    (p.story (fuel + 1) s).head? = some (s.now, .enters (p.opening s)) := by
  rw [story]
  split
  · rename_i hlap
    obtain ⟨tr, g, htr, -⟩ := path_broken hlap
    rw [htr, List.head?_cons]
  · rename_i hlap
    obtain ⟨tr, htr, -⟩ := path_lap hlap
    exact congrArg List.head? htr
  · rename_i tr' _ hlap
    obtain ⟨tr, (htr : tr' = _), -⟩ := path_lap hlap
    rw [htr, List.cons_append, List.head?_cons]

/-- **A run is a path,** and leaves the lifecycle where its result says. -/
theorem path_story (fuel : Nat) (s : ServePoint) :
    ∃ g, Path Turn .retrying (p.story fuel s) g ∧ ∀ r, p.runFrom fuel s = .ok r → g = r.stage := by
  induction fuel generalizing s with
  | zero => exact ⟨_, .refl _, fun r h => by cases h⟩
  | succ fuel ih =>
    have hopen := p.turn_opening s
    rw [story]
    cases hlap : p.lap s with
    | error e =>
      obtain ⟨tr, g, htr, hpath⟩ := path_broken hlap
      refine ⟨g, htr ▸ .step hopen hpath, fun r h => ?_⟩
      rw [runFrom_of_error hlap] at h
      cases h
    | ok l =>
      obtain ⟨tr, htr, hpath⟩ := path_lap hlap
      have hlap' : Path Turn .retrying l.trace l.stage := htr ▸ .step hopen hpath
      cases l with
      | ends r =>
        refine ⟨_, hlap', fun r' h => ?_⟩
        rw [runFrom_of_ends hlap] at h
        cases h
        rfl
      | again tr' s' =>
        obtain ⟨g, hrest, hg⟩ := ih s'
        refine ⟨g, hlap'.trans hrest, fun r h => ?_⟩
        obtain ⟨r', hr', rfl⟩ := runFrom_of_again hlap h
        exact hg r' hr'

theorem eq_opening_of_strays {fuel : Nat} {x : Nat × Happening} {rest : Trace}
    (h : Strays (p.story fuel s) (x :: rest)) : x = (s.now, .enters (p.opening s)) := by
  have hhead := h.head?_eq
  cases fuel with
  | zero => cases hhead
  | succ fuel =>
    rw [head?_story] at hhead
    exact Option.some.inj hhead

/-- A lifecycle at rest is put to a run, with late reports of any attempts. -/
theorem path_run {g : Stage} (hg : g.state.atRest = true) {fuel : Nat} {tr : Trace}
    (h : Strays (p.story fuel s) tr) : ∃ g', Path Step g tr g' ∧
      (∀ r, p.runFrom fuel s = .ok r → g' = r.stage) ∧
      ∀ x (rest : Trace), tr = x :: rest → x = (s.now, .enters (p.opening s)) ∧
        ∀ c ∈ rest.changes (p.opening s), c.2.1.atRest = false := by
  obtain ⟨g1, hstory, hg1⟩ := path_story fuel s (p := p)
  obtain ⟨g2, hpath, hg2⟩ := h.path hstory
  have hlast : ∀ r, p.runFrom fuel s = .ok r → g2 = r.stage := by
    intro r hr
    have hrest : g1.report = g1 := by
      rw [hg1 r hr]
      exact report_of_atRest r.atRest_stage
    rw [hrest, or_self] at hg2
    rw [hg2, hg1 r hr]
  cases tr with
  | nil =>
    cases fuel with
    | zero => exact ⟨g, .refl g, fun r hr => (by cases hr), fun x rest hx => by cases hx⟩
    | succ fuel =>
      have hhead := h.head?_eq
      rw [head?_story] at hhead
      cases hhead
  | cons x rest =>
    obtain rfl := eq_opening_of_strays h
    obtain ⟨g3, hturn, hrest⟩ := hpath.of_cons
    refine ⟨g2, .step (hturn.step_of_atRest hg) (hrest.mono .turn), hlast, fun x tr hx => ?_⟩
    cases hx
    refine ⟨rfl, ?_⟩
    rw [show p.opening s = g3.state from hturn.next_state]
    exact hrest.forall_changes (P := fun st _ => st.atRest = false) Turn.next_state
      Turn.atRest_eq_false

end ServePlan

/-! ## Lifecycles -/

/-- All that has happened to a lifecycle whose runs have returned. Attempts may also report once
they and their runs are over, though not between the announcement of an attempt and its call. -/
inductive Lived : Trace → Prop where
  | new : Lived []
  | run {past tr : Trace} {p : ServePlan} {fuel : Nat} {s : ServePoint} {r : ServeRun} :
    Lived past → p.run fuel s = .ok r → Stage.Strays r.trace tr → Lived (past ++ tr)
  | report {past : Trace} (t n : Nat) : Lived past → Lived (past ++ [(t, .ready n)])

namespace Lived

open Stage

variable {past : Trace}

theorem path (h : Lived past) : ∃ g, Path Step idle past g ∧ g.state.atRest = true := by
  induction h with
  | new => exact ⟨idle, .refl _, rfl⟩
  | @run past tr p fuel s r _ hr hstrays ih =>
    obtain ⟨g, hpast, hg⟩ := ih
    rw [← ServePlan.story_of_runFrom hr] at hstrays
    obtain ⟨g', hpath, hlast, -⟩ := ServePlan.path_run hg hstrays
    refine ⟨g', hpast.trans hpath, ?_⟩
    rw [hlast r hr]
    exact r.atRest_stage
  | @report past t n _ ih =>
    obtain ⟨g, hpast, hg⟩ := ih
    have hne : g ≠ calling := by
      rintro rfl
      cases hg
    have hlate : Step g (.ready n) g := by
      have hturn := Turn.reports n hne
      rw [report_of_atRest hg] at hturn
      exact .turn hturn
    exact ⟨g, hpast.trans (.single hlate), hg⟩

/-- Runs in a row under one signal. -/
theorem of_runs {p : ServePlan} {fuel n : Nat} {s : ServePoint} {rs : List ServeRun}
    (hpast : Lived past) (h : p.runs fuel n s = .ok rs) :
    Lived (past ++ rs.flatMap ServeRun.trace) := by
  induction n generalizing p s rs past with
  | zero =>
    cases h
    rwa [List.flatMap_nil, List.append_nil]
  | succ n ih =>
    obtain ⟨r, rs', hr, hrs, rfl⟩ := ServePlan.runs_succ_eq_ok h
    rw [List.flatMap_cons, ← List.append_assoc]
    exact ih (.run hpast hr .none) hrs

end Lived

namespace ServePlan

open Stage

/-- Reports make no difference to a lifecycle at rest. -/
theorem changes_of_reports {st : ServeState} (hst : st.atRest = true) {late : Trace}
    (h : ∀ x ∈ late, ∃ n, x.2 = .ready n) : late.changes st = [] := by
  induction late with
  | nil => rfl
  | cons x late ih =>
    obtain ⟨t, e⟩ := x
    obtain ⟨n, rfl⟩ := h _ List.mem_cons_self
    have hmark : st.markRunning = st := by
      cases st <;> first | rfl | cases hst
    simp only [Trace.changes, Happening.next, hmark, if_true]
    exact ih fun x hx => h x (List.mem_cons_of_mem _ hx)

/-- **What a serve loop publishes follows its protocol,** over any runs of any loops, the last of
which may still be in progress, hang or break down, and with reports from attempts that are over, at
any time but one: the loop announces an attempt and calls it without waiting in between, and no
report is taken to come there (`Strays`). Every change of state is one of those that may be
published, and every attempt is called while the state says that it starts. Only a report in that
state makes it say that the attempt runs, and between two calls at most once. A run leaves a state
of rest with its first happening and not again: it declines if the loop was stopped before. It
returns without failure if and only if it leaves the loop stopped, and with one if and only if it
leaves it failed, and reports that come after it change nothing. -/
theorem published_lawfully {past : Trace} (hpast : Lived past) (p : ServePlan) (fuel : Nat)
    (s : ServePoint) {tr : Trace} (htr : Strays (p.story fuel { s with count := 0 }) tr) :
    let whole := past ++ tr
    (∀ c ∈ whole.changes .idle, c.2.1.leads c.2.2 = true) ∧
    (∀ c ∈ whole.starts .idle, c.2 = .starting) ∧
    (∀ (a : Trace) x b, whole = a ++ x :: b → x.2.next (a.finalState .idle) = .running →
      a.finalState .idle ≠ .running →
        a.finalState .idle = .starting ∧ ∃ n, x.2 = .ready n) ∧
    (∀ (a b c : Trace), whole = a ++ b ++ c → b.calls = [] →
      (b.changes (a.finalState .idle)).countP (fun c => c.2.2 = .running) ≤ 1) ∧
    (past.finalState .idle).atRest = true ∧
    (∀ x (rest : Trace), tr = x :: rest →
      x = (s.now, .enters (if p.signal.isPast s.now then .stopped else .starting)) ∧
        ∀ c ∈ rest.changes (x.2.next (past.finalState .idle)), c.2.1.atRest = false) ∧
    ∀ r, p.run fuel s = .ok r →
      (r.result = .ok () ↔ whole.finalState .idle = .stopped) ∧
      ((∃ e, r.result = .error e) ↔ whole.finalState .idle = .failed) ∧
      ∀ late : Trace, (∀ x ∈ late, ∃ n, x.2 = .ready n) →
        late.changes (whole.finalState .idle) = [] := by
  intro whole
  obtain ⟨g, hbefore, hg⟩ := hpast.path
  obtain ⟨g', hrun, hlast, hfirst⟩ := path_run hg htr
  have hwhole : Path Step idle whole g' := hbefore.trans hrun
  have hstate : past.finalState .idle = g.state := hbefore.finalState_eq
  have hstate' : whole.finalState .idle = g'.state := hwhole.finalState_eq
  refine ⟨?_, hwhole.state_of_mem_starts, fun a x b hab hup hne => ?_, fun a b c habc hcalls => ?_,
    hstate ▸ hg, fun x rest hx => ?_, fun r hr => ⟨?_, ?_, fun late hlate => ?_⟩⟩
  · exact hwhole.forall_changes (P := fun st st' => st.leads st' = true) Step.next_state Step.leads
  · obtain ⟨g1, ha, hb⟩ := (hab ▸ hwhole).of_append
    obtain ⟨g2, hstep, -⟩ := hb.of_cons
    have hg1 : a.finalState .idle = g1.state := ha.finalState_eq
    rw [hg1] at hup hne ⊢
    rw [hstep.next_state] at hup
    obtain ⟨rfl, hready⟩ := hstep.eq_ready hup hne
    exact ⟨rfl, hready⟩
  · obtain ⟨g2, hab, -⟩ := (habc ▸ hwhole).of_append
    obtain ⟨g1, ha, hb⟩ := hab.of_append
    have hg1 : a.finalState .idle = g1.state := ha.finalState_eq
    rw [hg1]
    exact Nat.le_trans (Nat.le_of_add_right_le (hb.countP_running_le hcalls)) g1.chances_le_one
  · obtain ⟨rfl, hrest⟩ := hfirst x rest hx
    exact ⟨rfl, hrest⟩
  · rw [hstate', hlast r hr]
    exact r.result_eq_ok_iff
  · rw [hstate', hlast r hr]
    exact r.result_eq_error_iff
  · rw [hstate', hlast r hr]
    exact changes_of_reports r.atRest_stage hlate

/-- An attempt reports twice and returns, and reports once more after that; another one, whose run
has not returned, does not report at all, but the first one does. -/
theorem published_lawfully_late :
    let p : ServePlan := {
      attempts := fun _ => { acts := [(1, .ready), (2, .ready)], ending := some (5, .ok ()) } }
    let q : ServePlan := { attempts := fun _ => {} }
    let past : Trace := [(0, .enters .starting), (0, .starts 0), (1, .ready 0), (2, .ready 0),
      (5, .enters .stopped), (7, .ready 0)]
    let tr : Trace := [(9, .enters .starting), (9, .starts 1), (10, .ready 0)]
    p.run 1 {} = .ok ⟨past.take 5, .ok (), { now := 5, next := 1 }⟩ ∧ Lived past ∧
      Strays (q.story 1 { now := 9, next := 1 }) tr ∧
      (∀ c ∈ (past ++ tr).changes .idle, c.2.1.leads c.2.2 = true) ∧
      (past ++ tr).finalState .idle = .running := by
  intro p q past tr
  have hrun : p.run 1 {} = .ok ⟨past.take 5, .ok (), { now := 5, next := 1 }⟩ := rfl
  have hpast : Lived past := .report 7 0 (.run .new hrun .none)
  have htr : Strays (q.story 1 { now := 9, next := 1 }) tr :=
    .report (a := [(9, .enters .starting)]) (b := []) 10 0 .none (by decide)
  exact ⟨hrun, hpast, htr, (published_lawfully hpast q 1 { now := 9, next := 1 } htr).1, rfl⟩

end ServePlan

end AppHost
