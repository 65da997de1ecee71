import AppHost.Proofs.Serve.Protocol

/-!
# What an attempt leaves behind

An attempt that returns does its last acts, and one that is cut does not. It is cut if the signal
finds it at work and neither its own end nor its draining comes before the end of the grace period
(`wakes_of_isCut`). Nothing that the loop does after an attempt publishes an address, so the address
in between attempts is the one that the last of them has left.
-/

namespace AppHost

/-- Whether an attempt is in progress. -/
def ServeState.attempting : ServeState → Bool
  | starting => true
  | running => true
  | _ => false

/-! ## Traces -/

/-- What publishes no address. -/
def Happening.isMute (h : Happening) : Bool :=
  match h with
  | listens _ => false
  | _ => true

/-- What the loop does of its own, apart from making attempts. -/
def Happening.ofLoop : Happening → Bool
  | enters _ => true
  | restarts => true
  | logs _ => true
  | _ => false

theorem Happening.isMute_of_ofLoop {h : Happening} (hh : h.ofLoop = true) : h.isMute = true := by
  cases h <;> first | rfl | cases hh

theorem Act.happening_ne_enters (n : Nat) (a : Act) (st : ServeState) :
    a.happening n ≠ .enters st := by
  cases a <;> rintro ⟨⟩

namespace Trace

variable {tr lead tail a b : Trace} {st : ServeState} {o : Option Net.SocketAddr} {t : Nat}

theorem finalAddress_append (o : Option Net.SocketAddr) (a b : Trace) :
    finalAddress o (a ++ b) = finalAddress (finalAddress o a) b := List.foldl_append

theorem finalAddress_enters (o : Option Net.SocketAddr) (tr : Trace) (t : Nat) (st : ServeState) :
    finalAddress o (tr ++ [(t, .enters st)]) = finalAddress o tr := finalAddress_append _ _ _

theorem finalAddress_of_mute (h : ∀ x ∈ tr, x.2.isMute = true) : finalAddress o tr = o := by
  induction tr with
  | nil => rfl
  | cons x tr ih =>
    obtain ⟨t, e⟩ := x
    have hone : e.nextAddress o = o := by
      cases e with
      | listens a => cases h _ List.mem_cons_self
      | _ => rfl
    rw [finalAddress, List.foldl_cons, hone]
    exact ih fun x hx => h x (List.mem_cons_of_mem _ hx)

/-- As long as the loop enters no other state, an attempt goes on. -/
theorem attempting_finalState (hst : st.attempting = true)
    (h : ∀ x ∈ tr, ∀ st', x.2 ≠ .enters st') : (finalState st tr).attempting = true := by
  induction tr generalizing st with
  | nil => exact hst
  | cons x tr ih =>
    obtain ⟨t, e⟩ := x
    have hnext : (e.next st).attempting = true := by
      cases e with
      | enters st' => exact absurd rfl (h _ List.mem_cons_self st')
      | ready n => cases st <;> first | rfl | cases hst
      | _ => exact hst
    exact ih hnext fun x hx => h x (List.mem_cons_of_mem _ hx)

/-- An attempt from its announcement on, and what follows without another address: at every
instant it has not begun yet, it goes on, or the address is the one that it leaves. -/
theorem address_of_attempt (st : ServeState) (o : Option Net.SocketAddr)
    (hlead : ∀ x ∈ lead, ∀ st', x.2 ≠ .enters st')
    (htail : ∀ x ∈ tail, x.2.isMute = true)
    (h : (t, .enters .starting) :: lead ++ tail = a ++ b) :
    a = [] ∨ (a.finalState st).attempting = true ∨
      ∃ a', a' ≠ [] ∧ a = (t, .enters .starting) :: lead ++ a' ∧ a' ++ b = tail ∧
        a.finalAddress o = finalAddress o ((t, .enters .starting) :: lead) := by
  have hgoes : ∀ a b, lead = a ++ b →
      (finalState st ((t, .enters .starting) :: a)).attempting = true := by
    intro a b hab
    change (finalState .starting a).attempting = true
    exact attempting_finalState rfl fun x hx => hlead x (hab ▸ List.mem_append_left _ hx)
  rcases List.append_eq_append_iff.mp h with ⟨a', rfl, rfl⟩ | ⟨b', hab, rfl⟩
  · by_cases ha' : a' = []
    · subst ha'
      rw [List.append_nil]
      exact .inr (.inl (hgoes lead [] (List.append_nil _).symm))
    · refine .inr (.inr ⟨a', ha', rfl, rfl, ?_⟩)
      rw [finalAddress_append,
        finalAddress_of_mute fun x hx => htail x (List.mem_append_left _ hx)]
  · cases a with
    | nil => exact .inl rfl
    | cons x a =>
      obtain ⟨rfl, hrest⟩ := List.cons.inj hab
      exact .inr (.inl (hgoes a b' hrest))

end Trace

/-! ## Attempts that do all they do at once -/

namespace Attempt

variable {a : Attempt} {acts : List Act} {start : Nat} {signal : StopSignal}

theorem settle_at_once (acts : List Act) (start : Nat) :
    settle start start (acts.map fun x => (0, x)) = acts.map fun x => (start, x) := by
  induction acts with
  | nil => rfl
  | cons x acts ih =>
    simp only [List.map_cons, settle, Nat.add_zero, Nat.max_self, ih]

theorem lastTime_at_once (acts : List Act) (start : Nat) :
    lastTime start (acts.map fun x => (start, x)) = start := by
  rw [lastTime, List.getLast?_map]
  cases acts.getLast? <;> rfl

/-- What is done at `start` is done by any later time. -/
theorem filter_at_once (acts : List Act) {w : Nat} (h : start ≤ w) :
    (acts.map fun x => (start, x)).filter (fun x => x.1 ≤ w) = acts.map fun x => (start, x) := by
  rw [List.filter_eq_self]
  intro x hx
  obtain ⟨y, -, rfl⟩ := List.mem_map.mp hx
  exact decide_eq_true h

theorem acts_undisturbed (ha : a.acts = acts.map fun x => (0, x)) :
    (a.undisturbed start).acts = acts.map fun x => (start, x) := by
  rw [undisturbed, ha, settle_at_once]

theorem acts_play (ha : a.acts = acts.map fun x => (0, x)) :
    (a.play start signal).acts = acts.map fun x => (start, x) := by
  rw [play]
  split
  · rename_i d r woken hd hw
    split
    · exact acts_undisturbed ha
    · have hle : start ≤ woken := StopSignal.wakes_le hw
      rw [acts_undisturbed ha, filter_at_once acts hle]
  · exact acts_undisturbed ha

/-- An attempt goes its own way unless the signal finds it at work and it watches for it. -/
theorem play_cases {w : Nat} (hw : signal.wakes start = some w) :
    (a.play start signal = a.undisturbed start ∧
      (a.drain = none ∨ ∃ e ∈ (a.undisturbed start).ending, e.1 ≤ w)) ∨
    ∃ d ∈ a.drain, (∀ e ∈ (a.undisturbed start).ending, w < e.1) ∧
      (a.play start signal).ending = some (w + d.1, d.2) ∧
      (a.play start signal).drained = true := by
  rw [play, hw]
  cases a.drain with
  | none => exact .inl ⟨rfl, .inl rfl⟩
  | some d =>
    by_cases h : (a.undisturbed start).ending.any (fun e => decide (e.1 ≤ w)) = true
    · dsimp only
      rw [if_pos h]
      obtain ⟨e, he, hle⟩ := (Option.any_eq_true _ _).mp h
      exact .inl ⟨rfl, .inr ⟨e, he, of_decide_eq_true hle⟩⟩
    · dsimp only
      rw [if_neg h]
      refine .inr ⟨d, rfl, fun e he => Nat.lt_of_not_le fun hle => h ?_, rfl, rfl⟩
      exact (Option.any_eq_true _ _).mpr ⟨e, he, decide_eq_true hle⟩

end Attempt

/-! ## Laps -/

namespace ServePlan

variable {p : ServePlan} {s : ServePoint} {l : Lap} {t : Nat}

theorem closure_eq_isCut_iff {start : Nat} {play : Play} :
    p.closure start play = some (.isCut t) ↔ ∃ w, p.signal.wakes start = some w ∧
      t = w + p.grace.timerTicks ∧ ∀ e ∈ play.ending,
        (w < e.1 ∨ play.drained = true) ∧ w + p.grace.timerTicks < e.1 := by
  rw [closure]
  cases p.signal.wakes start with
  | none => cases play.ending <;> simp
  | some w =>
    cases play.ending with
    | none =>
      simp only [Option.some.injEq, Closure.isCut.injEq, exists_eq_left', reduceCtorEq,
        Option.mem_def, false_imp_iff, implies_true, and_true]
      exact eq_comm
    | some e => grind

/-- An attempt is cut if the signal finds it at work and the grace period is too short for it. -/
theorem wakes_of_isCut {a : Attempt} {start : Nat}
    (h : p.closure start (a.play start p.signal) = some (.isCut t)) :
    ∃ w, p.signal.wakes start = some w ∧ t = w + p.grace.timerTicks ∧
      (∀ e ∈ (a.undisturbed start).ending, w < e.1) ∧ ∀ d ∈ a.drain, p.grace.timerTicks < d.1 := by
  obtain ⟨w, hw, ht, hending⟩ := closure_eq_isCut_iff.mp h
  refine ⟨w, hw, ht, ?_⟩
  rcases Attempt.play_cases (a := a) hw with ⟨hplay, hdrain⟩ | ⟨d, hd, hlate, hends, -⟩
  · have hlate : ∀ e ∈ (a.undisturbed start).ending, w < e.1 := by
      intro e he
      rcases (hending e (hplay ▸ he)).1 with hlt | hdrained
      · exact hlt
      · rw [hplay] at hdrained
        cases hdrained
    refine ⟨hlate, fun d hd => ?_⟩
    rcases hdrain with hnone | ⟨e, he, hle⟩
    · rw [hnone] at hd
      cases hd
    · exact absurd hle (Nat.not_le.mpr (hlate e he))
  · refine ⟨hlate, fun d' hd' => ?_⟩
    cases hd.symm.trans hd'
    exact Nat.lt_of_add_lt_add_left (hending _ hends).2

theorem mute_enters (t : Nat) (st : ServeState) :
    ∀ x ∈ [(t, Happening.enters st)], x.2.isMute = true := by
  intro x hx
  rw [List.mem_singleton.mp hx]
  rfl

theorem trace_of_afterFailure {pre : Trace} {f : ServeFailure} {up : Nat}
    (h : p.afterFailure pre f up s = .ok l) :
    ∃ tail, l.trace = pre ++ tail ∧ ∀ x ∈ tail, x.2.ofLoop = true := by
  unfold afterFailure at h
  split at h
  · cases h
  · cases h
    exact ⟨_, rfl, by simp [Happening.ofLoop]⟩
  · dsimp only at h
    split at h
    · cases h
      exact ⟨_, List.append_assoc _ _ _, by simp [setback, Happening.ofLoop]⟩
    · cases h
      exact ⟨_, rfl, by simp [setback, Happening.ofLoop]⟩

/-- Once an attempt has ended it does nothing more, and if it was cut the loop ends with it. -/
theorem trace_of_conclude {pre : Trace} {c : Closure} (h : p.conclude s pre c = .ok l) :
    ∃ tail, l.trace = pre ++ tail ∧ (∀ x ∈ tail, x.2.ofLoop = true) ∧
      ∀ t, c = .isCut t → tail = [(t, .enters .stopped)] := by
  have hcut : ∀ {f t}, c.result = .error f → c ≠ .isCut t := by
    rintro f t hr rfl
    cases hr
  obtain ⟨ignoring, rfl | ⟨f, hr, rfl⟩, rfl⟩ | ⟨f, hr, hf⟩ := conclude_cases h
  · refine ⟨[(c.time, .enters .stopped)], List.append_assoc _ _ _, by simp [Happening.ofLoop], ?_⟩
    rintro t rfl
    rfl
  · exact ⟨_, List.append_assoc _ _ _, by simp [Happening.ofLoop], fun t ht => absurd ht (hcut hr)⟩
  · obtain ⟨tail, htrace, hloop⟩ := trace_of_afterFailure hf
    exact ⟨tail, htrace, hloop, fun t ht => absurd ht (hcut hr)⟩

/-- A lap declines, or makes an attempt. -/
theorem trace_of_lap (h : p.lap s = .ok l) : l.trace = [(s.now, .enters .stopped)] ∨
    ∃ c tail, p.closure s.now ((p.attempts s.next).play s.now p.signal) = some c ∧
      l.trace = p.attemptFrom s ((p.attempts s.next).play s.now p.signal) c ++ tail ∧
      (∀ x ∈ tail, x.2.ofLoop = true) ∧ ∀ t, c = .isCut t → tail = [(t, .enters .stopped)] := by
  unfold lap at h
  split at h
  · cases h
    exact .inl rfl
  dsimp only at h
  split at h
  · cases h
  · rename_i c hc
    obtain ⟨tail, htrace, hloop, hcut⟩ := trace_of_conclude h
    exact .inr ⟨c, tail, hc, htrace, hloop, hcut⟩

/-- A lap that comes to no end makes an attempt that does not return, or one that fails. -/
theorem trace_of_broken {e : NoEnd} (h : p.lap s = .error e) :
    (∃ lead, p.broken s = (s.now, .enters .starting) :: lead ∧
      ∀ x ∈ lead, ∀ st, x.2 ≠ .enters st) ∨
    ∃ c, p.closure s.now ((p.attempts s.next).play s.now p.signal) = some c ∧
      (∀ t, c ≠ .isCut t) ∧
      p.broken s = p.attemptFrom s ((p.attempts s.next).play s.now p.signal) c ++
        [(c.time, .enters .crashed)] := by
  unfold lap at h
  unfold broken
  split at h
  · cases h
  dsimp only at h ⊢
  split at h
  · rename_i hc
    rw [hc]
    refine .inl ⟨_, rfl, fun x hx st => ?_⟩
    rcases List.mem_cons.mp hx with rfl | hx
    · rintro ⟨⟩
    · obtain ⟨y, -, rfl⟩ := List.mem_map.mp hx
      exact y.2.happening_ne_enters s.next st
  · rename_i c hc
    rw [hc]
    refine .inr ⟨c, rfl, ?_, rfl⟩
    rintro t rfl
    simp only [conclude, Closure.result] at h
    split at h <;> cases h

/-- From the announcement of an attempt to its end the loop enters no other state. -/
theorem attemptFrom_eq (play : Play) (c : Closure) : ∃ lead,
    p.attemptFrom s play c = (s.now, .enters .starting) :: lead ∧
      ∀ x ∈ lead, ∀ st, x.2 ≠ .enters st := by
  refine ⟨_, rfl, fun x hx st => ?_⟩
  rcases List.mem_cons.mp hx with rfl | hx
  · rintro ⟨⟩
  · rcases act_or_log_of_mem hx with ⟨y, hy⟩ | ⟨e, he⟩
    · rw [hy]
      exact y.happening_ne_enters s.next st
    · rw [he]
      rintro ⟨⟩

/-- A lap leaves the state that its end or the next attempt finds. -/
theorem finalState_lap (h : p.lap s = .ok l) (st : ServeState) :
    l.trace.finalState st = l.stage.state := by
  obtain ⟨tr, htr, hpath⟩ := path_lap h
  have hopen : p.opening s = (p.opened s).state := (p.turn_opening s).next_state
  rw [htr, ← (hpath.mono .turn).finalState_eq, ← hopen]
  rfl

/-- An attempt that is cut ends the loop. -/
theorem lap_of_isCut (hp : p.signal.isPast s.now = false)
    (hc : p.closure s.now ((p.attempts s.next).play s.now p.signal) = some (.isCut t)) :
    p.lap s = .ok (.ends ⟨p.attemptFrom s ((p.attempts s.next).play s.now p.signal) (.isCut t) ++
      [(t, .enters .stopped)], .ok (), { s with now := t, next := s.next + 1 }⟩) := by
  rw [lap_of_closure hp hc]
  simp only [conclude, Closure.result, Closure.time, List.append_nil, ite_self]

end ServePlan

end AppHost
