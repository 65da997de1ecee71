import AppHost.Proofs.Serve.Cut
import AppHost.Server.Basic

/-!
# The published address

An attempt of a server publishes the address that it listens on, and takes it back last of all. So
there is none whenever no attempt is in progress, but for one case: an attempt that is cut at the
end of the grace period does not come to take it back, and the address of a listener that is gone
stays. This befalls only servers without TLS, which would wait for their connections as long as it
takes; with TLS the connections are closed by then, on a clock that stands still in between.
-/

namespace AppHost

/-! ## Attempts of a server -/

/-- What a server finds at one attempt: the machine as it is then, and when and why the listener
breaks down, if it does. -/
structure Occasion where
  machine : Machine
  breakdown : Option (Nat × IoError) := none

namespace Server

variable {s : Server} {m : Machine} {o : Occasion} {os : Nat → Occasion} {signal : StopSignal}
  {start t fuel : Nat} {pt : ServePoint} {a b : Trace}

/-- An attempt that has not failed before does so when the listener breaks down. -/
def attemptAt (s : Server) (o : Occasion) : Attempt :=
  let a := s.attempt o.machine
  { a with ending := a.ending.or (o.breakdown.map fun x => (x.1, .error (.broken x.2))) }

/-- The serve loop of a server over changing occasions. -/
def planOver (s : Server) (os : Nat → Occasion) (signal : StopSignal) : ServePlan where
  policy := s.policy
  grace := s.grace
  attempts := fun n => s.attemptAt (os n)
  signal := signal

/-- The occasions may all be alike. -/
theorem planOver_steady (s : Server) (m : Machine) (signal : StopSignal) :
    s.planOver (fun _ => { machine := m }) signal = s.plan m signal := by
  simp only [planOver, plan, attemptAt, Option.map_none, Option.or_none]

-- Stated for any number: the ticks of a timer are a sum that would be computed to compare them.
theorem elim_min_le (n : Nat) (d : Option Nat) : d.elim n (min n) ≤ n := by
  cases d with
  | none => exact Nat.le_refl n
  | some d => exact Nat.min_le_left n d

/-- An attempt fails at once, or with TLS it drains within the grace period, or without it it
listens and waits for its connections as long as it takes. -/
theorem attempt_cases (s : Server) (m : Machine) :
    (∃ acts f, s.attempt m = failing acts f) ∨
    (∃ before a d, d ≤ s.grace.timerTicks ∧ s.attempt m = serving true before a (some d)) ∨
    (s.tls = none ∧ ∃ before a, s.address.bind m.network = .ok a ∧
      s.attempt m = serving false before a m.drainTime) := by
  unfold attempt
  split
  · unfold tlsAttempt
    split
    · exact .inl ⟨_, _, rfl⟩
    · dsimp only
      split
      · exact .inl ⟨_, _, rfl⟩
      · split
        · exact .inr (.inl ⟨_, _, _, elim_min_le _ _, rfl⟩)
        · exact .inl ⟨_, _, rfl⟩
  · rename_i htls
    unfold plainAttempt
    split
    · rename_i a ha
      exact .inr (.inr ⟨htls, _, a, ha, rfl⟩)
    · exact .inl ⟨_, _, rfl⟩

theorem closing_attemptAt : (s.attemptAt o).closing = [.listens none] := by
  change (s.attempt o.machine).closing = _
  rcases s.attempt_cases o.machine with ⟨_, _, h⟩ | ⟨_, _, _, _, h⟩ | ⟨_, _, _, _, h⟩ <;>
    rw [h] <;> rfl

/-- An attempt that returns takes its address back. -/
theorem address_of_returns (x : Option Net.SocketAddr) {play : Play} {c : Closure}
    (hc : ∀ t, c ≠ .isCut t) :
    ((s.planOver os signal).attemptFrom pt play c).finalAddress x = none := by
  cases c with
  | isCut t => exact absurd rfl (hc t)
  | returns time result woken =>
    have hclosing : ((s.planOver os signal).attempts pt.next).closing = [.listens none] :=
      closing_attemptAt
    rw [ServePlan.attemptFrom, ServePlan.attemptTrace, hclosing, ← List.append_assoc,
      Trace.finalAddress_append]
    rfl

/-- What is known of an attempt that is cut: it is one without TLS that listens, and its
connections take longer than the grace period. -/
theorem plain_of_isCut
    (h : (s.planOver os signal).closure start
      ((s.attemptAt o).play start signal) = some (.isCut t)) :
    start ≤ t ∧ s.tls = none ∧ ∃ before a, s.address.bind o.machine.network = .ok a ∧
      s.attempt o.machine = serving false before a o.machine.drainTime := by
  obtain ⟨w, hw, rfl, hlate, hdrain⟩ := ServePlan.wakes_of_isCut h
  have hstart : start ≤ w := StopSignal.wakes_le hw
  refine ⟨Nat.le_add_right_of_le hstart, ?_⟩
  rcases s.attempt_cases o.machine with ⟨acts, f, hf⟩ | ⟨before, a, d, hd, ha⟩ | hplain
  · have hprompt : ((s.attemptAt o).undisturbed start).ending = some (start, .error f) := by
      simp only [attemptAt, hf, failing, Attempt.undisturbed, Option.some_or, Option.map_some,
        Attempt.settle_at_once, Attempt.lastTime_at_once, Nat.add_zero, Nat.max_self]
    exact absurd (hlate _ hprompt) (Nat.not_lt.mpr hstart)
  · have hdrains : (s.attemptAt o).drain = some (d, .ok ()) := by
      simp only [attemptAt, ha, serving, Option.map_some]
    exact absurd (hdrain _ hdrains) (Nat.not_lt.mpr hd)
  · exact hplain

/-- An attempt that is cut leaves the address that it listens on. -/
theorem address_of_isCut (x : Option Net.SocketAddr)
    (h : (s.planOver os signal).closure pt.now
      ((s.attemptAt (os pt.next)).play pt.now signal) = some (.isCut t)) :
    s.tls = none ∧ ∃ a, s.address.bind (os pt.next).machine.network = .ok a ∧
      ((s.planOver os signal).attemptFrom pt ((s.attemptAt (os pt.next)).play pt.now signal)
        (.isCut t)).finalAddress x = some a := by
  obtain ⟨hle, htls, before, a, ha, hattempt⟩ := plain_of_isCut h
  refine ⟨htls, a, ha, ?_⟩
  have hacts : (s.attemptAt (os pt.next)).acts = (before ++ [Act.ready, Act.listens (some a),
      Act.logs (accepting false a)]).map fun x => (0, x) := by
    simp only [attemptAt, hattempt, serving]
  rw [ServePlan.attemptFrom, ServePlan.attemptTrace, Attempt.acts_play hacts,
    Attempt.filter_at_once _ hle, Trace.finalAddress_append, Trace.finalAddress_append,
    List.map_append, List.map_append, Trace.finalAddress_append]
  rfl

/-! ## Runs of a server -/

/-- In `tr` an attempt has been cut: the server, which is one without TLS, has stopped and still
publishes the address. -/
structure CutOff (s : Server) (os : Nat → Occasion) (signal : StopSignal) (tr : Trace) : Prop where
  /-- A server with TLS has a grace period of its own, as long as that of the loop and begun in the
  same millisecond. The two end together, and as the clock stands still while the server closes its
  connections, it returns in time. On a clock that goes on meanwhile it might be cut as well. -/
  plain : s.tls = none
  logged : ∃ t, (t, .logs (s.planOver os signal).tooSlow) ∈ tr
  stopped : (s.afterTrace tr).state = .stopped
  stale : ∃ n a, s.address.bind (os n).machine.network = .ok a ∧ (s.afterTrace tr).bound = some a

/-- At an instant in which no attempt is in progress there is no address, or an attempt was cut. -/
def Tidy (s : Server) (os : Nat → Occasion) (signal : StopSignal) (tr : Trace) : Prop :=
  (s.afterTrace tr).state.attempting = true ∨ (s.afterTrace tr).bound = none ∨
    s.CutOff os signal tr

theorem afterTrace_append (s : Server) (a b : Trace) :
    s.afterTrace (a ++ b) = (s.afterTrace a).afterTrace b := by
  simp only [afterTrace, Trace.finalState_append, Trace.finalAddress_append]

theorem Tidy.of_afterTrace (h : (s.afterTrace a).Tidy os signal b) :
    s.Tidy os signal (a ++ b) := by
  rcases h with h | h | ⟨hplain, ⟨t, ht⟩, hstopped, hstale⟩
  · exact .inl (afterTrace_append s a b ▸ h)
  · exact .inr (.inl (afterTrace_append s a b ▸ h))
  · exact .inr (.inr ⟨hplain, ⟨t, List.mem_append_right _ ht⟩, afterTrace_append s a b ▸ hstopped,
      afterTrace_append s a b ▸ hstale⟩)

/-- An attempt and what follows it, up to any instant. -/
theorem tidy_of_attempt (hb : s.bound = none) {c : Closure} {tail : Trace}
    (hc : (s.planOver os signal).closure pt.now
      ((s.attemptAt (os pt.next)).play pt.now signal) = some c)
    (hmute : ∀ x ∈ tail, x.2.isMute = true)
    (hcut : ∀ t, c = .isCut t → tail = [(t, .enters .stopped)])
    (h : (s.planOver os signal).attemptFrom pt ((s.attemptAt (os pt.next)).play pt.now signal) c ++
      tail = a ++ b) : s.Tidy os signal a := by
  obtain ⟨lead, hlead, hquiet⟩ := (s.planOver os signal).attemptFrom_eq (s := pt)
    ((s.attemptAt (os pt.next)).play pt.now signal) c
  rcases Trace.address_of_attempt s.state s.bound hquiet hmute (hlead ▸ h) with
    rfl | hgoes | ⟨a', hne, ha, htail, haddress⟩
  · exact .inr (.inl hb)
  · exact .inl hgoes
  rw [← hlead] at ha haddress
  cases c with
  | returns time result woken =>
    refine .inr (.inl ?_)
    exact haddress.trans (address_of_returns _ fun t ht => by cases ht)
  | isCut t =>
    obtain ⟨htls, x, hx, hleft⟩ := address_of_isCut s.bound hc
    obtain rfl : a' = [(t, .enters .stopped)] := by
      rcases List.append_eq_singleton_iff.mp (htail.trans (hcut t rfl)) with ⟨rfl, -⟩ | ⟨h, -⟩
      · exact absurd rfl hne
      · exact h
    refine .inr (.inr ⟨htls, ⟨t, ?_⟩, ?_, pt.next, x, hx, haddress.trans hleft⟩)
    · rw [ha, ServePlan.attemptFrom, ServePlan.attemptTrace]
      simp only [List.mem_append, List.mem_singleton, true_or, or_true]
    · rw [ha]
      exact Trace.finalState_enters _ _ _ _

theorem tidy_lap (hb : s.bound = none) {l : Lap} (h : (s.planOver os signal).lap pt = .ok l)
    (hab : l.trace = a ++ b) : s.Tidy os signal a := by
  rcases ServePlan.trace_of_lap h with hpast | ⟨c, tail, hc, htrace, hloop, hcut⟩
  · refine .inr (.inl ?_)
    have hmute : ∀ x ∈ a, x.2.isMute = true := fun x hx =>
      ServePlan.mute_enters _ _ x (hpast ▸ hab ▸ List.mem_append_left b hx)
    exact (Trace.finalAddress_of_mute hmute).trans hb
  · exact tidy_of_attempt hb hc (fun x hx => Happening.isMute_of_ofLoop (hloop x hx)) hcut
      (htrace ▸ hab)

theorem tidy_broken (hb : s.bound = none) {e : NoEnd}
    (h : (s.planOver os signal).lap pt = .error e)
    (hab : (s.planOver os signal).broken pt = a ++ b) : s.Tidy os signal a := by
  rcases ServePlan.trace_of_broken h with ⟨lead, hlead, hquiet⟩ | ⟨c, hc, hcut, htrace⟩
  · have hall : (pt.now, .enters .starting) :: lead ++ [] = a ++ b := by
      rw [List.append_nil, ← hlead, hab]
    rcases Trace.address_of_attempt s.state s.bound hquiet
      (fun x hx => absurd hx List.not_mem_nil) hall with rfl | hgoes | ⟨a', hne, -, hnil, -⟩
    · exact .inr (.inl hb)
    · exact .inl hgoes
    · exact absurd (List.append_eq_nil_iff.mp hnil).1 hne
  · exact tidy_of_attempt hb hc (ServePlan.mute_enters _ _) (fun t ht => absurd ht (hcut t))
      (htrace ▸ hab)

/-- A run up to any instant, whether it comes to an end or not. -/
theorem tidy_story (hb : s.bound = none) (fuel : Nat) (pt : ServePoint)
    (h : (s.planOver os signal).story fuel pt = a ++ b) : s.Tidy os signal a := by
  induction fuel generalizing s pt a with
  | zero =>
    obtain ⟨rfl, -⟩ := List.append_eq_nil_iff.mp h.symm
    exact .inr (.inl hb)
  | succ fuel ih =>
    rw [ServePlan.story] at h
    cases hlap : (s.planOver os signal).lap pt with
    | error e =>
      rw [hlap] at h
      exact tidy_broken hb hlap h
    | ok l =>
      rw [hlap] at h
      cases l with
      | ends r => exact tidy_lap hb hlap h
      | again tr pt' =>
        rcases List.append_eq_append_iff.mp h with ⟨a', rfl, hrest⟩ | ⟨b', htr, -⟩
        · have hagain : (s.afterTrace tr).state = .retrying := ServePlan.finalState_lap hlap _
          have hnone : (s.afterTrace tr).bound = none := by
            rcases tidy_lap hb hlap (List.append_nil tr).symm with hgoes | hnone | hcut
            · rw [hagain] at hgoes
              cases hgoes
            · exact hnone
            · cases hagain.symm.trans hcut.stopped
          exact .of_afterTrace (ih hnone pt' hrest)
        · exact tidy_lap hb hlap htr

/-- Connections that outlast the grace period get their attempt cut. -/
theorem runFrom_of_outlasting {x : Net.SocketAddr} (htls : s.tls = none)
    (hx : s.address.bind (os pt.next).machine.network = .ok x)
    (hslow : ∀ d ∈ (os pt.next).machine.drainTime, s.grace.timerTicks < d)
    (hsteady : (os pt.next).breakdown = none) (hsig : signal.comes = some t) (hle : pt.now ≤ t)
    (fuel : Nat) :
    ∃ r, (s.planOver os signal).runFrom (fuel + 1) pt = .ok r ∧ r.result = .ok () ∧
      (s.afterTrace r.trace).state = .stopped ∧ (s.afterTrace r.trace).bound = some x := by
  have hattempt : (s.attemptAt (os pt.next)).ending = none ∧ (s.attemptAt (os pt.next)).drain =
      (os pt.next).machine.drainTime.map fun d => (d, .ok ()) := by
    simp only [attemptAt, attempt, htls, plainAttempt, hx, hsteady, serving, Option.map_none,
      Option.or_none, and_self]
  have hending : ((s.attemptAt (os pt.next)).undisturbed pt.now).ending = none := by
    simp only [Attempt.undisturbed, hattempt.1, Option.map_none]
  have hw : signal.wakes pt.now = some (max pt.now t) := StopSignal.wakes_of_comes hsig pt.now
  have hc : (s.planOver os signal).closure pt.now
      ((s.attemptAt (os pt.next)).play pt.now signal) =
        some (.isCut (max pt.now t + (s.planOver os signal).grace.timerTicks)) := by
    refine ServePlan.closure_eq_isCut_iff.mpr ⟨max pt.now t, hw, rfl, fun e he => ?_⟩
    rcases Attempt.play_cases (a := s.attemptAt (os pt.next)) hw with
      ⟨hplay, -⟩ | ⟨d, hd, -, hends, hdrained⟩
    · rw [hplay, hending] at he
      cases he
    · cases hends.symm.trans he
      rw [hattempt.2] at hd
      obtain ⟨d', hd', rfl⟩ := Option.map_eq_some_iff.mp hd
      have hlong : (s.planOver os signal).grace.timerTicks < d' := hslow d' hd'
      exact ⟨.inr hdrained, Nat.add_lt_add_left hlong _⟩
  have hlap := ServePlan.lap_of_isCut (p := s.planOver os signal)
    (StopSignal.isPast_of_comes hsig hle) hc
  obtain ⟨-, x', hx', haddress⟩ := address_of_isCut s.bound hc
  cases hx.symm.trans hx'
  refine ⟨_, ServePlan.runFrom_of_ends hlap fuel, rfl, Trace.finalState_enters _ _ _ _, ?_⟩
  exact (Trace.finalAddress_enters _ _ _ _).trans haddress

/-- **The address is published only while an attempt is in progress, but for attempts that are
cut.** This holds at every instant of every run, whether it comes to an end or not, with attempts
that fail to bind, fail later on, drain in time or are cut. After a cut the server has stopped, and
still publishes the address of a listener that is gone: so it always is for a server without TLS
whose connections outlast the grace period, and who waits for it to listen is told that address. -/
theorem address_outlives_cut_only (hb : s.bound = none) (os : Nat → Occasion) (signal : StopSignal)
    (fuel : Nat) (pt : ServePoint) :
    (∀ a b, (s.planOver os signal).story fuel pt = a ++ b →
      (s.afterTrace a).state.attempting = false →
        (s.afterTrace a).bound = none ∨ s.CutOff os signal a) ∧
    ∀ t x, s.tls = none → s.address.bind (os pt.next).machine.network = .ok x →
      (∀ d ∈ (os pt.next).machine.drainTime, s.grace.timerTicks < d) →
      (os pt.next).breakdown = none → signal.comes = some t → pt.now ≤ t →
        ∃ r, (s.planOver os signal).runFrom (fuel + 1) pt = .ok r ∧ r.result = .ok () ∧
          (s.afterTrace r.trace).state = .stopped ∧ (s.afterTrace r.trace).bound = some x ∧
          (s.afterTrace r.trace).listening = some (some x) := by
  refine ⟨fun a b hab hrest => ?_, fun t x htls hx hslow hsteady hsig hle => ?_⟩
  · rcases tidy_story hb fuel pt hab with hgoes | htidy
    · rw [hgoes] at hrest
      cases hrest
    · exact htidy
  · obtain ⟨r, hr, hresult, hstate, hbound⟩ :=
      runFrom_of_outlasting htls hx hslow hsteady hsig hle fuel
    refine ⟨r, hr, hresult, hstate, hbound, ?_⟩
    rw [listening, hbound]

/-- A connection that never ends, and a coordinator that asks to stop after 100 ms. -/
theorem address_outlives_cut_only_connected :
    let x : Net.SocketAddr := { ip := .v4 ⟨127, 0, 0, 1⟩, port := 5000 }
    let m : Machine :=
      { network := { lookup := fun _ => .ok [], listen := fun a => .ok a }, drainTime := none }
    let s : Server := { number := 0, address := { host := "127.0.0.1", port := 5000 } }
    s.bound = none ∧ ∃ r, (s.plan m (.triggeredAt 100)).runFrom 1 {} = .ok r ∧
      (s.afterTrace r.trace).state = .stopped ∧
      (s.afterTrace r.trace).listening = some (some x) := by
  intro x m s
  have hliteral : s.address.resolve m.network = .ok x :=
    Net.BindAddress.resolve_of_literal m.network (by decide)
  have hx : s.address.bind m.network = .ok x := by
    rw [Net.BindAddress.bind, hliteral]
    rfl
  obtain ⟨r, hr, -, hstate, -, hlistening⟩ := (address_outlives_cut_only (s := s) rfl
    (fun _ => { machine := m }) (.triggeredAt 100) 0 {}).2 100 x rfl hx
      (fun d hd => by cases hd) rfl rfl (Nat.zero_le _)
  rw [planOver_steady] at hr
  exact ⟨rfl, r, hr, hstate, hlistening⟩

end Server

end AppHost
