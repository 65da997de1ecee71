import AppHost.Proofs.Mount.History

/-!
# Guards of a mount

Whoever mounts an application gets a right to the entry that holds the path with the scopes asked
for; if the application was mounted there before, it is a further right to the same entry. The entry
lives until the first of these rights is used, whosever it is, or until the table is cleared. So a
guard alone keeps its mount, but another holder of the same mount can take it away from under it.
-/

namespace AppHost.MountTable

variable {moves : List (Move Mounting)} {m : Mounting} {e e' : MountEntry} {n : Nat}

/-- Mounting what is mounted already yields a further right to its entry. -/
theorem answer_of_isMetBy (h : scheme.IsLive moves e) (hm : m.IsMetBy e) :
    answer (scheme.ledger moves).live (scheme.ledger moves).opened m = .again e.seq := by
  have hlive : e ∈ (scheme.ledger moves).live := scheme.mem_live_iff.mpr h
  have hheld : m.isHeldBy e = true := Mounting.isHeldBy_iff.mpr ⟨hm.path, hm.scopes⟩
  have hslash : Http.Target.startsWith m.path "/" = true := hm.path ▸ startsWith_of_isLive h
  obtain ⟨e', hfind⟩ : ∃ e', (scheme.ledger moves).live.find? m.isHeldBy = some e' :=
    Option.isSome_iff_exists.mp (List.find?_isSome.mpr ⟨e, hlive, hheld⟩)
  have he' : e' = e := by
    have hlive' := scheme.mem_live_iff.mp (List.mem_of_find?_eq_some hfind)
    obtain ⟨hp, hs⟩ := Mounting.isHeldBy_iff.mp (List.find?_some hfind)
    exact eq_of_isLive hlive' h (hp.trans hm.path.symm) (hs.trans hm.scopes.symm)
  simp only [answer, hslash, hfind, he', hm.id, if_true]

/-- A right that is granted is a right to a live entry of the application. -/
theorem exists_isLive_of_issued {g : Bool}
    (h : (scheme.ledger (moves ++ [.ask m g])).issued = (scheme.ledger moves).issued ++ [(n, g)]) :
    ∃ e, scheme.IsLive (moves ++ [.ask m g]) e ∧ e.seq = n ∧ m.IsMetBy e := by
  rw [scheme.ledger_concat] at h
  simp only [Scheme.next] at h
  cases ha : scheme.answer (scheme.ledger moves).live (scheme.ledger moves).opened m with
  | refused =>
    rw [ha] at h
    exact absurd (congrArg List.length h) (by simp)
  | again k =>
    rw [ha] at h
    obtain rfl : k = n := by simpa using h
    obtain ⟨e, he, hk, hm⟩ := answer_eq_again ha
    exact ⟨e, scheme.isLive_concat.mpr (.inr ⟨scheme.mem_live_iff.mp he, rfl⟩), hk, hm⟩
  | opened e =>
    rw [ha] at h
    obtain rfl : (scheme.ledger moves).opened = n := by simpa using h
    obtain ⟨-, -, rfl⟩ := answer_eq_opened_iff.mp ha
    exact ⟨_, scheme.isLive_concat.mpr (.inl ⟨m, g, rfl, ha⟩), rfl, rfl, rfl, rfl⟩

/-- Another holder of a mount, who got a further right to its entry, takes the entry away. -/
theorem taken_by_other {j : Journal} {g : Bool} (h : scheme.IsLive moves e) (hm : m.IsMetBy e)
    (x : Move Mounting) (hx : x = .revoke (scheme.ledger moves).issued.length ∨
      (x = .drop (scheme.ledger moves).issued.length ∧ g = true)) :
    (after (moves ++ [.ask m g]) j).entries = (after moves j).entries ∧
      e ∉ (after (moves ++ [.ask m g, x]) j).entries := by
  have ha : scheme.answer (scheme.ledger moves).live (scheme.ledger moves).opened m =
      .again e.seq := answer_of_isMetBy h hm
  have hnext : scheme.ledger (moves ++ [.ask m g]) =
      { scheme.ledger moves with issued := (scheme.ledger moves).issued ++ [(e.seq, g)] } := by
    rw [scheme.ledger_concat]
    simp only [Scheme.next, ha]
  constructor
  · rw [after_eq, after_eq, hnext]
  · have hlive : scheme.IsLive (moves ++ [.ask m g]) e :=
      scheme.isLive_concat.mpr (.inr ⟨h, rfl⟩)
    have htakes : (scheme.ledger (moves ++ [.ask m g])).takes e.seq x = true := by
      rw [Ledger.takes_eq_true_iff, hnext]
      exact .inr ⟨_, g, List.getElem?_concat_length, hx⟩
    rw [mem_after_iff, List.append_cons, scheme.isLive_append_iff hlive]
    intro hall
    have hkeeps := hall [] x [] rfl
    rw [List.append_nil] at hkeeps
    exact Bool.false_ne_true (hkeeps.symm.trans htakes)

/-- **A guarded mount lives until somebody uses a right to it.** The guard comes with a live entry
of the application. The entry goes when the table is cleared or when a right to it is used for the
first time, and no sooner; until then every connection that it accepts goes to it or to an entry
that outranks it. But the guard is not the only such right: whoever mounts the same application
there shares the entry, and takes it away with his own guard while the first one is still held. -/
theorem guarded_until_used (moves : List (Move Mounting)) (m : Mounting) (n : Nat) (j : Journal)
    (hg : (scheme.ledger (moves ++ [.ask m true])).issued =
      (scheme.ledger moves).issued ++ [(n, true)]) :
    ∃ e : MountEntry, e.seq = n ∧ e.application.id = m.application.id ∧ e.path = m.path ∧
      e.scopes = m.options.scopes ∧ ∀ later,
        let now := moves ++ [.ask m true] ++ later
        (e ∈ (after now j).entries ↔ ∀ since x rest, later = since ++ x :: rest →
          ¬ (x = .clear ∨ ∃ k g,
            (scheme.ledger (moves ++ [.ask m true] ++ since)).issued[k]? = some (n, g) ∧
              (x = .revoke k ∨ (x = .drop k ∧ g = true)))) ∧
        (e ∈ (after now j).entries →
          (∀ scope path, m.options.scopes.contains scope = true →
            m.path.toList <+: path.toList → ∃ e', (after now j).lookup scope path = some e' ∧
              (e' = e ∨ e'.outranks e = true)) ∧
          ∀ m' : Mounting, m'.application.id = m.application.id → m'.path = m.path →
            m'.options.scopes = m.options.scopes →
            let guard := (scheme.ledger moves).issued.length
            let other := (scheme.ledger now).issued.length
            guard < other ∧ (after (now ++ [.ask m' true]) j).entries = (after now j).entries ∧
              e ∉ (after (now ++ [.ask m' true, .drop other]) j).entries) := by
  obtain ⟨e, hlive, hseq, hmet⟩ := exists_isLive_of_issued hg
  refine ⟨e, hseq, hmet.id, hmet.path, hmet.scopes, fun later => ⟨?_, fun hmem => ⟨?_, ?_⟩⟩⟩
  · rw [mem_after_iff, scheme.isLive_append_iff hlive]
    refine forall_congr' fun since => forall_congr' fun x => forall_congr' fun rest =>
      imp_congr_right fun _ => ?_
    rw [← hseq, ← Ledger.takes_eq_true_iff, Bool.not_eq_true]
    rfl
  · intro scope path hscope hpath
    refine lookup_of_isLive (mem_after_iff.mp hmem) (MountEntry.accepts_iff.mpr ⟨?_, ?_⟩)
    · rw [hmet.scopes]
      exact hscope
    · rw [hmet.path]
      exact hpath
  · intro m' hid hpath hscopes
    refine ⟨?_, taken_by_other (mem_after_iff.mp hmem) ⟨?_, ?_, ?_⟩ _ (.inr ⟨rfl, rfl⟩)⟩
    · have hlt : (scheme.ledger moves).issued.length <
          (scheme.ledger (moves ++ [.ask m true])).issued.length := by
        rw [hg, List.length_append]
        exact Nat.lt_succ_self _
      exact Nat.lt_of_lt_of_le hlt (scheme.ledger_le_append _ later).2
    · exact hmet.id.trans hid.symm
    · exact hmet.path.trans hpath.symm
    · exact hmet.scopes.trans hscopes.symm

/-- Two holders have mounted an application at the same path, and the second one lets go. -/
theorem guarded_until_used_shared :
    let m : Mounting := { application := .echo 0 "app", path := "/a" }
    (scheme.ledger [.ask m true]).issued = [(0, true)] ∧
      ∃ e, e ∈ (after [.ask m true] {}).entries ∧
        e ∉ (after [.ask m true, .ask m true, .drop 1] {}).entries := by
  intro m
  have hissued : (scheme.ledger [.ask m true]).issued = [(0, true)] := by decide +kernel
  obtain ⟨e, -, -, -, -, hall⟩ := guarded_until_used [] m 0 {} hissued
  obtain ⟨hlives, hshared⟩ := hall []
  have hmem : e ∈ (after [.ask m true] {}).entries :=
    hlives.mpr fun since x rest hs => by cases since <;> cases hs
  have hother : (scheme.ledger [.ask m true]).issued.length = 1 := congrArg List.length hissued
  obtain ⟨-, -, hgone⟩ := (hshared hmem).2 m rfl rfl rfl
  exact ⟨hissued, e, hmem, hother ▸ hgone⟩

end AppHost.MountTable
