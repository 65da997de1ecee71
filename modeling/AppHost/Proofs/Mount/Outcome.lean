import AppHost.Proofs.Mount.Invariant

/-!
# Outcomes of a mount

A mount that is asked for comes to one of four things. A path without a slash in front is refused,
and so is one that another application holds with the same scopes; then all is as if nobody had
asked (`AsUnasked`). The application that holds it gets a further right to its entry, which goes
with the first use of any right to it (`Shared`). Otherwise an entry is added at the end.
-/

namespace AppHost.MountTable

open Journaled

variable {t : MountTable} {m : Mounting} {e : MountEntry} {b : Board MountTable}
  {moves : List (Move Mounting)} {j : Journal}

/-! ## Answers of the table -/

theorem mount_of_unrooted (hp : Http.Target.startsWith m.path "/" = false) :
    t.mount m.application m.path m.options = .error (.invalidPath m.path) := by
  rw [mount, hp]
  rfl

theorem Orderly.mount_of_held (h : t.Orderly) (he : e ∈ t.entries) (hheld : m.isHeldBy e = true) :
    t.mount m.application m.path m.options =
      if e.application.id = m.application.id then .ok (.already e.seq)
      else .error (.duplicate m.path m.options.scopes e.application.name) := by
  obtain ⟨hpath, hscopes⟩ := Mounting.isHeldBy_iff.mp hheld
  have hp : Http.Target.startsWith m.path "/" = true := hpath ▸ h.rooted e he
  have hf : t.holder? m.path m.options.scopes = some e :=
    h.holder?_eq_some_iff.mpr ⟨he, hpath, hscopes⟩
  simp only [mount, hp, hf, Bool.not_true, Bool.false_eq_true, if_false]

theorem mount_of_free (hp : Http.Target.startsWith m.path "/" = true)
    (hfree : ∀ e ∈ t.entries, m.isHeldBy e = false) :
    t.mount m.application m.path m.options =
      .ok (.added (t.add m.application m.path m.options)) := by
  have hf : t.holder? m.path m.options.scopes = none := by
    rw [holder?_eq_none_iff]
    intro e he hheld
    rw [← Mounting.isHeldBy_iff, hfree e he] at hheld
    cases hheld
  simp only [mount, hp, hf, Bool.not_true, Bool.false_eq_true, if_false]

/-- A mount is refused for its path, or because another application holds it. -/
theorem Orderly.mount_eq_error_iff (h : t.Orderly) {err : MountError} :
    t.mount m.application m.path m.options = .error err ↔
      (Http.Target.startsWith m.path "/" = false ∧ err = .invalidPath m.path) ∨
      ∃ e ∈ t.entries, m.isHeldBy e = true ∧ e.application.id ≠ m.application.id ∧
        err = .duplicate m.path m.options.scopes e.application.name := by
  constructor
  · intro herr
    cases hp : Http.Target.startsWith m.path "/" with
    | false =>
      rw [mount_of_unrooted hp] at herr
      cases herr
      exact .inl ⟨rfl, rfl⟩
    | true =>
      by_cases hheld : ∃ e ∈ t.entries, m.isHeldBy e = true
      · obtain ⟨e, he, hheld⟩ := hheld
        rw [h.mount_of_held he hheld] at herr
        split at herr
        · cases herr
        · cases herr
          exact .inr ⟨e, he, hheld, ‹_›, rfl⟩
      · have hfree : ∀ e ∈ t.entries, m.isHeldBy e = false :=
          fun e he => Bool.eq_false_iff.mpr fun hm => hheld ⟨e, he, hm⟩
        rw [mount_of_free hp hfree] at herr
        cases herr
  · rintro (⟨hp, rfl⟩ | ⟨e, he, hheld, hid, rfl⟩)
    · exact mount_of_unrooted hp
    · rw [h.mount_of_held he hheld, if_neg hid]

/-! ## What a mount leaves behind -/

theorem value_grant (t : MountTable) (m : Mounting) (j : Journal) :
    (t.grant m.application m.path m.options).value j =
      match t.mount m.application m.path m.options with
      | .error err => .error err
      | .ok (.already n) => .ok (t, { number := n })
      | .ok (.added t') => .ok (t', { number := t.nextSeq }) := by
  unfold grant
  cases t.mount m.application m.path m.options with
  | error err => rfl
  | ok r => cases r <;> rfl

theorem grant_eq_error_iff {err : MountError} :
    (t.grant m.application m.path m.options).value j = .error err ↔
      t.mount m.application m.path m.options = .error err := by
  rw [value_grant]
  cases t.mount m.application m.path m.options with
  | error err' =>
    exact ⟨fun h => congrArg _ (Except.error.inj h), fun h => congrArg _ (Except.error.inj h)⟩
  | ok r => cases r <;> exact iff_of_false nofun nofun

theorem step_ask_of_error {err : MountError}
    (h : b.table.mount m.application m.path m.options = .error err) (g : Bool) (j : Journal) :
    (desk.step b (.ask m g)).value j = b ∧ (desk.step b (.ask m g)).rest j = j := by
  simp only [Desk.step, desk, grant, h, value_bind, rest_bind, value_pure, rest_pure]
  refine ⟨?_, trivial⟩
  simp

theorem step_ask_of_already {n : Nat}
    (h : b.table.mount m.application m.path m.options = .ok (.already n)) (g : Bool) (j : Journal) :
    (desk.step b (.ask m g)).value j =
        { b with rights := b.rights ++ [{ handle := { number := n }, isGuard := g }] } ∧
      ((desk.step b (.ask m g)).rest j).metrics = j.metrics := by
  simp only [Desk.step, desk, grant, h]
  exact ⟨rfl, rfl⟩

theorem step_ask_of_added {t' : MountTable}
    (h : b.table.mount m.application m.path m.options = .ok (.added t')) (g : Bool) (j : Journal) :
    (desk.step b (.ask m g)).value j =
        ⟨t', b.rights ++ [{ handle := { number := b.table.nextSeq }, isGuard := g }]⟩ ∧
      ((desk.step b (.ask m g)).rest j).metrics = { j.metrics with mounts := some t'.size } := by
  simp only [Desk.step, desk, grant, h]
  exact ⟨rfl, rfl⟩

/-! ## Rights after a history -/

/-- The rights that a history has handed out, in their order. -/
def rightsAfter (moves : List (Move Mounting)) (j : Journal) : List Right :=
  (desk.after {} moves j).rights

theorem issued_of_right {k : Nat} {r : Right} (h : (rightsAfter moves j)[k]? = some r) :
    (scheme.ledger moves).issued[k]? = some (r.handle.number, r.isGuard) := by
  rw [(Desk.agrees_after desk_keeps rfl moves j).issued_getElem? k]
  exact congrArg (Option.map _) h

theorem orderly_after (moves : List (Move Mounting)) (j : Journal) : (after moves j).Orderly := by
  rw [after_eq, ← after_eq moves {}]
  exact (kept_after moves rfl).1

/-- The numbers of rights are those of entries that were made. -/
theorem number_lt_of_right {r : Right} (h : r ∈ rightsAfter moves j) :
    r.handle.number < (after moves j).nextSeq := by
  obtain ⟨k, hk⟩ := List.mem_iff_getElem?.mp h
  rw [after_eq]
  exact (scheme.sound_ledger moves).issued_lt _ (List.mem_of_getElem? (issued_of_right hk))

/-- The move uses the right `r`, the `k`-th that was handed out. -/
def Uses (x : Move Mounting) (k : Nat) (r : Right) : Prop :=
  x = .revoke k ∨ (x = .drop k ∧ r.isGuard = true)

/-- Rights to the entry `n` are rights to one and the same. The first of them that is used takes it
away: no entry of that number is left, and all others stay, in their order. Then none of the rights
does anything, whatever is done in between. -/
def Shared (moves : List (Move Mounting)) (j : Journal) (n : Nat) : Prop :=
  ∀ k r x, (rightsAfter moves j)[k]? = some r → r.handle.number = n → Uses x k r →
    after (moves ++ [x]) j = { after moves j with
      entries := (after moves j).entries.filter fun e => e.seq != n } ∧
    (∀ e ∈ (after (moves ++ [x]) j).entries, e.seq ≠ n) ∧
    (∀ e ∈ (after moves j).entries, e.seq ≠ n → e ∈ (after (moves ++ [x]) j).entries) ∧
    ∀ k' r', (rightsAfter moves j)[k']? = some r' → r'.handle.number = n →
      ∀ later x', x' = .revoke k' ∨ x' = .drop k' →
        after (moves ++ [x] ++ later ++ [x']) j = after (moves ++ [x] ++ later) j

theorem shared (moves : List (Move Mounting)) (j : Journal) (n : Nat) : Shared moves j n := by
  rintro k r x hr rfl hx
  have hnext : scheme.ledger (moves ++ [x]) = { scheme.ledger moves with
      live := (scheme.ledger moves).live.filter fun e => e.seq != r.handle.number } := by
    rw [scheme.ledger_concat]
    exact scheme.next_of_use (issued_of_right hr) hx
  have hleft : after (moves ++ [x]) j = { after moves j with
      entries := (after moves j).entries.filter fun e => e.seq != r.handle.number } := by
    rw [after_eq, after_eq, hnext]
  have hmem : ∀ e, e ∈ (after (moves ++ [x]) j).entries ↔
      e ∈ (after moves j).entries ∧ e.seq ≠ r.handle.number := by
    intro e
    rw [hleft, List.mem_filter, bne_iff_ne]
  refine ⟨hleft, fun e he => ((hmem e).mp he).2, fun e he hne => (hmem e).mpr ⟨he, hne⟩,
    fun k' r' hr' hn later x' hx' => ?_⟩
  · have hissued : (scheme.ledger (moves ++ [x])).issued[k']? =
        some (r.handle.number, r'.isGuard) := by
      rw [hnext, ← hn]
      exact issued_of_right hr'
    refine after_void hissued (fun e he => ?_) later hx'
    rw [← scheme.mem_live_iff, hnext] at he
    simpa using (List.mem_filter.mp he).2

/-! ## The history of a mount -/

/-- What comes after the move `x`, of the table, the rights and the journal, is as if `x` had not
been asked for. -/
def AsUnasked (moves : List (Move Mounting)) (x : Move Mounting) (j : Journal) : Prop :=
  ∀ later,
    (desk.run { table := {} } (moves ++ x :: later)).value j =
      (desk.run { table := {} } (moves ++ later)).value j ∧
    (desk.run { table := {} } (moves ++ x :: later)).rest j =
      (desk.run { table := {} } (moves ++ later)).rest j

theorem board_concat (moves : List (Move Mounting)) (x : Move Mounting) (j : Journal) :
    let b : Board MountTable := ⟨after moves j, rightsAfter moves j⟩
    let step := desk.step b x
    after (moves ++ [x]) j = (step.value (journalAfter moves j)).table ∧
      rightsAfter (moves ++ [x]) j = (step.value (journalAfter moves j)).rights ∧
      journalAfter (moves ++ [x]) j = step.rest (journalAfter moves j) := by
  simp only [after, rightsAfter, journalAfter, Desk.after, Desk.run_concat, value_bind, rest_bind,
    and_self]

/-- **What a mount comes to, after any history.** It is refused exactly if its path does not begin
with a slash, or if another application holds the path with these scopes, whose name the error
tells; then the table, the numbers, the counters and all rights are for ever as if nobody had
asked. If the same application holds them, nothing changes, and the new right is one more to the
same entry, which goes with the first use of any right to it. Otherwise one entry is added, the
last and as it was asked for, and the right to it is the only one. -/
theorem mount_comes_to (moves : List (Move Mounting)) (m : Mounting) (g : Bool) (j : Journal) :
    let t := after moves j
    let now := moves ++ [.ask m g]
    let outcome := (t.grant m.application m.path m.options).value (journalAfter moves j)
    (∀ err, outcome = .error err ↔
      (Http.Target.startsWith m.path "/" = false ∧ err = .invalidPath m.path) ∨
      (Http.Target.startsWith m.path "/" = true ∧ ∃ e ∈ t.entries, e.path = m.path ∧
        e.scopes = m.options.scopes ∧ e.application.id ≠ m.application.id ∧
        err = .duplicate m.path m.options.scopes e.application.name)) ∧
    (∀ err, outcome = .error err → AsUnasked moves (.ask m g) j) ∧
    (∀ e ∈ t.entries, e.path = m.path → e.scopes = m.options.scopes →
      e.application.id = m.application.id →
      outcome = .ok (t, { number := e.seq }) ∧ after now j = t ∧
      rightsAfter now j = rightsAfter moves j ++ [⟨{ number := e.seq }, g⟩] ∧
      (journalAfter now j).metrics = (journalAfter moves j).metrics ∧ Shared now j e.seq) ∧
    (Http.Target.startsWith m.path "/" = true →
      (∀ e ∈ t.entries, ¬ (e.path = m.path ∧ e.scopes = m.options.scopes)) →
      outcome = .ok (after now j, { number := t.nextSeq }) ∧
      after now j = ⟨t.entries ++ [m.entry t.nextSeq], t.nextSeq + 1⟩ ∧
      rightsAfter now j = rightsAfter moves j ++ [⟨{ number := t.nextSeq }, g⟩] ∧
      (∀ r ∈ rightsAfter moves j, r.handle.number < t.nextSeq) ∧
      (journalAfter now j).metrics =
        { (journalAfter moves j).metrics with mounts := some (t.size + 1) }) := by
  intro t now outcome
  have ho : t.Orderly := orderly_after moves j
  have hgrant : outcome = _ := value_grant t m (journalAfter moves j)
  let b : Board MountTable := ⟨t, rightsAfter moves j⟩
  obtain ⟨htable, hrights, hjournal⟩ := board_concat moves (.ask m g) j
  refine ⟨fun err => ?_, fun err herr later => ?_, fun e he hpath hscopes hid => ?_,
    fun hp hfree => ?_⟩
  · rw [grant_eq_error_iff, ho.mount_eq_error_iff]
    refine or_congr_right ⟨?_, ?_⟩
    · rintro ⟨e, he, hheld, hid, rfl⟩
      obtain ⟨hpath, hscopes⟩ := Mounting.isHeldBy_iff.mp hheld
      exact ⟨hpath ▸ ho.rooted e he, e, he, hpath, hscopes, hid, rfl⟩
    · rintro ⟨-, e, he, hpath, hscopes, hid, rfl⟩
      exact ⟨e, he, Mounting.isHeldBy_iff.mpr ⟨hpath, hscopes⟩, hid, rfl⟩
  · exact desk.run_of_idle (step_ask_of_error (grant_eq_error_iff.mp herr) g _) later
  · have hm : t.mount m.application m.path m.options = .ok (.already e.seq) := by
      rw [ho.mount_of_held he (Mounting.isHeldBy_iff.mpr ⟨hpath, hscopes⟩), if_pos hid]
    obtain ⟨hvalue, hrest⟩ := step_ask_of_already (b := b) hm g (journalAfter moves j)
    rw [htable, hrights, hjournal, hvalue]
    exact ⟨by rw [hgrant, hm], rfl, rfl, hrest, shared _ _ _⟩
  · have hm : t.mount m.application m.path m.options =
        .ok (.added (t.add m.application m.path m.options)) :=
      mount_of_free hp fun e he => Bool.eq_false_iff.mpr fun hheld =>
        hfree e he (Mounting.isHeldBy_iff.mp hheld)
    obtain ⟨hvalue, hrest⟩ := step_ask_of_added (b := b) hm g (journalAfter moves j)
    have hsize : (t.add m.application m.path m.options).size = t.size + 1 := by
      simp only [size, add, List.length_append, List.length_singleton]
    rw [htable, hrights, hjournal, hvalue, hrest, hsize]
    exact ⟨by rw [hgrant, hm], rfl, rfl, fun r => number_lt_of_right, rfl⟩

end AppHost.MountTable
