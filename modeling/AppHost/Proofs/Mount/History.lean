import AppHost.Proofs.Mount.Lookup
import AppHost.Proofs.Rights.Desk

/-!
# Histories of a mount table

A mount table seen as a desk: one asks for an application to be mounted, and each granted mount
comes with a right to remove its entry. Mounting an application again where it is mounted already
gives a further right to the same entry. After every history the table holds exactly the live
entries in the order of their registration, so that `lookup` is a function of the history alone.
-/

namespace AppHost.MountTable

open Journaled

/-- What is asked for by a mount. -/
structure Mounting where
  application : Application
  path : String
  options : MountOptions := {}

namespace Mounting

/-- The entry that a mount makes, with the number `n`. -/
def entry (m : Mounting) (n : Nat) : MountEntry :=
  ⟨n, m.application, m.path, m.options.scopes, m.options.priority⟩

/-- Whether an entry holds the path with the scopes asked for. -/
def isHeldBy (m : Mounting) (e : MountEntry) : Bool :=
  e.path == m.path && e.scopes == m.options.scopes

theorem isHeldBy_iff {m : Mounting} {e : MountEntry} :
    m.isHeldBy e = true ↔ e.path = m.path ∧ e.scopes = m.options.scopes := by
  rw [isHeldBy, Bool.and_eq_true, beq_iff_eq, beq_iff_eq]

/-- The entry mounts the application that `m` asks for, at its path and with its scopes. -/
structure IsMetBy (m : Mounting) (e : MountEntry) : Prop where
  id : e.application.id = m.application.id
  path : e.path = m.path
  scopes : e.scopes = m.options.scopes

end Mounting

/-- Mounts. -/
def desk : Desk MountTable Mounting where
  ask t m := do
    match ← t.grant m.application m.path m.options with
    | .ok (t', h) => return (t', some h)
    | .error _ => return (t, none)
  revoke := MountTable.revoke
  clear := MountTable.clearAll

/-- A mount is refused unless its path begins with a slash. If its path with its scopes is held, it
is a further right for the application that holds them, and refused to any other. -/
def answer (live : List MountEntry) (n : Nat) (m : Mounting) : Answer MountEntry :=
  if Http.Target.startsWith m.path "/" then
    match live.find? m.isHeldBy with
    | some e => if e.application.id = m.application.id then .again e.seq else .refused
    | none => .opened (m.entry n)
  else .refused

/-- An entry is made where nothing is held. -/
theorem answer_eq_opened_iff {live : List MountEntry} {n : Nat} {m : Mounting} {e : MountEntry} :
    answer live n m = .opened e ↔ Http.Target.startsWith m.path "/" = true ∧
      (∀ e' ∈ live, ¬ (e'.path = m.path ∧ e'.scopes = m.options.scopes)) ∧ e = m.entry n := by
  have hfree : live.find? m.isHeldBy = none ↔
      ∀ e' ∈ live, ¬ (e'.path = m.path ∧ e'.scopes = m.options.scopes) := by
    simp only [List.find?_eq_none, Mounting.isHeldBy_iff]
  rw [← hfree, answer]
  cases hp : Http.Target.startsWith m.path "/" with
  | false => simp
  | true =>
    cases hf : live.find? m.isHeldBy with
    | none => simp [eq_comm]
    | some e' =>
      by_cases hid : e'.application.id = m.application.id <;> simp [hid]

theorem answer_eq_again {live : List MountEntry} {n k : Nat} {m : Mounting}
    (h : answer live n m = .again k) : ∃ e ∈ live, e.seq = k ∧ m.IsMetBy e := by
  rw [answer] at h
  split at h
  · split at h
    · rename_i e he
      obtain ⟨hp, hs⟩ := Mounting.isHeldBy_iff.mp (List.find?_some he)
      split at h
      · rename_i hid
        cases h
        exact ⟨e, List.mem_of_find?_eq_some he, rfl, hid, hp, hs⟩
      · cases h
    · cases h
  · cases h

def scheme : Scheme Mounting MountEntry where
  number := MountEntry.seq
  answer := answer
  number_opened h := by
    obtain ⟨-, -, rfl⟩ := answer_eq_opened_iff.mp h
    rfl
  number_again h := by
    obtain ⟨e, he, hk, -⟩ := answer_eq_again h
    exact ⟨e, he, hk⟩

/-- A move opens an entry if it is a mount whose path begins with a slash and is not held with the
same scopes. The entry takes the next number. -/
theorem opens_iff {moves : List (Move Mounting)} {m : Move Mounting} {e : MountEntry} :
    scheme.Opens moves m e ↔ ∃ r isGuard, m = .ask r isGuard ∧
      Http.Target.startsWith r.path "/" = true ∧
      (∀ e', scheme.IsLive moves e' → ¬ (e'.path = r.path ∧ e'.scopes = r.options.scopes)) ∧
      e = r.entry (scheme.ledger moves).opened := by
  refine exists_congr fun r => exists_congr fun g => and_congr_right fun _ => ?_
  simp only [← scheme.mem_live_iff]
  exact answer_eq_opened_iff

/-- The paths of entries begin with a slash. -/
theorem startsWith_of_isLive {moves : List (Move Mounting)} {e : MountEntry}
    (h : scheme.IsLive moves e) : Http.Target.startsWith e.path "/" = true := by
  obtain ⟨before, x, since, -, ho, -⟩ := h
  obtain ⟨r, g, -, hp, -, rfl⟩ := opens_iff.mp ho
  exact hp

/-- So a path that does not begin with a slash matches nothing. -/
theorem startsWith_of_prefix {moves : List (Move Mounting)} {e : MountEntry} {path : String}
    (h : scheme.IsLive moves e) (hp : e.path.toList <+: path.toList) :
    Http.Target.startsWith path "/" = true := by
  have hslash := startsWith_of_isLive h
  rw [Http.Target.startsWith_iff_prefix_toList] at hslash ⊢
  exact hslash.trans hp

/-- A path with given scopes has at most one entry. -/
theorem eq_of_isLive {moves : List (Move Mounting)} {e e' : MountEntry}
    (h : scheme.IsLive moves e) (h' : scheme.IsLive moves e') (hp : e.path = e'.path)
    (hs : e.scopes = e'.scopes) : e = e' := by
  induction moves using List.reverseRecOn with
  | nil => exact absurd h (scheme.not_isLive_nil e)
  | append_singleton moves x ih =>
    rcases scheme.isLive_concat.mp h with ho | ⟨hl, -⟩
    · obtain ⟨r, g, rfl, -, hfree, rfl⟩ := opens_iff.mp ho
      rcases scheme.isLive_concat.mp h' with ho' | ⟨hl', -⟩
      · obtain ⟨r', g', hr, -, -, rfl⟩ := opens_iff.mp ho'
        cases hr
        rfl
      · exact absurd ⟨hp.symm, hs.symm⟩ (hfree e' hl')
    · rcases scheme.isLive_concat.mp h' with ho' | ⟨hl', -⟩
      · obtain ⟨r, g, rfl, -, hfree, rfl⟩ := opens_iff.mp ho'
        exact absurd ⟨hp, hs⟩ (hfree e hl)
      · exact ih hl hl'

/-! ## The table shows its history -/

/-- The table has the entries `live` and gives the next one the number `n`. -/
def Shows (t : MountTable) (live : List MountEntry) (n : Nat) : Prop := t = ⟨live, n⟩

/-- What the answer tells about `mount`. -/
theorem mount_eq (live : List MountEntry) (n : Nat) (m : Mounting) :
    (∃ e, (⟨live, n⟩ : MountTable).mount m.application m.path m.options = .error e ∧
      answer live n m = .refused) ∨
    (∃ k, (⟨live, n⟩ : MountTable).mount m.application m.path m.options = .ok (.already k) ∧
      answer live n m = .again k) ∨
    ((⟨live, n⟩ : MountTable).mount m.application m.path m.options =
        .ok (.added ⟨live ++ [m.entry n], n + 1⟩) ∧ answer live n m = .opened (m.entry n)) := by
  have hheld : (⟨live, n⟩ : MountTable).holder? m.path m.options.scopes =
      live.find? m.isHeldBy := rfl
  rw [mount, answer, hheld]
  cases hp : Http.Target.startsWith m.path "/" with
  | false => exact .inl ⟨_, rfl, rfl⟩
  | true =>
    cases hf : live.find? m.isHeldBy with
    | none => exact .inr (.inr ⟨rfl, rfl⟩)
    | some e =>
      by_cases hid : e.application.id = m.application.id
      · exact .inr (.inl ⟨e.seq, if_pos hid, if_pos hid⟩)
      · exact .inl ⟨_, if_neg hid, if_neg hid⟩

/-- A mount leaves the table and hands out the right that the answer tells. -/
theorem value_ask (live : List MountEntry) (n : Nat) (m : Mounting) (j : Journal) :
    (desk.ask ⟨live, n⟩ m).value j =
      match answer live n m with
      | .refused => (⟨live, n⟩, none)
      | .again k => (⟨live, n⟩, some { number := k })
      | .opened e => (⟨live ++ [e], n + 1⟩, some { number := n }) := by
  rcases mount_eq live n m with ⟨e, hm, ha⟩ | ⟨k, hm, ha⟩ | ⟨hm, ha⟩
  all_goals
    simp only [desk, grant, hm, ha]
    rfl

theorem value_revoke (t : MountTable) (h : Handle) (j : Journal) :
    (t.revoke h).value j =
      if h.revoked || !t.contains h.number then (t, h.used) else (t.remove h.number, h.used) := by
  simp only [revoke]
  split <;> rfl

theorem contains_eq_false_iff {t : MountTable} {n : Nat} :
    t.contains n = false ↔ ∀ e ∈ t.entries, e.seq ≠ n := by
  rw [contains, List.any_eq_false]
  simp only [beq_iff_eq]

/-- An entry that is not there need not be removed. -/
theorem remove_of_not_contains {t : MountTable} {n : Nat} (h : t.contains n = false) :
    t.remove n = t := by
  have hall := contains_eq_false_iff.mp h
  rw [remove, List.filter_eq_self.mpr fun e he => by simpa using hall e he]

/-- The operations of a mount table do what the scheme tells. -/
theorem desk_keeps : desk.Keeps scheme Shows where
  refused {t live n a} hs ha j := by
    cases hs
    rw [value_ask, show answer live n a = .refused from ha]
  again {t live n a m} hs ha j := by
    cases hs
    rw [value_ask, show answer live n a = .again m from ha]
  opened {t live n a e} hs ha j := by
    cases hs
    rw [value_ask, show answer live n a = .opened e from ha]
    exact ⟨_, rfl, rfl⟩
  revoke {t live n h} hs hn hr j := by
    cases hs
    refine ⟨(⟨live, n⟩ : MountTable).remove h.number, ?_, rfl⟩
    show (MountTable.revoke ⟨live, n⟩ h).value j = _
    rw [value_revoke, hr, Bool.false_or]
    cases hc : (⟨live, n⟩ : MountTable).contains h.number with
    | false => rw [remove_of_not_contains hc]; rfl
    | true => rfl
  void {t live n h} hs hv j := by
    cases hs
    show (MountTable.revoke ⟨live, n⟩ h).value j = _
    have hgone : (h.revoked || !(⟨live, n⟩ : MountTable).contains h.number) = true := by
      rcases hv with hr | hg
      · rw [hr, Bool.true_or]
      · have hc : (⟨live, n⟩ : MountTable).contains h.number = false :=
          contains_eq_false_iff.mpr hg
        rw [hc, Bool.not_false, Bool.or_true]
    rw [value_revoke, if_pos hgone]
  clear hs j := by
    cases hs
    rfl

/-- The table after a history. -/
def after (moves : List (Move Mounting)) (j : Journal) : MountTable := (desk.after {} moves j).table

theorem after_eq (moves : List (Move Mounting)) (j : Journal) :
    after moves j = ⟨(scheme.ledger moves).live, (scheme.ledger moves).opened⟩ :=
  (Desk.agrees_after desk_keeps rfl moves j).shows

theorem mem_after_iff {moves : List (Move Mounting)} {j : Journal} {e : MountEntry} :
    e ∈ (after moves j).entries ↔ scheme.IsLive moves e := by
  rw [after_eq, scheme.mem_live_iff]

theorem nodup_after (moves : List (Move Mounting)) (j : Journal) :
    ((after moves j).entries.map MountEntry.seq).Nodup := by
  rw [after_eq]
  exact (scheme.sound_ledger moves).nodup

/-! ## Lookup after a history -/

theorem lookup_after_eq_none_iff {moves : List (Move Mounting)} {j : Journal} {scope : ScopeKind}
    {path : String} : (after moves j).lookup scope path = none ↔
      ∀ e, scheme.IsLive moves e → e.accepts scope path = false := by
  rw [lookup_eq_none_iff]
  exact forall_congr' fun _ => imp_congr_left mem_after_iff

theorem lookup_after_eq_some_iff {moves : List (Move Mounting)} {j : Journal} {scope : ScopeKind}
    {path : String} {e : MountEntry} : (after moves j).lookup scope path = some e ↔
      (scheme.IsLive moves e ∧ e.accepts scope path = true) ∧
        ∀ e', scheme.IsLive moves e' → e'.accepts scope path = true → e'.outranks e = false := by
  rw [lookup_eq_some_iff (nodup_after moves j), mem_after_iff]
  exact and_congr_right fun _ => forall_congr' fun _ => imp_congr_left mem_after_iff

/-- A connection that a live entry accepts goes to that entry or to one that outranks it. -/
theorem lookup_of_isLive {moves : List (Move Mounting)} {j : Journal} {e : MountEntry}
    {scope : ScopeKind} {path : String} (h : scheme.IsLive moves e)
    (ha : e.accepts scope path = true) :
    ∃ e', (after moves j).lookup scope path = some e' ∧ (e' = e ∨ e'.outranks e = true) := by
  cases hl : (after moves j).lookup scope path with
  | none =>
    have hnone := lookup_after_eq_none_iff.mp hl e h
    rw [ha] at hnone
    cases hnone
  | some e' =>
    obtain ⟨⟨hlive, -⟩, hmax⟩ := lookup_after_eq_some_iff.mp hl
    refine ⟨e', rfl, ?_⟩
    cases ho : e'.outranks e with
    | true => exact .inr rfl
    | false =>
      have hseq : e'.seq = e.seq := MountEntry.seq_eq_of_not_outranks ho (hmax e h ha)
      exact .inl (List.inj_on_of_nodup_map (nodup_after moves j) (mem_after_iff.mpr hlive)
        (mem_after_iff.mpr h) hseq)

/-- A right to an entry that is gone never changes the table again. -/
theorem after_void {moves : List (Move Mounting)} {j : Journal} {k n : Nat} {g : Bool}
    (hk : (scheme.ledger moves).issued[k]? = some (n, g))
    (hg : ∀ e, scheme.IsLive moves e → e.seq ≠ n) (later : List (Move Mounting))
    {m : Move Mounting} (hm : m = .revoke k ∨ m = .drop k) :
    after (moves ++ later ++ [m]) j = after (moves ++ later) j :=
  Desk.after_of_gone desk_keeps rfl hk hg later hm j

/-- **Lookup is a function of the history alone.** The table holds the live entries. A connection
goes to the one of longest path among those that accept it, then of highest priority, then
registered first, and nowhere if there is none. A right whose entry is gone removes nothing, however
the table is used since. -/
theorem lookup_of_history (moves : List (Move Mounting)) (j : Journal) (scope : ScopeKind)
    (path : String) :
    let t := after moves j
    let Live := scheme.IsLive moves
    let Matches := fun e : MountEntry =>
      Live e ∧ e.scopes.contains scope = true ∧ e.path.toList <+: path.toList
    (∀ e, e ∈ t.entries ↔ Live e) ∧
    (t.lookup scope path = none ↔ ∀ e, ¬ Matches e) ∧
    (∀ e, t.lookup scope path = some e ↔ Matches e ∧ ∀ e', Matches e' →
      e'.path.utf8ByteSize < e.path.utf8ByteSize ∨ (e'.path.utf8ByteSize = e.path.utf8ByteSize ∧
        (e'.priority < e.priority ∨ (e'.priority = e.priority ∧ e.seq ≤ e'.seq)))) ∧
    (∀ k n g, (scheme.ledger moves).issued[k]? = some (n, g) → (∀ e, Live e → e.seq ≠ n) →
      ∀ later m, m = .revoke k ∨ m = .drop k →
        after (moves ++ later ++ [m]) j = after (moves ++ later) j) := by
  refine ⟨fun _ => mem_after_iff, ?_, fun e => ?_, fun k n g hk hg later m hm =>
    after_void hk hg later hm⟩
  · rw [lookup_after_eq_none_iff]
    refine forall_congr' fun e => ?_
    rw [not_and, ← MountEntry.accepts_iff, Bool.not_eq_true]
  · rw [lookup_after_eq_some_iff, MountEntry.accepts_iff]
    refine and_congr_right fun _ => forall_congr' fun e' => ?_
    rw [and_imp, MountEntry.accepts_iff, MountEntry.not_outranks_iff]

/-- A handle from before a clear does not remove the entry that takes the place of its own. -/
theorem lookup_of_history_cleared :
    let m : Mounting := { application := .echo 0 "app", path := "/a" }
    let moves : List (Move Mounting) := [.ask m false, .clear]
    (scheme.ledger moves).issued[0]? = some (0, false) ∧ (∀ e, ¬ scheme.IsLive moves e) ∧
      after (moves ++ [.ask m false] ++ [.revoke 0]) {} = after (moves ++ [.ask m false]) {} := by
  intro m moves
  have hissued : (scheme.ledger moves).issued[0]? = some (0, false) := by decide +kernel
  have hnone : ∀ e, ¬ scheme.IsLive moves e := fun e he => by
    have hlive : (scheme.ledger moves).live = [] :=
      List.length_eq_zero_iff.mp (by decide +kernel)
    rw [← scheme.mem_live_iff, hlive] at he
    cases he
  exact ⟨hissued, hnone, (lookup_of_history moves {} .http "").2.2.2 0 0 false hissued
    (fun e he => absurd he (hnone e)) [.ask m false] (.revoke 0) (.inl rfl)⟩

end AppHost.MountTable
