import AppHost.Proofs.Mount.History
import Mathlib.Data.List.Pairwise

/-!
# What a mount table keeps

Entries stand in the order of their numbers, their paths begin with a slash, and no two of them have
both path and scopes in common (`Orderly`). The number of mounts that is reported is that of the
entries (`Counted`). Each operation keeps this, so that it holds after every history. It leaves no
more than two entries to compete for a connection: those of the longest path, one of them with all
scopes and one with the scope of the connection alone.
-/

namespace AppHost

/-- A kind is in two sets, that of all kinds and that of its own. -/
theorem ScopeSet.contains_iff {s : ScopeSet} {k : ScopeKind} :
    s.contains k = true ↔ s = .all ∨ s = .only k := by
  obtain ⟨http, webSocket, hne⟩ := s
  cases k <;> cases http <;> cases webSocket <;> simp_all [contains, all, only]

namespace MountTable

open Journaled

variable {t t' : MountTable} {scope : ScopeKind} {path : String} {e e' : MountEntry}

/-- The entries as they are meant to be. -/
structure Orderly (t : MountTable) : Prop where
  ascending : t.entries.Pairwise fun a b => a.seq < b.seq
  seq_lt : ∀ e ∈ t.entries, e.seq < t.nextSeq
  rooted : ∀ e ∈ t.entries, Http.Target.startsWith e.path "/" = true
  accepting : ∀ e ∈ t.entries, ∃ k, e.scopes.contains k = true
  unshared : t.entries.Pairwise fun a b => ¬ (a.path = b.path ∧ a.scopes = b.scopes)

/-- The number of mounts is reported as it is; it may go unreported as long as there are none. -/
structure Counted (t : MountTable) (j : Journal) : Prop where
  reported : ∀ n, j.metrics.mounts = some n → n = t.size
  unreported : j.metrics.mounts = none → t.entries = []

/-! ## Holders of a path -/

theorem holder?_eq_none_iff {scopes : ScopeSet} : t.holder? path scopes = none ↔
    ∀ e ∈ t.entries, ¬ (e.path = path ∧ e.scopes = scopes) := by
  rw [holder?, List.find?_eq_none]
  simp only [Bool.and_eq_true, beq_iff_eq]

namespace Orderly

theorem eq_of_path (h : t.Orderly) (he : e ∈ t.entries) (he' : e' ∈ t.entries)
    (hp : e.path = e'.path) (hs : e.scopes = e'.scopes) : e = e' := by
  have : Std.Symm fun a b : MountEntry => ¬ (a.path = b.path ∧ a.scopes = b.scopes) :=
    ⟨fun _ _ hne heq => hne ⟨heq.1.symm, heq.2.symm⟩⟩
  by_contra hne
  exact h.unshared.forall he he' hne ⟨hp, hs⟩

/-- The holder is the one entry with its path and scopes. -/
theorem holder?_eq_some_iff (h : t.Orderly) {scopes : ScopeSet} :
    t.holder? path scopes = some e ↔ e ∈ t.entries ∧ e.path = path ∧ e.scopes = scopes := by
  have hholds : ∀ {e}, t.holder? path scopes = some e →
      e ∈ t.entries ∧ e.path = path ∧ e.scopes = scopes := by
    intro e hf
    have hheld := List.find?_some hf
    rw [Bool.and_eq_true, beq_iff_eq, beq_iff_eq] at hheld
    exact ⟨List.mem_of_find?_eq_some hf, hheld⟩
  refine ⟨hholds, fun ⟨he, hp, hs⟩ => ?_⟩
  cases hf : t.holder? path scopes with
  | none => exact absurd ⟨hp, hs⟩ (holder?_eq_none_iff.mp hf e he)
  | some e' =>
    obtain ⟨he', hp', hs'⟩ := hholds hf
    rw [h.eq_of_path he he' (hp.trans hp'.symm) (hs.trans hs'.symm)]

/-! ## Single operations -/

theorem empty : Orderly {} where
  ascending := .nil
  seq_lt _ he := absurd he List.not_mem_nil
  rooted _ he := absurd he List.not_mem_nil
  accepting _ he := absurd he List.not_mem_nil
  unshared := .nil

/-- An entry is added where no other holds its path with its scopes. -/
theorem add (h : t.Orderly) {app : Application} {o : MountOptions}
    (hp : Http.Target.startsWith path "/" = true) (hf : t.holder? path o.scopes = none) :
    (t.add app path o).Orderly where
  ascending := by
    refine List.pairwise_append.mpr ⟨h.ascending, List.pairwise_singleton _ _, fun a ha b hb => ?_⟩
    rw [List.mem_singleton.mp hb]
    exact h.seq_lt a ha
  seq_lt e he := by
    rcases List.mem_append.mp he with he | he
    · exact Nat.lt_succ_of_lt (h.seq_lt e he)
    · rw [List.mem_singleton.mp he]
      exact Nat.lt_succ_self _
  rooted e he := by
    rcases List.mem_append.mp he with he | he
    · exact h.rooted e he
    · rw [List.mem_singleton.mp he]
      exact hp
  accepting e _ := e.scopes.exists_contains
  unshared := by
    refine List.pairwise_append.mpr ⟨h.unshared, List.pairwise_singleton _ _, fun a ha b hb => ?_⟩
    rw [List.mem_singleton.mp hb]
    exact holder?_eq_none_iff.mp hf a ha

/-- To take entries away disturbs nothing. -/
theorem filter (h : t.Orderly) (keep : MountEntry → Bool) :
    Orderly { t with entries := t.entries.filter keep } where
  ascending := h.ascending.filter keep
  seq_lt e he := h.seq_lt e (List.mem_of_mem_filter he)
  rooted e he := h.rooted e (List.mem_of_mem_filter he)
  accepting e he := h.accepting e (List.mem_of_mem_filter he)
  unshared := h.unshared.filter keep

theorem clear (h : t.Orderly) : t.clear.Orderly := by
  have hnone := h.filter fun _ => false
  rwa [List.filter_false] at hnone

end Orderly

/-- A mount that adds to the table asks for a path that begins with a slash and is not held. -/
theorem mount_eq_added {app : Application} {o : MountOptions}
    (h : t.mount app path o = .ok (.added t')) : Http.Target.startsWith path "/" = true ∧
      t.holder? path o.scopes = none ∧ t' = t.add app path o := by
  unfold mount at h
  split at h
  · cases h
  · rename_i hp
    split at h
    · split at h <;> cases h
    · rename_i hf
      cases h
      exact ⟨by simpa using hp, hf, rfl⟩

/-- What every operation keeps. -/
def Kept (t : MountTable) (j : Journal) : Prop := t.Orderly ∧ t.Counted j

theorem counted_setMounts (t : MountTable) (j : Journal) :
    t.Counted ((Journal.setMounts t.size).rest j) where
  reported _ hn := (Option.some.inj hn).symm
  unreported hn := by cases hn

theorem Kept.ask {j : Journal} (h : t.Kept j) (m : Mounting) :
    Kept ((desk.ask t m).value j).1 ((desk.ask t m).rest j) := by
  simp only [desk, grant]
  cases hm : t.mount m.application m.path m.options with
  | error e => exact h
  | ok r =>
    cases r with
    | already k => exact ⟨h.1, h.2.reported, h.2.unreported⟩
    | added t' =>
      obtain ⟨hp, hf, rfl⟩ := mount_eq_added hm
      exact ⟨h.1.add hp hf, counted_setMounts _ _⟩

theorem Kept.revoke {j : Journal} (h : t.Kept j) (r : Handle) :
    Kept ((t.revoke r).value j).1 ((t.revoke r).rest j) := by
  unfold MountTable.revoke
  split
  · exact h
  · exact ⟨h.1.filter _, (counted_setMounts _ j).reported, (counted_setMounts _ j).unreported⟩

theorem Kept.clear {j : Journal} (h : t.Kept j) :
    Kept (t.clearAll.value j) (t.clearAll.rest j) :=
  ⟨h.1.clear, counted_setMounts t.clear j⟩

/-! ## Entries that compete -/

/-- The entry accepts the connection, and none that does has a longer path. -/
structure Competes (t : MountTable) (scope : ScopeKind) (path : String) (e : MountEntry) :
    Prop where
  mem : e ∈ t.entries
  accepts : e.accepts scope path = true
  longest : ∀ e' ∈ t.entries, e'.accepts scope path = true →
    e'.path.utf8ByteSize ≤ e.path.utf8ByteSize

/-- The connection goes to one of those that compete for it. -/
theorem competes_of_lookup (h : t.lookup scope path = some e) : t.Competes scope path e := by
  obtain ⟨⟨hmem, hacc⟩, hmax⟩ := accepts_of_lookup h
  refine ⟨hmem, hacc, fun e' he' ha => ?_⟩
  have hrank := MountEntry.not_outranks_iff.mp (hmax e' he' ha)
  omega

theorem Competes.path_eq (h : t.Competes scope path e) (h' : t.Competes scope path e') :
    e'.path = e.path :=
  MountEntry.path_eq_of_accepts h'.accepts h.accepts
    (Nat.le_antisymm (h.longest e' h'.mem h'.accepts) (h'.longest e h.mem h.accepts))

/-- Those that compete have their path in common and accept the kind of the connection. -/
theorem Competes.iff (h : t.Competes scope path e) : t.Competes scope path e' ↔
    e' ∈ t.entries ∧ e'.path = e.path ∧ e'.scopes.contains scope = true := by
  refine ⟨fun h' => ⟨h'.mem, h.path_eq h', (MountEntry.accepts_iff.mp h'.accepts).1⟩, ?_⟩
  rintro ⟨hmem, hp, hs⟩
  refine ⟨hmem, MountEntry.accepts_iff.mpr ⟨hs, ?_⟩, fun e'' he'' ha => ?_⟩
  · rw [hp]
    exact (MountEntry.accepts_iff.mp h.accepts).2
  · rw [hp]
    exact h.longest e'' he'' ha

theorem Orderly.competes_iff (ho : t.Orderly) (h : t.Competes scope path e) :
    t.Competes scope path e' ↔
      t.holder? e.path .all = some e' ∨ t.holder? e.path (.only scope) = some e' := by
  rw [h.iff, ScopeSet.contains_iff, ho.holder?_eq_some_iff, ho.holder?_eq_some_iff]
  tauto

/-! ## After a history -/

/-- The journal after a history. -/
def journalAfter (moves : List (Move Mounting)) (j : Journal) : Journal :=
  (desk.run { table := {} } moves).rest j

theorem kept_after (moves : List (Move Mounting)) {j : Journal} (hj : j.metrics.mounts = none) :
    Kept (after moves j) (journalAfter moves j) :=
  Desk.run_induction (fun _ m _ h => h.ask m) (fun _ r _ h => h.revoke r) (fun _ _ h => h.clear)
    ⟨.empty, fun n hn => (by rw [hj] at hn; cases hn), fun _ => rfl⟩ moves

/-- **Every history leaves the table in order and counted.** Entries ascend by their numbers, none of
which is given out again, have rooted paths and some scope, and never share path and scopes. The
reported number of mounts is theirs, and none is reported only while there are none. So whatever the
connection, at most two entries compete for it at the longest path, the holder of that path for all
kinds and its holder for just this kind, and it goes to one of them. -/
theorem orderly_and_counted (moves : List (Move Mounting)) (j : Journal)
    (hj : j.metrics.mounts = none) :
    let t := after moves j
    t.Orderly ∧
    (∀ n, (journalAfter moves j).metrics.mounts = some n → n = t.size) ∧
    ((journalAfter moves j).metrics.mounts = none → t.entries = []) ∧
    ∀ scope path,
      (t.lookup scope path = none ∧ ∀ e, ¬ t.Competes scope path e) ∨
      ∃ e, t.lookup scope path = some e ∧ t.Competes scope path e ∧
        ∀ e', t.Competes scope path e' ↔
          t.holder? e.path .all = some e' ∨ t.holder? e.path (.only scope) = some e' := by
  intro t
  obtain ⟨horderly, hcounted⟩ := kept_after moves hj
  refine ⟨horderly, hcounted.reported, hcounted.unreported, fun scope path => ?_⟩
  cases hl : t.lookup scope path with
  | none =>
    refine .inl ⟨rfl, fun e he => ?_⟩
    have hnot := lookup_eq_none_iff.mp hl e he.mem
    rw [he.accepts] at hnot
    cases hnot
  | some e =>
    have he := competes_of_lookup hl
    exact .inr ⟨e, rfl, he, fun e' => horderly.competes_iff he⟩

/-- An application is mounted twice at a path, for all kinds and for one, and once more in vain; the
first right is used, and then the one that came third. -/
theorem orderly_and_counted_remounted :
    let m : Mounting := { application := .echo 0 "app", path := "/a" }
    let m' : Mounting := { m with options := { scopes := .only .http } }
    let moves : List (Move Mounting) :=
      [.ask m true, .ask m' false, .ask m false, .drop 0, .revoke 2]
    ({} : Journal).metrics.mounts = none ∧
      (journalAfter moves {}).metrics.mounts = some 1 ∧ (after moves {}).size = 1 := by
  intro m m' moves
  have hreported : (journalAfter moves {}).metrics.mounts = some 1 := by decide +kernel
  exact ⟨rfl, hreported, ((orderly_and_counted moves {} rfl).2.1 1 hreported).symm⟩

end MountTable

end AppHost
