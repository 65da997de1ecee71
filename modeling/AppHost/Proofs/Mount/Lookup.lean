import AppHost.Mount.Table
import Mathlib.Data.List.Nodup

/-!
# Lookup

Among entries with distinct numbers, outranking is a strict total order. `lookup` takes the highest
of the entries that accept the connection (`lookup_eq_some_iff`), and there is one unless none
accepts it (`lookup_eq_none_iff`).
-/

namespace AppHost

namespace MountEntry

variable {a b c e : MountEntry}

/-- A connection is accepted if its kind is in the scopes and its path begins with that of the
entry. -/
theorem accepts_iff {scope : ScopeKind} {path : String} :
    e.accepts scope path = true ↔
      e.scopes.contains scope = true ∧ e.path.toList <+: path.toList := by
  rw [accepts, Bool.and_eq_true, Http.Target.startsWith_iff_prefix_toList]

/-- The prefix of a text is told by its length. -/
theorem eq_of_begins {p q : String} (h : p.toList <+: q.toList)
    (hs : p.utf8ByteSize = q.utf8ByteSize) : p = q := by
  obtain ⟨t, ht⟩ := h
  have hq : q = p ++ String.ofList t := by
    rw [← String.toList_inj, String.toList_append, String.toList_ofList, ht]
  rw [hq, String.utf8ByteSize_append] at hs
  have hempty : (String.ofList t).utf8ByteSize = 0 := by omega
  rw [hq, String.utf8ByteSize_eq_zero_iff.mp hempty, String.append_empty]

/-- Entries that accept the same path at the same length have their own path in common. -/
theorem path_eq_of_accepts {k k' : ScopeKind} {path : String} (ha : a.accepts k path = true)
    (hb : b.accepts k' path = true) (hs : a.path.utf8ByteSize = b.path.utf8ByteSize) :
    a.path = b.path := by
  rcases List.prefix_or_prefix_of_prefix (accepts_iff.mp ha).2 (accepts_iff.mp hb).2 with h | h
  · exact eq_of_begins h hs
  · exact (eq_of_begins h hs.symm).symm

/-! ## The order of entries -/

theorem outranks_iff : a.outranks b = true ↔
    b.path.utf8ByteSize < a.path.utf8ByteSize ∨ (b.path.utf8ByteSize = a.path.utf8ByteSize ∧
      (b.priority < a.priority ∨ (b.priority = a.priority ∧ a.seq < b.seq))) := by
  simp only [outranks, Bool.or_eq_true, Bool.and_eq_true, decide_eq_true_eq, beq_iff_eq]
  omega

theorem not_outranks_iff : a.outranks b = false ↔
    a.path.utf8ByteSize < b.path.utf8ByteSize ∨ (a.path.utf8ByteSize = b.path.utf8ByteSize ∧
      (a.priority < b.priority ∨ (a.priority = b.priority ∧ b.seq ≤ a.seq))) := by
  rw [← Bool.not_eq_true, outranks_iff]
  omega

theorem not_outranks_self (a : MountEntry) : a.outranks a = false := by
  rw [not_outranks_iff]
  omega

theorem not_outranks_of_outranks (h : a.outranks b = true) : b.outranks a = false := by
  rw [outranks_iff] at h
  rw [not_outranks_iff]
  omega

theorem not_outranks_trans (hab : a.outranks b = false) (hbc : b.outranks c = false) :
    a.outranks c = false := by
  rw [not_outranks_iff] at hab hbc ⊢
  omega

/-- Two entries of which neither outranks the other have the same number. -/
theorem seq_eq_of_not_outranks (hab : a.outranks b = false) (hba : b.outranks a = false) :
    a.seq = b.seq := by
  rw [not_outranks_iff] at hab hba
  omega

end MountEntry

namespace MountTable

open MountEntry

/-! ## The best of a list -/

theorem best_eq_none_iff {leader : Option MountEntry} {es : List MountEntry} :
    best leader es = none ↔ leader = none ∧ es = [] := by
  induction es generalizing leader with
  | nil => simp [best]
  | cons e es ih => cases leader <;> simp [best, ih]

/-- The best is the leader or from the list, and neither the leader nor anything in the list
outranks it. -/
theorem best_eq_some {leader : Option MountEntry} {es : List MountEntry} {e : MountEntry}
    (h : best leader es = some e) :
    (leader = some e ∨ e ∈ es) ∧ (∀ b, leader = some b → b.outranks e = false) ∧
      ∀ e' ∈ es, e'.outranks e = false := by
  induction es generalizing leader with
  | nil =>
    cases leader with
    | none => cases h
    | some b =>
      cases h
      refine ⟨.inl rfl, fun b hb => ?_, fun e' he' => nomatch he'⟩
      cases hb
      exact not_outranks_self _
  | cons x es ih =>
    cases leader with
    | none =>
      obtain ⟨hmem, hlead, hall⟩ := ih h
      refine ⟨.inr ?_, by simp, ?_⟩
      · rcases hmem with hx | hmem
        · cases hx
          exact List.mem_cons_self
        · exact List.mem_cons_of_mem x hmem
      · rw [List.forall_mem_cons]
        exact ⟨hlead x rfl, hall⟩
    | some b =>
      obtain ⟨hmem, hlead, hall⟩ := ih h
      have hwin := hlead _ rfl
      -- whichever of the two leads from here on, the other one does not outrank it
      have hboth : b.outranks e = false ∧ x.outranks e = false := by
        cases hx : x.outranks b with
        | true =>
          rw [if_pos hx] at hwin
          exact ⟨not_outranks_trans (not_outranks_of_outranks hx) hwin, hwin⟩
        | false =>
          rw [if_neg (by simp [hx])] at hwin
          exact ⟨hwin, not_outranks_trans hx hwin⟩
      refine ⟨?_, fun b' hb => ?_, ?_⟩
      · rcases hmem with hx | hmem
        · split at hx
          · cases hx
            exact .inr List.mem_cons_self
          · exact .inl hx
        · exact .inr (List.mem_cons_of_mem x hmem)
      · cases hb
        exact hboth.1
      · rw [List.forall_mem_cons]
        exact ⟨hboth.2, hall⟩

/-! ## The entry that a connection goes to -/

variable {t : MountTable} {scope : ScopeKind} {path : String} {e : MountEntry}

theorem lookup_eq_none_iff :
    t.lookup scope path = none ↔ ∀ e ∈ t.entries, e.accepts scope path = false := by
  rw [lookup, best_eq_none_iff, List.filter_eq_nil_iff]
  simp only [true_and, Bool.not_eq_true]

/-- A connection goes to an entry that accepts it, and that no other outranks which does. -/
theorem accepts_of_lookup (h : t.lookup scope path = some e) :
    (e ∈ t.entries ∧ e.accepts scope path = true) ∧
      ∀ e' ∈ t.entries, e'.accepts scope path = true → e'.outranks e = false := by
  obtain ⟨hmem, -, hall⟩ := best_eq_some h
  have hmem := List.mem_filter.mp (hmem.resolve_left fun h => nomatch h)
  exact ⟨hmem, fun e' he' ha => hall e' (List.mem_filter.mpr ⟨he', ha⟩)⟩

theorem lookup_eq_some_iff (hn : (t.entries.map MountEntry.seq).Nodup) :
    t.lookup scope path = some e ↔ (e ∈ t.entries ∧ e.accepts scope path = true) ∧
      ∀ e' ∈ t.entries, e'.accepts scope path = true → e'.outranks e = false := by
  refine ⟨accepts_of_lookup, fun ⟨⟨hmem, hacc⟩, hmax⟩ => ?_⟩
  cases hl : t.lookup scope path with
  | none =>
    rw [lookup_eq_none_iff.mp hl e hmem] at hacc
    cases hacc
  | some e0 =>
    obtain ⟨⟨hmem0, hacc0⟩, hmax0⟩ := accepts_of_lookup hl
    have hseq := seq_eq_of_not_outranks (hmax0 e hmem hacc) (hmax e0 hmem0 hacc0)
    rw [List.inj_on_of_nodup_map hn hmem hmem0 hseq]

end MountTable

end AppHost
