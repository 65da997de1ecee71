import AppHost.Proofs.Mount.History
import Mathlib.Data.List.Pairwise

/-!
# The order of mounting

Mounts that are set apart by path and scopes, and by priority where they could compete, may be made
in any order. Of those that match a connection one prevails, by its path and its priority alone
(`Prevails`), and what prevails among the mounts depends on which they are and not on their order
(`prevails_of_perm`). The entry that a connection goes to was made by the mount that prevails.
-/

namespace AppHost.MountTable

variable {ms ms' : List Mounting} {m m' : Mounting} {j j' : Journal} {scope : ScopeKind}
  {path : String} {e : MountEntry}

namespace Mounting

def accepts (m : Mounting) (scope : ScopeKind) (path : String) : Bool :=
  m.options.scopes.contains scope && Http.Target.startsWith path m.path

theorem accepts_iff : m.accepts scope path = true ↔
    m.options.scopes.contains scope = true ∧ m.path.toList <+: path.toList :=
  MountEntry.accepts_iff (e := m.entry 0)

/-- Two mounts with the path in common and some kind of connection as well. -/
def Meets (a b : Mounting) : Prop :=
  a.path = b.path ∧ ∃ k, a.options.scopes.contains k = true ∧ b.options.scopes.contains k = true

theorem Meets.symm {a b : Mounting} (h : a.Meets b) : b.Meets a := by
  obtain ⟨hp, k, ha, hb⟩ := h
  exact ⟨hp.symm, k, hb, ha⟩

/-- Longer path, or higher priority at the same path. -/
def Beats (a b : Mounting) : Prop :=
  b.path.utf8ByteSize < a.path.utf8ByteSize ∨
    (b.path = a.path ∧ b.options.priority < a.options.priority)

theorem Beats.asymm {a b : Mounting} (h : a.Beats b) : ¬ b.Beats a := by
  have hsize : b.path = a.path → b.path.utf8ByteSize = a.path.utf8ByteSize := congrArg _
  rintro (h' | ⟨hp', h'⟩)
  · rcases h with h | ⟨hp, -⟩
    · omega
    · have := hsize hp
      omega
  · rcases h with h | ⟨-, h⟩
    · have := hsize hp'.symm
      omega
    · omega

end Mounting

/-- Mounts that are legal and told apart without regard to their order. -/
structure Distinguished (ms : List Mounting) : Prop where
  rooted : ∀ m ∈ ms, Http.Target.startsWith m.path "/" = true
  distinct : ms.Pairwise fun a b => ¬ (a.path = b.path ∧ a.options.scopes = b.options.scopes)
  ranked : ms.Pairwise fun a b => a.Meets b → a.options.priority ≠ b.options.priority

namespace Distinguished

theorem of_perm (h : Distinguished ms) (hp : ms.Perm ms') : Distinguished ms' where
  rooted m hm := h.rooted m (hp.mem_iff.mpr hm)
  distinct := (hp.pairwise_iff fun hne heq => hne ⟨heq.1.symm, heq.2.symm⟩).mp h.distinct
  ranked := (hp.pairwise_iff fun hne hm => (hne hm.symm).symm).mp h.ranked

theorem of_append {a b : List Mounting} (h : Distinguished (a ++ b)) : Distinguished a where
  rooted m hm := h.rooted m (List.mem_append_left b hm)
  distinct := (List.pairwise_append.mp h.distinct).1
  ranked := (List.pairwise_append.mp h.ranked).1

theorem priority_ne (h : Distinguished ms) (hm : m ∈ ms) (hm' : m' ∈ ms) (hne : m ≠ m')
    (hmeet : m.Meets m') : m.options.priority ≠ m'.options.priority := by
  have : Std.Symm fun a b : Mounting => a.Meets b → a.options.priority ≠ b.options.priority :=
    ⟨fun _ _ hpr hm => (hpr hm.symm).symm⟩
  exact h.ranked.forall hm hm' hne hmeet

end Distinguished

/-- The mount matches the connection, and beats all others that do. -/
structure Prevails (ms : List Mounting) (scope : ScopeKind) (path : String) (m : Mounting) :
    Prop where
  mem : m ∈ ms
  accepts : m.accepts scope path = true
  beats : ∀ m' ∈ ms, m'.accepts scope path = true → m' = m ∨ m.Beats m'

theorem Prevails.unique (h : Prevails ms scope path m) (h' : Prevails ms scope path m') :
    m = m' := by
  rcases h.beats m' h'.mem h'.accepts with heq | hbeats
  · exact heq.symm
  · exact (h'.beats m h.mem h.accepts).resolve_right hbeats.asymm

/-- Whether a mount prevails does not depend on the order of the mounts. -/
theorem prevails_of_perm (hp : ms.Perm ms') (h : Prevails ms scope path m) :
    Prevails ms' scope path m :=
  ⟨hp.mem_iff.mp h.mem, h.accepts, fun m' hm' => h.beats m' (hp.mem_iff.mpr hm')⟩

/-! ## One mount after another -/

/-- The history in which the mounts are made one after another. -/
def mountings (ms : List Mounting) : List (Move Mounting) := ms.map fun m => .ask m false

/-- No mount is refused, and none is taken for one made before. -/
theorem ledger_mountings (h : Distinguished ms) :
    (scheme.ledger (mountings ms)).live = ms.mapIdx (fun i m => m.entry i) ∧
      (scheme.ledger (mountings ms)).opened = ms.length := by
  induction ms using List.reverseRecOn with
  | nil => exact ⟨rfl, rfl⟩
  | append_singleton ms m ih =>
    obtain ⟨hlive, hopened⟩ := ih h.of_append
    have hfree : ∀ e ∈ ms.mapIdx (fun i m => m.entry i),
        ¬ (e.path = m.path ∧ e.scopes = m.options.scopes) := by
      intro e he
      obtain ⟨i, hi, rfl⟩ := List.mem_mapIdx.mp he
      exact (List.pairwise_append.mp h.distinct).2.2 ms[i] (List.getElem_mem hi) m
        (List.mem_singleton_self m)
    have hopens : scheme.answer (ms.mapIdx fun i m => m.entry i) ms.length m =
        .opened (m.entry ms.length) :=
      answer_eq_opened_iff.mpr ⟨h.rooted m (List.mem_append_right ms (List.mem_singleton_self m)),
        hfree, rfl⟩
    have hmoves : mountings (ms ++ [m]) = mountings ms ++ [.ask m false] := List.map_append
    rw [hmoves, scheme.ledger_concat]
    simp only [Scheme.next, hlive, hopened, hopens, List.mapIdx_concat, List.length_append,
      List.length_singleton, and_self]

theorem mem_after_mountings (h : Distinguished ms) :
    e ∈ (after (mountings ms) j).entries ↔ ∃ i, ∃ hi : i < ms.length, ms[i].entry i = e := by
  rw [after_eq]
  show e ∈ (scheme.ledger (mountings ms)).live ↔ _
  rw [(ledger_mountings h).1, List.mem_mapIdx]

/-- What an entry does not outrank among those that match, its mount beats. -/
theorem prevails_of_lookup (h : Distinguished ms)
    (hl : (after (mountings ms) j).lookup scope path = some e) :
    ∃ m, Prevails ms scope path m ∧ e.application = m.application := by
  obtain ⟨⟨hmem, hacc⟩, hmax⟩ := accepts_of_lookup hl
  obtain ⟨i, hi, rfl⟩ := (mem_after_mountings h).mp hmem
  refine ⟨ms[i], ⟨List.getElem_mem hi, hacc, fun m' hm' ha => ?_⟩, rfl⟩
  obtain ⟨i', hi', rfl⟩ := List.getElem_of_mem hm'
  have hrank := MountEntry.not_outranks_iff.mp
    (hmax _ ((mem_after_mountings h).mpr ⟨i', hi', rfl⟩) ha)
  by_cases heq : ms[i'] = ms[i]
  · exact .inl heq
  · refine .inr ?_
    rcases hrank with hlt | ⟨hsize, hprio⟩
    · exact .inl hlt
    · -- at the same length the paths are the same, so that the priorities differ
      have hpath : ms[i'].path = ms[i].path :=
        MountEntry.path_eq_of_accepts (a := ms[i'].entry i') (b := ms[i].entry i) ha hacc hsize
      have hne := h.priority_ne hm' (List.getElem_mem hi) heq
        ⟨hpath, scope, (Mounting.accepts_iff.mp ha).1, (Mounting.accepts_iff.mp hacc).1⟩
      exact .inr ⟨hpath, hprio.resolve_right fun heq' => hne heq'.1⟩

theorem lookup_mountings_eq_none_iff (h : Distinguished ms) :
    (after (mountings ms) j).lookup scope path = none ↔
      ∀ m ∈ ms, m.accepts scope path = false := by
  rw [lookup_eq_none_iff]
  constructor
  · intro hall m hm
    obtain ⟨i, hi, rfl⟩ := List.getElem_of_mem hm
    exact hall _ ((mem_after_mountings h).mpr ⟨i, hi, rfl⟩)
  · intro hall e he
    obtain ⟨i, hi, rfl⟩ := (mem_after_mountings h).mp he
    exact hall ms[i] (List.getElem_mem hi)

/-- The application that a connection goes to. -/
def destination (ms : List Mounting) (j : Journal) (scope : ScopeKind) (path : String) :
    Option Application :=
  ((after (mountings ms) j).lookup scope path).map MountEntry.application

theorem destination_eq_none_iff (h : Distinguished ms) : destination ms j scope path = none ↔
    ∀ m ∈ ms, m.accepts scope path = false := by
  rw [destination, Option.map_eq_none_iff, lookup_mountings_eq_none_iff h]

theorem destination_eq_some_iff (h : Distinguished ms) {app : Application} :
    destination ms j scope path = some app ↔
      ∃ m, Prevails ms scope path m ∧ m.application = app := by
  constructor
  · intro hd
    obtain ⟨e, hl, rfl⟩ := Option.map_eq_some_iff.mp hd
    obtain ⟨m, hm, heq⟩ := prevails_of_lookup h hl
    exact ⟨m, hm, heq.symm⟩
  · rintro ⟨m, hm, rfl⟩
    cases hl : (after (mountings ms) j).lookup scope path with
    | none =>
      have hnot := (lookup_mountings_eq_none_iff h).mp hl m hm.mem
      rw [hm.accepts] at hnot
      cases hnot
    | some e =>
      obtain ⟨m', hm', heq⟩ := prevails_of_lookup h hl
      rw [destination, hl, hm.unique hm']
      exact congrArg some heq

/-- **Routing does not depend on the order of mounting.** Mounts with rooted paths, no two of which
ask for the same path with the same scopes, and whose priorities differ where they have a path and a
kind of connection in common, may be made in any order: a connection goes to the same application.
It goes nowhere only if no mount matches it, and else to the application of the mount that has the
longest path and at that path the highest priority. -/
theorem lookup_of_reordered {ms ms' : List Mounting} (h : Distinguished ms) (hp : ms.Perm ms')
    (j j' : Journal) (scope : ScopeKind) (path : String) :
    destination ms j scope path = destination ms' j' scope path ∧
    (destination ms j scope path = none ↔ ∀ m ∈ ms, m.accepts scope path = false) ∧
    ∀ app, destination ms j scope path = some app ↔
      ∃ m, Prevails ms scope path m ∧ m.application = app := by
  refine ⟨Option.ext fun app => ?_, destination_eq_none_iff h,
    fun app => destination_eq_some_iff h⟩
  rw [destination_eq_some_iff h, destination_eq_some_iff (h.of_perm hp)]
  exact exists_congr fun m =>
    and_congr_left fun _ => ⟨prevails_of_perm hp, prevails_of_perm hp.symm⟩

/-- At one path an application for all kinds and one for plain requests, and a third one above them:
of the first two the one with the higher priority answers, be it mounted after the other or before. -/
theorem lookup_of_reordered_rotated :
    let a : Mounting := { application := .echo 0 "a", path := "/x", options := { priority := 1 } }
    let b : Mounting := {
      application := .echo 1 "b", path := "/x", options := { scopes := .only .http, priority := 2 } }
    let c : Mounting := { application := .echo 2 "c", path := "/" }
    Distinguished [a, b, c] ∧ [a, b, c].Perm [b, c, a] ∧
      (destination [a, b, c] {} .http "/x/y").map (fun app => app.id) = some 1 ∧
      destination [a, b, c] {} .http "/x/y" = destination [b, c, a] {} .http "/x/y" := by
  intro a b c
  have hms : Distinguished [a, b, c] := {
    rooted := by decide +kernel
    distinct := by decide +kernel
    ranked := by
      have hab : a.options.priority ≠ b.options.priority := by decide
      have hac : a.path ≠ c.path := by decide
      have hbc : b.path ≠ c.path := by decide
      refine .cons ?_ (.cons ?_ (.cons ?_ .nil))
      · intro m hm hmeet
        rcases List.mem_pair.mp hm with rfl | rfl
        · exact hab
        · exact absurd hmeet.1 hac
      · intro m hm hmeet
        rw [List.mem_singleton.mp hm] at hmeet
        exact absurd hmeet.1 hbc
      · exact fun m hm => absurd hm List.not_mem_nil }
  have hp : ([a] ++ [b, c]).Perm ([b, c] ++ [a]) := List.perm_append_comm
  exact ⟨hms, hp, by decide +kernel, (lookup_of_reordered hms hp {} {} .http "/x/y").1⟩

end AppHost.MountTable
