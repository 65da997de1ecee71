import Mathlib.Data.List.Induction

/-!
# Ledgers

Entries are opened on request and taken away through the rights handed out for them. A `Ledger`
tells from the history of moves alone which entries live: those that some move opened and that no
later move took away (`mem_live_iff`). Numbers of entries are never used twice, so that an entry
that is gone stays gone, and the rights to it are worth nothing (`gone_append`).
-/

namespace AppHost

/-- What is done with a table. Rights go by the order in which they were handed out. -/
inductive Move (α : Type) where
  /-- Ask for an entry; the right to it is a guard or a handle. -/
  | ask (a : α) (isGuard : Bool)
  | revoke (k : Nat)
  | drop (k : Nat)
  /-- Turn a handle into a guard. -/
  | intoGuard (k : Nat)
  | clear
  deriving DecidableEq, Repr

/-- What comes of a request. -/
inductive Answer (ε : Type) where
  | refused
  /-- A further right to the live entry with this number. -/
  | again (number : Nat)
  | opened (entry : ε)
  deriving DecidableEq, Repr

/-- How requests are answered, by the live entries and the number of the next one. -/
structure Scheme (α ε : Type) where
  number : ε → Nat
  answer : List ε → Nat → α → Answer ε
  number_opened : ∀ {live n a e}, answer live n a = .opened e → number e = n
  number_again : ∀ {live n a m}, answer live n a = .again m → ∃ e ∈ live, number e = m

structure Ledger (ε : Type) where
  live : List ε := []
  /-- How many entries were ever opened. -/
  opened : Nat := 0
  /-- For every right the number of its entry, and whether it is a guard. -/
  issued : List (Nat × Bool) := []
  deriving DecidableEq, Repr

namespace Ledger

variable {α ε : Type}

/-- Whether the move takes away the entry with number `n`, if that is live. -/
def takes (l : Ledger ε) (n : Nat) : Move α → Bool
  | .clear => true
  | .revoke k =>
    match l.issued[k]? with
    | some r => r.1 == n
    | none => false
  | .drop k =>
    match l.issued[k]? with
    | some r => r.2 && r.1 == n
    | none => false
  | _ => false

/-- The entry is taken away when the table is cleared, or when any right to it is used. -/
theorem takes_eq_true_iff {l : Ledger ε} {n : Nat} {m : Move α} :
    l.takes n m = true ↔ m = .clear ∨ ∃ k g, l.issued[k]? = some (n, g) ∧
      (m = .revoke k ∨ (m = .drop k ∧ g = true)) := by
  cases m with
  | clear => simp [takes]
  | ask a g => simp [takes]
  | intoGuard k => simp [takes]
  | revoke k =>
    cases hk : l.issued[k]? with
    | none => simp [takes, hk]
    | some r => cases hg : r.2 <;> simp [takes, hk, hg, Prod.ext_iff]
  | drop k =>
    cases hk : l.issued[k]? with
    | none => simp [takes, hk]
    | some r => simp [takes, hk, Prod.ext_iff, and_comm]

end Ledger

namespace Scheme

variable {α ε : Type} (c : Scheme α ε)

/-- The ledger after one more move. -/
def next (l : Ledger ε) : Move α → Ledger ε
  | .ask a g =>
    match c.answer l.live l.opened a with
    | .refused => l
    | .again n => { l with issued := l.issued ++ [(n, g)] }
    | .opened e => ⟨l.live ++ [e], l.opened + 1, l.issued ++ [(l.opened, g)]⟩
  | .intoGuard k => { l with issued := l.issued.modify k fun r => (r.1, true) }
  | m => { l with live := l.live.filter fun e => !l.takes (c.number e) m }

/-- To clear the table takes away every entry, and leaves the rights. -/
theorem next_clear (l : Ledger ε) : c.next l .clear = { l with live := [] } := by
  simp [next, Ledger.takes]

/-- The use of a right takes away its entry, and leaves the rights. -/
theorem next_of_use {l : Ledger ε} {k n : Nat} {g : Bool} (hk : l.issued[k]? = some (n, g))
    {m : Move α} (hm : m = .revoke k ∨ (m = .drop k ∧ g = true)) :
    c.next l m = { l with live := l.live.filter fun e => c.number e != n } := by
  rcases hm with rfl | ⟨rfl, rfl⟩ <;> simp [next, Ledger.takes, hk, bne, Bool.beq_comm]

def ledger (moves : List (Move α)) : Ledger ε := moves.foldl c.next {}

@[simp] theorem ledger_nil : c.ledger [] = {} := rfl

theorem ledger_concat (moves : List (Move α)) (m : Move α) :
    c.ledger (moves ++ [m]) = c.next (c.ledger moves) m := by
  simp only [ledger, List.foldl_append, List.foldl_cons, List.foldl_nil]

theorem map_fst_modify (rs : List (Nat × Bool)) (k : Nat) :
    (rs.modify k fun r => (r.1, true)).map Prod.fst = rs.map Prod.fst := by
  refine List.ext_getElem? fun i => ?_
  simp only [List.getElem?_map, List.getElem?_modify]
  cases rs[i]? with
  | none => rfl
  | some r => by_cases hi : k = i <;> simp [hi]

/-- After the history `moves` the next move opens `e`. -/
def Opens (moves : List (Move α)) (m : Move α) (e : ε) : Prop :=
  ∃ a g, m = .ask a g ∧ c.answer (c.ledger moves).live (c.ledger moves).opened a = .opened e

/-- Some move has opened `e`, and no move since then has taken it away. -/
def IsLive (moves : List (Move α)) (e : ε) : Prop :=
  ∃ before m after, moves = before ++ m :: after ∧ c.Opens before m e ∧
    ∀ since m' rest, after = since ++ m' :: rest →
      (c.ledger (before ++ m :: since)).takes (c.number e) m' = false

theorem not_isLive_nil (e : ε) : ¬ c.IsLive [] e := by
  rintro ⟨before, m, after, h, -, -⟩
  cases before <;> cases h

theorem isLive_concat {moves : List (Move α)} {m : Move α} {e : ε} :
    c.IsLive (moves ++ [m]) e ↔
      c.Opens moves m e ∨ (c.IsLive moves e ∧ (c.ledger moves).takes (c.number e) m = false) := by
  constructor
  · rintro ⟨before, m0, after, h, ho, hk⟩
    rcases List.eq_nil_or_concat after with rfl | ⟨after, m1, rfl⟩
    · obtain ⟨rfl, h1⟩ := List.append_inj' h rfl
      cases h1
      exact .inl ho
    · rw [List.concat_eq_append] at h hk
      rw [← List.cons_append, ← List.append_assoc] at h
      obtain ⟨rfl, h1⟩ := List.append_inj' h rfl
      cases h1
      refine .inr ⟨⟨before, m0, after, rfl, ho, fun since m' rest hs => ?_⟩, hk after m [] rfl⟩
      exact hk since m' (rest ++ [m]) (by rw [hs]; simp)
  · rintro (ho | ⟨⟨before, m0, after, rfl, ho, hk⟩, ht⟩)
    · exact ⟨moves, m, [], rfl, ho, fun since m' rest hs => by cases since <;> cases hs⟩
    · refine ⟨before, m0, after ++ [m], by simp, ho, fun since m' rest hs => ?_⟩
      rcases List.eq_nil_or_concat rest with rfl | ⟨rest, m1, rfl⟩
      · obtain ⟨rfl, h1⟩ := List.append_inj' hs rfl
        cases h1
        exact ht
      · rw [List.concat_eq_append, ← List.cons_append, ← List.append_assoc] at hs
        obtain ⟨rfl, -⟩ := List.append_inj' hs rfl
        exact hk since m' rest rfl

theorem mem_next_live {l : Ledger ε} {m : Move α} {e : ε} :
    e ∈ (c.next l m).live ↔
      (∃ a g, m = .ask a g ∧ c.answer l.live l.opened a = .opened e) ∨
        (e ∈ l.live ∧ l.takes (c.number e) m = false) := by
  cases m with
  | ask a g =>
    have hiff : (∃ a' g', Move.ask a g = .ask a' g' ∧ c.answer l.live l.opened a' = .opened e) ↔
        c.answer l.live l.opened a = .opened e := by simp
    rw [hiff]
    cases h : c.answer l.live l.opened a with
    | refused => simp [next, h, Ledger.takes]
    | again n => simp [next, h, Ledger.takes]
    | opened e' => simp [next, h, Ledger.takes, or_comm, eq_comm]
  | intoGuard k => simp [next, Ledger.takes]
  | revoke k => simp [next]
  | drop k => simp [next]
  | clear => simp [next]

/-- The live entries of a ledger are those that the history opened and did not take away. -/
theorem mem_live_iff {moves : List (Move α)} {e : ε} :
    e ∈ (c.ledger moves).live ↔ c.IsLive moves e := by
  induction moves using List.reverseRecOn with
  | nil => simp [c.not_isLive_nil e]
  | append_singleton moves m ih => rw [ledger_concat, mem_next_live, isLive_concat, ih]; rfl

/-! ## Numbers -/

/-- Numbers are those of entries opened so far, and no two live entries share one. -/
structure Sound (l : Ledger ε) : Prop where
  live_lt : ∀ e ∈ l.live, c.number e < l.opened
  issued_lt : ∀ r ∈ l.issued, r.1 < l.opened
  nodup : (l.live.map c.number).Nodup

theorem sound_next {l : Ledger ε} (h : c.Sound l) (m : Move α) : c.Sound (c.next l m) := by
  have hfilter : ∀ f : ε → Bool, c.Sound { l with live := l.live.filter f } := fun f =>
    { live_lt := fun e he => h.live_lt e (List.mem_filter.mp he).1
      issued_lt := h.issued_lt
      nodup := h.nodup.sublist (List.filter_sublist.map c.number) }
  cases m with
  | ask a g =>
    simp only [next]
    cases ha : c.answer l.live l.opened a with
    | refused => exact h
    | again n =>
      obtain ⟨e, he, rfl⟩ := c.number_again ha
      refine ⟨h.live_lt, fun r hr => ?_, h.nodup⟩
      rcases List.mem_append.mp hr with hr | hr
      · exact h.issued_lt r hr
      · rw [List.mem_singleton.mp hr]; exact h.live_lt e he
    | opened e =>
      have hn := c.number_opened ha
      constructor
      · intro e' he'
        rcases List.mem_append.mp he' with he' | he'
        · exact Nat.lt_succ_of_lt (h.live_lt e' he')
        · rw [List.mem_singleton.mp he', hn]; exact Nat.lt_succ_self _
      · intro r hr
        rcases List.mem_append.mp hr with hr | hr
        · exact Nat.lt_succ_of_lt (h.issued_lt r hr)
        · rw [List.mem_singleton.mp hr]; exact Nat.lt_succ_self _
      · rw [List.map_append, List.nodup_append]
        refine ⟨h.nodup, by simp, fun n hn' n' hn'' => ?_⟩
        obtain ⟨e', he', rfl⟩ := List.mem_map.mp hn'
        rw [List.map_singleton, List.mem_singleton, hn] at hn''
        have := h.live_lt e' he'
        omega
  | intoGuard k =>
    refine ⟨h.live_lt, fun r hr => ?_, h.nodup⟩
    have hr1 : r.1 ∈ l.issued.map Prod.fst := by
      rw [← map_fst_modify l.issued k]
      exact List.mem_map_of_mem hr
    obtain ⟨r', hr', e⟩ := List.mem_map.mp hr1
    rw [← e]; exact h.issued_lt r' hr'
  | revoke k => exact hfilter _
  | drop k => exact hfilter _
  | clear => exact hfilter _

theorem sound_ledger (moves : List (Move α)) : c.Sound (c.ledger moves) := by
  induction moves using List.reverseRecOn with
  | nil => constructor <;> simp
  | append_singleton moves m ih => rw [ledger_concat]; exact c.sound_next ih m

/-- The numbers of entries opened and of rights handed out only grow. -/
theorem ledger_le_append (moves later : List (Move α)) :
    (c.ledger moves).opened ≤ (c.ledger (moves ++ later)).opened ∧
      (c.ledger moves).issued.length ≤ (c.ledger (moves ++ later)).issued.length := by
  induction later using List.reverseRecOn with
  | nil => simp
  | append_singleton later m ih =>
    have hnext : ∀ l : Ledger ε, l.opened ≤ (c.next l m).opened ∧
        l.issued.length ≤ (c.next l m).issued.length := by
      intro l
      cases m with
      | ask a g =>
        simp only [next]
        split <;> simp
      | intoGuard k => simp [next]
      | _ => exact ⟨Nat.le_refl _, Nat.le_refl _⟩
    rw [← List.append_assoc, ledger_concat]
    exact ⟨Nat.le_trans ih.1 (hnext _).1, Nat.le_trans ih.2 (hnext _).2⟩

/-- A live entry is not opened once more: its number is not used again. -/
theorem not_opens_append {moves : List (Move α)} {e : ε} (h : c.IsLive moves e)
    (later : List (Move α)) (m : Move α) : ¬ c.Opens (moves ++ later) m e := by
  rintro ⟨a, g, -, ha⟩
  have hlt := (c.sound_ledger moves).live_lt e (c.mem_live_iff.mpr h)
  have hle := (c.ledger_le_append moves later).1
  rw [c.number_opened ha] at hlt
  omega

/-- An entry that lives goes on living until some move takes it away. -/
theorem isLive_append_iff {moves : List (Move α)} {e : ε} (h : c.IsLive moves e)
    {later : List (Move α)} : c.IsLive (moves ++ later) e ↔
      ∀ since m rest, later = since ++ m :: rest →
        (c.ledger (moves ++ since)).takes (c.number e) m = false := by
  induction later using List.reverseRecOn with
  | nil =>
    rw [List.append_nil]
    exact iff_of_true h fun since m rest hs => by cases since <;> cases hs
  | append_singleton later m ih =>
    rw [← List.append_assoc, isLive_concat, ih]
    constructor
    · rintro (ho | ⟨hk, ht⟩) since m' rest hs
      · exact absurd ho (c.not_opens_append h later m)
      · rcases List.eq_nil_or_concat rest with rfl | ⟨rest, m1, rfl⟩
        · obtain ⟨rfl, h1⟩ := List.append_inj' hs rfl
          cases h1
          exact ht
        · rw [List.concat_eq_append, ← List.cons_append, ← List.append_assoc] at hs
          obtain ⟨rfl, -⟩ := List.append_inj' hs rfl
          exact hk since m' rest rfl
    · intro hk
      refine .inr ⟨fun since m' rest hs => hk since m' (rest ++ [m]) ?_, hk later m [] rfl⟩
      rw [hs, List.append_assoc, List.cons_append]

/-! ## Entries that are gone -/

/-- An entry that is gone stays gone: its number is not used again. -/
theorem gone_next {l : Ledger ε} {n : Nat} (hn : n < l.opened)
    (hg : ∀ e ∈ l.live, c.number e ≠ n) (m : Move α) :
    ∀ e ∈ (c.next l m).live, c.number e ≠ n := by
  intro e he
  rcases c.mem_next_live.mp he with ⟨a, g, -, ha⟩ | ⟨he, -⟩
  · rw [c.number_opened ha]; exact Nat.ne_of_gt hn
  · exact hg e he

/-- A right stands for the same entry for ever. -/
theorem issued_next {l : Ledger ε} {k : Nat} {r : Nat × Bool} (hk : l.issued[k]? = some r)
    (m : Move α) : ∃ g, (c.next l m).issued[k]? = some (r.1, g) := by
  have hlt : k < l.issued.length := (List.getElem?_eq_some_iff.mp hk).1
  cases m with
  | ask a g =>
    simp only [next]
    split
    · exact ⟨r.2, hk⟩
    · exact ⟨r.2, by rw [List.getElem?_append_left hlt]; exact hk⟩
    · exact ⟨r.2, by rw [List.getElem?_append_left hlt]; exact hk⟩
  | intoGuard k' =>
    simp only [next, List.getElem?_modify, hk]
    by_cases hi : k' = k
    · exact ⟨true, by simp [hi]⟩
    · exact ⟨r.2, by simp [hi]⟩
  | _ => exact ⟨r.2, hk⟩

/-- A right to an entry that is gone is a right to an entry that is gone, whatever comes later. -/
theorem gone_append {moves : List (Move α)} {k n : Nat} {g : Bool}
    (hk : (c.ledger moves).issued[k]? = some (n, g))
    (hg : ∀ e, c.IsLive moves e → c.number e ≠ n) (later : List (Move α)) :
    (∃ g', (c.ledger (moves ++ later)).issued[k]? = some (n, g')) ∧
      ∀ e ∈ (c.ledger (moves ++ later)).live, c.number e ≠ n := by
  induction later using List.reverseRecOn with
  | nil =>
    rw [List.append_nil]
    exact ⟨⟨g, hk⟩, fun e he => hg e (c.mem_live_iff.mp he)⟩
  | append_singleton later m ih =>
    obtain ⟨⟨g', hk'⟩, hg'⟩ := ih
    have hlt : n < (c.ledger (moves ++ later)).opened :=
      (c.sound_ledger _).issued_lt _ (List.mem_of_getElem? hk')
    rw [← List.append_assoc, ledger_concat]
    exact ⟨c.issued_next hk' m, c.gone_next hlt hg' m⟩

/-- A right from before a clearing is one to an entry that is gone. -/
theorem gone_of_cleared {before : List (Move α)} {k : Nat}
    (hk : k < (c.ledger before).issued.length) (later : List (Move α)) :
    ∃ n g, (c.ledger (before ++ [.clear] ++ later)).issued[k]? = some (n, g) ∧
      ∀ e ∈ (c.ledger (before ++ [.clear] ++ later)).live, c.number e ≠ n := by
  have hcleared : c.ledger (before ++ [.clear]) = { c.ledger before with live := [] } := by
    rw [ledger_concat, next_clear]
  obtain ⟨⟨n, g⟩, hr⟩ : ∃ r, (c.ledger (before ++ [.clear])).issued[k]? = some r :=
    ⟨_, by rw [hcleared]; exact List.getElem?_eq_getElem hk⟩
  have hgone : ∀ e, c.IsLive (before ++ [.clear]) e → c.number e ≠ n := by
    intro e hl
    rw [← mem_live_iff, hcleared] at hl
    exact absurd hl List.not_mem_nil
  obtain ⟨⟨g', hk'⟩, hgone'⟩ := c.gone_append hr hgone later
  exact ⟨n, g', hk', hgone'⟩

end Scheme

end AppHost
