import AppHost.Handle
import AppHost.Proofs.Journal
import AppHost.Proofs.Rights.Ledger

/-!
# Desks

A desk is a table as its users see it: they ask for entries, use the handles that they got for
them, and clear the table. A board is a table with all the rights handed out for it so far, and
`after` is the board that a history of moves leads to.

What the single operations of a desk keep is kept by every history (`run_induction`). `Keeps` says
that they do what a scheme tells; then the desk agrees with the ledger after every history
(`agrees_after`), and a right whose entry is gone never takes anything away (`after_of_gone`). A desk
on something larger, of which a table is a part, keeps what the desk on the table keeps
(`Part.keeps`).
-/

namespace AppHost

open Journaled

/-- A handle as somebody holds it. A guard is used when it is dropped. -/
structure Right where
  handle : Handle
  isGuard : Bool
  deriving DecidableEq, Repr

structure Desk (σ α : Type) where
  ask : σ → α → Journaled (σ × Option Handle)
  revoke : σ → Handle → Journaled (σ × Handle)
  clear : σ → Journaled σ

/-- A table, and the rights handed out for it in their order. -/
structure Board (σ : Type) where
  table : σ
  rights : List Right := []

namespace Desk

variable {σ α ε : Type} (d : Desk σ α)

/-- Use the handle of right `k`. -/
def spend (b : Board σ) (k : Nat) (r : Right) : Journaled (Board σ) := do
  let (table, handle) ← d.revoke b.table r.handle
  return { table, rights := b.rights.set k { r with handle } }

def step (b : Board σ) : Move α → Journaled (Board σ)
  | .ask a isGuard => do
    let (table, handle?) ← d.ask b.table a
    return { table, rights := b.rights ++ handle?.toList.map fun handle => { handle, isGuard } }
  | .revoke k =>
    match b.rights[k]? with
    | some r => d.spend b k r
    | none => return b
  | .drop k =>
    match b.rights[k]? with
    | some r => if r.isGuard then d.spend b k r else return b
    | none => return b
  | .intoGuard k =>
    return { b with rights := b.rights.modify k fun r => { r with isGuard := true } }
  | .clear => do
    let table ← d.clear b.table
    return { b with table }

def run (b : Board σ) (moves : List (Move α)) : Journaled (Board σ) := moves.foldlM d.step b

/-- The board that a history leads to, from a table that no rights were handed out for. -/
def after (start : σ) (moves : List (Move α)) (j : Journal) : Board σ :=
  (d.run { table := start } moves).value j

@[simp] theorem after_nil (start : σ) (j : Journal) : d.after start [] j = { table := start } := rfl

theorem run_append (b : Board σ) (moves later : List (Move α)) :
    d.run b (moves ++ later) = d.run b moves >>= fun b => d.run b later := List.foldlM_append

theorem run_concat (b : Board σ) (moves : List (Move α)) (m : Move α) :
    d.run b (moves ++ [m]) = d.run b moves >>= fun b => d.step b m := by
  rw [run_append]
  simp only [run, List.foldlM_cons, List.foldlM_nil, bind_pure]

theorem after_concat (start : σ) (moves : List (Move α)) (m : Move α) (j : Journal) :
    ∃ j', d.after start (moves ++ [m]) j = (d.step (d.after start moves j) m).value j' :=
  ⟨(d.run { table := start } moves).rest j, by rw [after, run_concat, value_bind, after]⟩

/-- A move that changes neither the board nor the journal might as well not have been made. -/
theorem run_of_idle {b : Board σ} {moves : List (Move α)} {m : Move α} {j : Journal}
    (hm : (d.step ((d.run b moves).value j) m).value ((d.run b moves).rest j) =
        (d.run b moves).value j ∧
      (d.step ((d.run b moves).value j) m).rest ((d.run b moves).rest j) = (d.run b moves).rest j)
    (later : List (Move α)) :
    (d.run b (moves ++ m :: later)).value j = (d.run b (moves ++ later)).value j ∧
      (d.run b (moves ++ m :: later)).rest j = (d.run b (moves ++ later)).rest j := by
  rw [List.append_cons, run_append, run_concat, run_append]
  simp only [value_bind, rest_bind, hm.1, hm.2, and_self]

/-! ## What a desk keeps -/

section Induction

variable {d} {P : σ → Journal → Prop}
  (ask : ∀ t a j, P t j → P ((d.ask t a).value j).1 ((d.ask t a).rest j))
  (revoke : ∀ t h j, P t j → P ((d.revoke t h).value j).1 ((d.revoke t h).rest j))
  (clear : ∀ t j, P t j → P ((d.clear t).value j) ((d.clear t).rest j))

include ask revoke clear

theorem step_induction {b : Board σ} {j : Journal} (h : P b.table j) (m : Move α) :
    P ((d.step b m).value j).table ((d.step b m).rest j) := by
  have hspend : ∀ k r, P ((d.spend b k r).value j).table ((d.spend b k r).rest j) :=
    fun _ r => revoke b.table r.handle j h
  cases m with
  | ask a g => exact ask b.table a j h
  | intoGuard k => exact h
  | clear => exact clear b.table j h
  | revoke k =>
    simp only [step]
    cases b.rights[k]? with
    | none => exact h
    | some r => exact hspend k r
  | drop k =>
    simp only [step]
    cases b.rights[k]? with
    | none => exact h
    | some r =>
      cases hg : r.isGuard with
      | false => simpa [hg] using h
      | true => simpa [hg] using hspend k r

/-- What the single operations keep, of the table and of the journal, is kept by every history. -/
theorem run_induction {start : σ} {j : Journal} (h : P start j) (moves : List (Move α)) :
    P (d.after start moves j).table ((d.run { table := start } moves).rest j) := by
  induction moves using List.reverseRecOn with
  | nil => exact h
  | append_singleton moves m ih =>
    rw [after, d.run_concat, value_bind, rest_bind]
    exact step_induction ask revoke clear ih m

end Induction

/-- The operations of the desk do what the scheme tells, on tables that show the live entries and
the number of the next one. A handle that was used before or has lost its entry does nothing. -/
structure Keeps (c : Scheme α ε) (Shows : σ → List ε → Nat → Prop) : Prop where
  refused : ∀ {t live n a}, Shows t live n → c.answer live n a = .refused →
    ∀ j, (d.ask t a).value j = (t, none)
  again : ∀ {t live n a m}, Shows t live n → c.answer live n a = .again m →
    ∀ j, (d.ask t a).value j = (t, some { number := m })
  opened : ∀ {t live n a e}, Shows t live n → c.answer live n a = .opened e →
    ∀ j, ∃ t', (d.ask t a).value j = (t', some { number := n }) ∧ Shows t' (live ++ [e]) (n + 1)
  revoke : ∀ {t live n h}, Shows t live n → (live.map c.number).Nodup → h.revoked = false →
    ∀ j, ∃ t', (d.revoke t h).value j = (t', h.used) ∧
      Shows t' (live.filter fun e => c.number e != h.number) n
  void : ∀ {t live n h}, Shows t live n →
    h.revoked = true ∨ (∀ e ∈ live, c.number e ≠ h.number) →
    ∀ j, (d.revoke t h).value j = (t, h.used)
  clear : ∀ {t live n}, Shows t live n → ∀ j, Shows ((d.clear t).value j) [] n

/-- The board is as the ledger tells, and no used right has a live entry. -/
structure Agrees (c : Scheme α ε) (Shows : σ → List ε → Nat → Prop) (b : Board σ) (l : Ledger ε) :
    Prop where
  shows : Shows b.table l.live l.opened
  issued : l.issued = b.rights.map fun r => (r.handle.number, r.isGuard)
  spent : ∀ r ∈ b.rights, r.handle.revoked = true → ∀ e ∈ l.live, c.number e ≠ r.handle.number

variable {d} {c : Scheme α ε} {Shows : σ → List ε → Nat → Prop} {b : Board σ} {l : Ledger ε}

theorem Agrees.issued_getElem? (h : Agrees c Shows b l) (k : Nat) :
    l.issued[k]? = (b.rights[k]?).map fun r => (r.handle.number, r.isGuard) := by
  rw [h.issued, List.getElem?_map]

/-- A right keeps its number and whether it is a guard when it is used. -/
theorem issued_set_used {rs : List Right} {k : Nat} {r : Right} (hk : rs[k]? = some r) :
    (rs.set k { r with handle := r.handle.used }).map (fun r => (r.handle.number, r.isGuard)) =
      rs.map fun r => (r.handle.number, r.isGuard) := by
  refine List.ext_getElem? fun i => ?_
  rw [List.getElem?_map, List.getElem?_map, List.getElem?_set]
  by_cases hi : k = i
  · subst hi
    obtain ⟨hlt, rfl⟩ := List.getElem?_eq_some_iff.mp hk
    simp [hlt, Handle.used]
  · rw [if_neg hi]

theorem Agrees.spend (hd : d.Keeps c Shows) (h : Agrees c Shows b l) (hs : c.Sound l) {k : Nat}
    {r : Right} (hk : b.rights[k]? = some r) (j : Journal) :
    Agrees c Shows ((d.spend b k r).value j)
      { l with live := l.live.filter fun e => c.number e != r.handle.number } := by
  have hr : r ∈ b.rights := List.mem_of_getElem? hk
  obtain ⟨t', ht, hshow⟩ : ∃ t', (d.revoke b.table r.handle).value j = (t', r.handle.used) ∧
      Shows t' (l.live.filter fun e => c.number e != r.handle.number) l.opened := by
    cases hrev : r.handle.revoked with
    | false => exact hd.revoke h.shows hs.nodup hrev j
    | true =>
      refine ⟨b.table, hd.void h.shows (.inl hrev) j, ?_⟩
      rw [List.filter_eq_self.mpr fun e he => by simpa using h.spent r hr hrev e he]
      exact h.shows
  have hb : (d.spend b k r).value j =
      { table := t', rights := b.rights.set k { r with handle := r.handle.used } } := by
    simp only [Desk.spend, value_bind, ht, value_pure]
  rw [hb]
  refine ⟨hshow, h.issued.trans (issued_set_used hk).symm, fun r' hr' hrev' e he => ?_⟩
  obtain ⟨he, hne⟩ := List.mem_filter.mp he
  rcases List.mem_or_eq_of_mem_set hr' with hr' | rfl
  · exact h.spent r' hr' hrev' e he
  · simpa [Handle.used] using hne

theorem Agrees.intoGuard (h : Agrees c Shows b l) (k : Nat) (j : Journal) :
    Agrees c Shows ((d.step b (.intoGuard k)).value j) (c.next l (.intoGuard k)) where
  shows := h.shows
  issued := by
    simp only [Scheme.next, step, value_pure, h.issued]
    refine List.ext_getElem? fun i => ?_
    simp only [List.getElem?_modify, List.getElem?_map]
    cases b.rights[i]? with
    | none => rfl
    | some r => by_cases hi : k = i <;> simp [hi]
  spent r hr hrev := by
    simp only [step, value_pure] at hr
    obtain ⟨i, hi, rfl⟩ := List.mem_iff_getElem.mp hr
    rw [List.length_modify] at hi
    have := h.spent b.rights[i] (List.getElem_mem hi)
    rw [List.getElem_modify] at hrev ⊢
    by_cases hk : k = i
    · rw [if_pos hk] at hrev ⊢; exact this hrev
    · rw [if_neg hk] at hrev ⊢; exact this hrev

theorem Agrees.ask (hd : d.Keeps c Shows) (h : Agrees c Shows b l) (hs : c.Sound l) (a : α)
    (g : Bool) (j : Journal) :
    Agrees c Shows ((d.step b (.ask a g)).value j) (c.next l (.ask a g)) := by
  simp only [step, value_bind, value_pure, Scheme.next]
  cases ha : c.answer l.live l.opened a with
  | refused =>
    rw [hd.refused h.shows ha j]
    simpa using h
  | again n =>
    rw [hd.again h.shows ha j]
    refine ⟨h.shows, by simp [h.issued], fun r hr hrev => ?_⟩
    rcases List.mem_append.mp hr with hr | hr
    · exact h.spent r hr hrev
    · cases List.mem_singleton.mp hr; cases hrev
  | opened e =>
    obtain ⟨t', ht, hshow⟩ := hd.opened h.shows ha j
    rw [ht]
    refine ⟨hshow, by simp [h.issued], fun r hr hrev e' he' => ?_⟩
    rcases List.mem_append.mp hr with hr | hr
    · rcases List.mem_append.mp he' with he' | he'
      · exact h.spent r hr hrev e' he'
      · -- the number of the new entry is larger than those of all rights so far
        have hlt := hs.issued_lt (r.handle.number, r.isGuard)
          (by rw [h.issued]; exact List.mem_map_of_mem hr)
        rw [List.mem_singleton.mp he', c.number_opened ha]
        exact Nat.ne_of_gt hlt
    · cases List.mem_singleton.mp hr; cases hrev

/-- One move leads from a board and a ledger that agree to a board and a ledger that do. -/
theorem Agrees.step (hd : d.Keeps c Shows) (h : Agrees c Shows b l) (hs : c.Sound l) (m : Move α)
    (j : Journal) : Agrees c Shows ((d.step b m).value j) (c.next l m) := by
  have hkeep : l.live.filter (fun _ => true) = l.live := List.filter_eq_self.mpr fun _ _ => rfl
  cases m with
  | ask a g => exact h.ask hd hs a g j
  | intoGuard k => exact h.intoGuard k j
  | clear =>
    rw [c.next_clear]
    exact ⟨hd.clear h.shows j, h.issued, fun r hr _ e he => absurd he List.not_mem_nil⟩
  | revoke k =>
    simp only [Desk.step, Scheme.next, Ledger.takes, h.issued_getElem? k]
    cases hk : b.rights[k]? with
    | none => simpa [hkeep] using h
    | some r => simpa [bne, Bool.beq_comm] using h.spend hd hs hk j
  | drop k =>
    simp only [Desk.step, Scheme.next, Ledger.takes, h.issued_getElem? k]
    cases hk : b.rights[k]? with
    | none => simpa [hkeep] using h
    | some r =>
      cases hg : r.isGuard with
      | false => simpa [hg, hkeep] using h
      | true => simpa [hg, bne, Bool.beq_comm] using h.spend hd hs hk j

/-- **After every history the board is as the ledger tells.** -/
theorem agrees_after (hd : d.Keeps c Shows) {start : σ} (h0 : Shows start [] 0)
    (moves : List (Move α)) (j : Journal) :
    Agrees c Shows (d.after start moves j) (c.ledger moves) := by
  induction moves using List.reverseRecOn with
  | nil => exact ⟨h0, rfl, fun r hr => nomatch hr⟩
  | append_singleton moves m ih =>
    obtain ⟨j', hj⟩ := d.after_concat start moves m j
    rw [hj, c.ledger_concat]
    exact ih.step hd (c.sound_ledger moves) m j'

theorem spend_of_gone (hd : d.Keeps c Shows) (h : Agrees c Shows b l) {k : Nat} {r : Right}
    (hg : ∀ e ∈ l.live, c.number e ≠ r.handle.number) (j : Journal) :
    ((d.spend b k r).value j).table = b.table := by
  simp only [spend, value_bind, value_pure, hd.void h.shows (.inr hg) j]

/-- A right to an entry that is gone does nothing to the table. -/
theorem step_of_gone (hd : d.Keeps c Shows) (h : Agrees c Shows b l) {k n : Nat} {g : Bool}
    (hk : l.issued[k]? = some (n, g)) (hg : ∀ e ∈ l.live, c.number e ≠ n) {m : Move α}
    (hm : m = .revoke k ∨ m = .drop k) (j : Journal) :
    ((d.step b m).value j).table = b.table := by
  rw [h.issued_getElem? k] at hk
  obtain ⟨r, hr, e⟩ := Option.map_eq_some_iff.mp hk
  cases e
  rcases hm with rfl | rfl
  · simp only [step, hr]
    exact spend_of_gone hd h hg j
  · simp only [step, hr]
    split
    · exact spend_of_gone hd h hg j
    · rfl

/-- **A right whose entry is gone never takes anything away**, whatever has been done since. -/
theorem after_of_gone (hd : d.Keeps c Shows) {start : σ} (h0 : Shows start [] 0)
    {moves : List (Move α)} {k n : Nat} {g : Bool}
    (hk : (c.ledger moves).issued[k]? = some (n, g))
    (hg : ∀ e, c.IsLive moves e → c.number e ≠ n) (later : List (Move α)) {m : Move α}
    (hm : m = .revoke k ∨ m = .drop k) (j : Journal) :
    (d.after start (moves ++ later ++ [m]) j).table = (d.after start (moves ++ later) j).table := by
  obtain ⟨⟨g', hk'⟩, hg'⟩ := c.gone_append hk hg later
  obtain ⟨j', hj⟩ := d.after_concat start (moves ++ later) m j
  rw [hj]
  exact step_of_gone hd (agrees_after hd h0 (moves ++ later) j) hk' hg' hm j'

/-! ## Desks on a part -/

variable {ρ : Type}

/-- The desk `whole` does what `d` does, on a part of what it has before it. -/
structure Part (whole : Desk ρ α) (d : Desk σ α) (get : ρ → σ) (put : ρ → σ → ρ) : Prop where
  get_put : ∀ r t, get (put r t) = t
  put_get : ∀ r, put r (get r) = r
  ask : ∀ r a j, (whole.ask r a).value j =
    (put r ((d.ask (get r) a).value j).1, ((d.ask (get r) a).value j).2)
  revoke : ∀ r h j, (whole.revoke r h).value j =
    (put r ((d.revoke (get r) h).value j).1, ((d.revoke (get r) h).value j).2)
  clear : ∀ r j, (whole.clear r).value j = put r ((d.clear (get r)).value j)

variable {whole : Desk ρ α} {get : ρ → σ} {put : ρ → σ → ρ}

theorem Part.keeps (hp : whole.Part d get put) (hd : d.Keeps c Shows) :
    whole.Keeps c fun r => Shows (get r) where
  refused {r live n a} hs ha j := by rw [hp.ask, hd.refused hs ha, hp.put_get]
  again {r live n a k} hs ha j := by rw [hp.ask, hd.again hs ha, hp.put_get]
  opened {r live n a e} hs ha j := by
    obtain ⟨t', ht, hshow⟩ := hd.opened hs ha j
    rw [hp.ask, ht]
    exact ⟨_, rfl, (hp.get_put r t').symm ▸ hshow⟩
  revoke {r live n h} hs hn hr j := by
    obtain ⟨t', ht, hshow⟩ := hd.revoke hs hn hr j
    rw [hp.revoke, ht]
    exact ⟨_, rfl, (hp.get_put r t').symm ▸ hshow⟩
  void {r live n h} hs hv j := by rw [hp.revoke, hd.void hs hv, hp.put_get]
  clear {r live n} hs j := by
    rw [hp.clear, hp.get_put]
    exact hd.clear hs j

/-- A move changes nothing outside of the part. -/
theorem Part.table_step (hp : whole.Part d get put) (b : Board ρ) (m : Move α) (j : Journal) :
    ∃ t, ((whole.step b m).value j).table = put b.table t := by
  have hsame : ∃ t, b.table = put b.table t := ⟨_, (hp.put_get b.table).symm⟩
  have hspend : ∀ k r, ∃ t, ((whole.spend b k r).value j).table = put b.table t := by
    intro k r
    refine ⟨((d.revoke (get b.table) r.handle).value j).1, ?_⟩
    simp only [Desk.spend, value_bind, value_pure, hp.revoke]
  cases m with
  | ask a g =>
    refine ⟨((d.ask (get b.table) a).value j).1, ?_⟩
    simp only [Desk.step, value_bind, value_pure, hp.ask]
  | revoke k =>
    simp only [Desk.step]
    cases b.rights[k]? with
    | none => exact hsame
    | some r => exact hspend k r
  | drop k =>
    simp only [Desk.step]
    cases b.rights[k]? with
    | none => exact hsame
    | some r =>
      cases hg : r.isGuard with
      | false => simpa [hg] using hsame
      | true => simpa [hg] using hspend k r
  | intoGuard k => exact hsame
  | clear =>
    refine ⟨(d.clear (get b.table)).value j, ?_⟩
    simp only [Desk.step, value_bind, value_pure, hp.clear]

end Desk

end AppHost
