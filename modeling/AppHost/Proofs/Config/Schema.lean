import AppHost.Config.Codec
import AppHost.Proofs.Data.Json
import Mathlib.Data.List.Nodup

/-!
# Records with a schema

The records of a configuration are read and written alike: a record is its columns, and each column
has a name, a default, and a coding of its values. Once a record's reader and writer are known to go
by its columns, all else follows for every record at once: what was written is read back
(`reads_back`), the first values in order stand for the whole with the defaults for the rest
(`ofData?_take`), and nothing but the values of the columns counts (`ofData?_congr`).
-/

namespace AppHost.Config

/-! ## Offsets -/

namespace Offsets

variable {o o' : Offsets} {name : String} {offset : UInt16} {e : String × UInt16}

theorem nodup_names (o : Offsets) : (o.entries.map Prod.fst).Nodup := by
  refine List.pairwise_map.mpr (o.sorted.imp ?_)
  intro a b hlt heq
  exact String.lt_irrefl b.1 (heq ▸ hlt)

/-- The same entries are in the same order. -/
theorem ext_mem (h : ∀ e, e ∈ o.entries ↔ e ∈ o'.entries) : o = o' := by
  have hperm : o.entries.Perm o'.entries :=
    (List.perm_ext_iff_of_nodup o.nodup_names.of_map o'.nodup_names.of_map).mpr h
  have hentries := hperm.eq_of_pairwise (fun a b _ _ hab hba => absurd hab (String.lt_asymm hba))
    o.sorted o'.sorted
  cases o
  cases o'
  cases hentries
  rfl

theorem mem_insertEntry_iff {es : List (String × UInt16)}
    (h : es.Pairwise fun a b => a.1 < b.1) :
    e ∈ insertEntry name offset es ↔ e = (name, offset) ∨ (e ∈ es ∧ e.1 ≠ name) := by
  induction es with
  | nil => simp [insertEntry]
  | cons d ds ih =>
    obtain ⟨hd, hds⟩ := List.pairwise_cons.mp h
    rw [insertEntry]
    split
    · rename_i hlt
      have hne : ∀ x ∈ d :: ds, x.1 ≠ name := by
        rintro x hx rfl
        rcases List.mem_cons.mp hx with rfl | hx
        · exact String.lt_irrefl _ hlt
        · exact String.lt_irrefl _ (String.lt_trans hlt (hd x hx))
      rw [List.mem_cons]
      exact or_congr_right ⟨fun hx => ⟨hx, hne e hx⟩, And.left⟩
    · split
      · rename_i heq
        have hne : ∀ x ∈ ds, x.1 ≠ name := fun x hx hname =>
          String.lt_irrefl _ (heq ▸ hname ▸ hd x hx)
        rw [List.mem_cons, List.mem_cons]
        refine or_congr_right ⟨fun hx => ⟨.inr hx, hne e hx⟩, ?_⟩
        rintro ⟨rfl | hx, hname⟩
        · exact absurd heq.symm hname
        · exact hx
      · rename_i hne
        rw [List.mem_cons, List.mem_cons, ih hds]
        constructor
        · rintro (rfl | rfl | ⟨hx, hname⟩)
          · exact .inr ⟨.inl rfl, Ne.symm hne⟩
          · exact .inl rfl
          · exact .inr ⟨.inr hx, hname⟩
        · rintro (rfl | ⟨rfl | hx, hname⟩)
          · exact .inr (.inl rfl)
          · exact .inl rfl
          · exact .inr (.inr ⟨hx, hname⟩)

/-- An entry takes the place of one with its name. -/
theorem mem_insert_iff :
    e ∈ (o.insert name offset).entries ↔ e = (name, offset) ∨ (e ∈ o.entries ∧ e.1 ≠ name) :=
  mem_insertEntry_iff o.sorted

end Offsets

/-- There is a field for the entry. -/
def Offers (fields : List (String × Data)) (e : String × UInt16) : Prop :=
  ∃ d, (e.1, d) ∈ fields ∧ uint16? d = some e.2

section Offers

variable {fields fields' : List (String × Data)} {start o : Offsets} {e : String × UInt16}

theorem not_offers_nil : ¬ Offers [] e := fun ⟨_, hd, _⟩ => absurd hd List.not_mem_nil

theorem offers_cons_iff {name : String} {d : Data} {offset : UInt16}
    (h : uint16? d = some offset) :
    Offers ((name, d) :: fields) e ↔ e = (name, offset) ∨ Offers fields e := by
  obtain ⟨m, y⟩ := e
  constructor
  · rintro ⟨d', hmem, hd'⟩
    rcases List.mem_cons.mp hmem with heq | hmem
    · cases heq
      rw [h] at hd'
      exact .inl (by rw [Option.some.inj hd'])
    · exact .inr ⟨d', hmem, hd'⟩
  · rintro (heq | ⟨d', hmem, hd'⟩)
    · cases heq
      exact ⟨d, List.mem_cons_self, h⟩
    · exact ⟨d', List.mem_cons_of_mem _ hmem, hd'⟩

/-- Fields are inserted one after the other, and each stands for itself. -/
theorem foldlM_insert_eq_some_iff (h : (fields.map Prod.fst).Nodup) :
    fields.foldlM (fun o e => (uint16? e.2).map (o.insert e.1)) start = some o ↔
      (∀ e ∈ fields, (uint16? e.2).isSome) ∧
      ∀ e, e ∈ o.entries ↔ Offers fields e ∨ (e ∈ start.entries ∧ e.1 ∉ fields.map Prod.fst) := by
  induction fields generalizing start with
  | nil =>
    simp only [List.foldlM_nil, Option.pure_def, Option.some.injEq, not_offers_nil, false_or,
      List.map_nil, List.not_mem_nil, not_false_eq_true, and_true, false_imp_iff, implies_true,
      true_and]
    exact ⟨fun heq e => heq ▸ Iff.rfl, fun h => Offsets.ext_mem fun e => (h e).symm⟩
  | cons field fields ih =>
    obtain ⟨n, d⟩ := field
    obtain ⟨hnew, hnodup⟩ := List.nodup_cons.mp h
    rw [List.foldlM_cons]
    cases hd : uint16? d with
    | none => simp [hd]
    | some x =>
      show fields.foldlM _ (start.insert n x) = some o ↔ _
      rw [ih hnodup]
      refine and_congr ?_ (forall_congr' fun e => ?_)
      · simp [hd]
      · rw [offers_cons_iff hd, Offsets.mem_insert_iff, List.map_cons, List.mem_cons]
        grind

/-- The offsets that come out of a record are those of its fields, whatever their order, if all of
them are numbers; otherwise there are none. -/
theorem offsets?_eq_some_iff (h : (fields.map Prod.fst).Nodup) :
    offsets? (.record fields) = some o ↔
      (∀ e ∈ fields, (uint16? e.2).isSome) ∧ ∀ e, e ∈ o.entries ↔ Offers fields e := by
  rw [offsets?, foldlM_insert_eq_some_iff h]
  simp [Offsets.empty]

theorem offsets?_perm (h : (fields.map Prod.fst).Nodup) (hp : fields.Perm fields') :
    offsets? (.record fields) = offsets? (.record fields') := by
  refine Option.ext fun o => ?_
  rw [offsets?_eq_some_iff h, offsets?_eq_some_iff ((hp.map Prod.fst).nodup h)]
  simp only [Offers, hp.mem_iff]

end Offers

theorem uint16?_toNat (n : UInt16) : uint16? (.int n.toNat) = some n := by
  have hlt : n.toNat < UInt16.size := n.toNat_lt
  rw [uint16?, if_pos ⟨by omega, by omega⟩, Int.toNat_natCast, UInt16.ofNat_toNat]

theorem uint64?_toNat (n : UInt64) : uint64? (.int n.toNat) = some n := by
  have hlt : n.toNat < UInt64.size := n.toNat_lt
  rw [uint64?, if_pos ⟨by omega, by omega⟩, Int.toNat_natCast, UInt64.ofNat_toNat]

theorem Offsets.nodup_toData (o : Offsets) :
    ((o.entries.map fun e => (e.1, Data.int e.2.toNat)).map Prod.fst).Nodup := by
  rw [List.map_map]
  exact o.nodup_names

theorem offsets?_toData (o : Offsets) : offsets? o.toData = some o := by
  refine (offsets?_eq_some_iff o.nodup_toData).mpr ⟨fun e he => ?_, fun e => ?_⟩
  · obtain ⟨x, -, rfl⟩ := List.mem_map.mp he
    rw [uint16?_toNat]
    rfl
  · constructor
    · intro he
      exact ⟨_, List.mem_map_of_mem he, uint16?_toNat e.2⟩
    · rintro ⟨d, hmem, hd⟩
      obtain ⟨x, hx, heq⟩ := List.mem_map.mp hmem
      obtain ⟨hname, rfl⟩ := Prod.mk.inj heq
      rw [uint16?_toNat] at hd
      rwa [← Prod.ext hname (Option.some.inj hd)]

/-! ## Codings -/

/-- How the values of a type are written, and read in any format; what was written is read back. -/
structure Coding (α : Type) where
  read : ListRule → Data → Option α
  write : α → Data
  reads_back : ∀ rule a, read rule (write a) = some a
  isPlain : ∀ a, (write a).IsPlain

namespace Coding

def text : Coding String := ⟨fun _ => text?, .text, fun _ _ => rfl, .text⟩

def bool : Coding Bool := ⟨fun _ => bool?, .bool, fun _ _ => rfl, .bool⟩

def uint16 : Coding UInt16 :=
  ⟨fun _ => uint16?, fun n => .int n.toNat, fun _ => uint16?_toNat, fun _ => .int _⟩

def uint64 : Coding UInt64 :=
  ⟨fun _ => uint64?, fun n => .int n.toNat, fun _ => uint64?_toNat, fun _ => .int _⟩

theorem optional?_of_ne {α : Type} {read : Data → Option α} {d : Data} (h : d ≠ .null) :
    optional? read d = (read d).map some := by
  cases d
  case null => exact absurd rfl h
  all_goals rfl

/-- A value that may be missing, if no value is written as null. -/
def optional {α : Type} (c : Coding α) (h : ∀ a, c.write a ≠ .null) : Coding (Option α) where
  read rule := optional? (c.read rule)
  write := .ofOption c.write
  reads_back
    | _, none => rfl
    | rule, some a => by
      show optional? _ (c.write a) = _
      rw [optional?_of_ne (h a), c.reads_back]
      rfl
  isPlain
    | none => .null
    | some a => c.isPlain a

def offsets : Coding Offsets where
  read _ := offsets?
  write := Offsets.toData
  reads_back _ := offsets?_toData
  isPlain o := by
    refine .record o.nodup_toData fun e he => ?_
    obtain ⟨x, -, rfl⟩ := List.mem_map.mp he
    exact .int _

end Coding

/-! ## Schemas -/

/-- A field of the records in `V`. -/
structure Column (V : Type) where
  name : String
  {α : Type}
  coding : Coding α
  get : V → α

/-- A type of records that are read and written by their columns: a missing field is the one of the
default, every choice of fields makes a record, and a record is written with all its fields in
order. -/
structure Schema (V : Type) where
  columns : List (Column V)
  default : V
  ofData? : ListRule → Data → Option V
  toData : V → Data
  nodup : (columns.map Column.name).Nodup
  exists_of_pick : ∀ pick : (c : Column V) → c.α, ∃ v, ∀ c ∈ columns, c.get v = pick c
  ofData?_eq_some_iff : ∀ rule d v, ofData? rule d = some v ↔
    ∃ slot, slots rule (columns.map Column.name) d = some slot ∧
      ∀ c ∈ columns, field (c.coding.read rule) (c.get default) (slot c.name) = some (c.get v)
  toData_eq : ∀ v, toData v = .record (columns.map fun c => (c.name, c.coding.write (c.get v)))

namespace Schema

variable {V : Type} (s : Schema V) {rule : ListRule} {c : Column V} {v : V} {d d' : Data} {k : Nat}

def names : List String := s.columns.map Column.name

/-- The fields of a record as they are written, in order. -/
def fields (v : V) : List (String × Data) :=
  s.columns.map fun c => (c.name, c.coding.write (c.get v))

theorem map_fst_fields (v : V) : (s.fields v).map Prod.fst = s.names := by
  rw [fields, List.map_map]
  rfl

theorem length_fields (v : V) : (s.fields v).length = s.names.length := by
  rw [← s.map_fst_fields v, List.length_map]

/-- A row the schema accepts holds, at each column, what that column reads of its slot, the
column's default when the slot is empty. -/
theorem ofData?_eq_some_of_slots {slot : String → Option Data}
    (hslots : slots rule s.names d = some slot) : s.ofData? rule d = some v ↔
      ∀ c ∈ s.columns,
        field (c.coding.read rule) (c.get s.default) (slot c.name) = some (c.get v) := by
  rw [s.ofData?_eq_some_iff, show slots rule (s.columns.map Column.name) d = some slot from hslots]
  simp

/-- Nothing but what is read at the columns counts. -/
theorem ofData?_congr {slot slot' : String → Option Data}
    (hslots : slots rule s.names d = some slot) (hslots' : slots rule s.names d' = some slot')
    (h : ∀ c ∈ s.columns, field (c.coding.read rule) (c.get s.default) (slot c.name) =
      field (c.coding.read rule) (c.get s.default) (slot' c.name)) :
    s.ofData? rule d = s.ofData? rule d' := by
  refine Option.ext fun v => ?_
  rw [s.ofData?_eq_some_of_slots hslots, s.ofData?_eq_some_of_slots hslots']
  exact forall₂_congr fun c hc => by rw [h c hc]

/-- Another value in the place of one says the same if the column reads both alike. -/
theorem ofData?_replace {name : String} {before after : List (String × Data)}
    (h : ∀ c ∈ s.columns, c.name = name → c.coding.read rule d = c.coding.read rule d') :
    s.ofData? rule (.record (before ++ (name, d) :: after)) =
      s.ofData? rule (.record (before ++ (name, d') :: after)) := by
  refine s.ofData?_congr rfl rfl fun c hc => ?_
  simp only [List.lookup_append, List.lookup_cons]
  by_cases hname : c.name = name
  · cases before.lookup c.name with
    | some x => rfl
    | none =>
      simp only [hname, beq_self_eq_true, Option.none_or]
      exact h c hc hname
  · simp only [beq_eq_false_iff_ne.mpr hname]

/-! ### Reading what was written -/

theorem lookup_fields (hc : c ∈ s.columns) :
    (s.fields v).lookup c.name = some (c.coding.write (c.get v)) := by
  refine (Data.lookup_eq_some_iff_mem ?_).mpr (List.mem_map_of_mem hc)
  rw [s.map_fst_fields]
  exact s.nodup

theorem toData_eq_fields (v : V) : s.toData v = .record (s.fields v) := s.toData_eq v

theorem reads_back (rule : ListRule) (v : V) : s.ofData? rule (s.toData v) = some v := by
  rw [s.toData_eq_fields, s.ofData?_eq_some_of_slots rfl]
  intro c hc
  rw [s.lookup_fields hc]
  exact c.coding.reads_back rule (c.get v)

theorem isPlain_toData (v : V) : (s.toData v).IsPlain := by
  rw [s.toData_eq_fields]
  refine .record ?_ fun e he => ?_
  · rw [s.map_fst_fields]
    exact s.nodup
  · obtain ⟨c, -, rfl⟩ := List.mem_map.mp he
    exact c.coding.isPlain _

/-- A record as a field of another one. -/
def coding : Coding V := ⟨s.ofData?, s.toData, s.reads_back, s.isPlain_toData⟩

/-! ### Lists in place of records -/

theorem slots_list {names : List String} {items : List Data} (h : items.length ≤ names.length) :
    slots rule names (.list items) = slots rule names (.record (names.zip items)) :=
  if_neg fun hlong => Nat.not_lt.mpr h hlong.2

/-- A list of values is the record of the first fields. -/
theorem ofData?_list {items : List Data} (h : items.length ≤ s.names.length) :
    s.ofData? rule (.list items) = s.ofData? rule (.record (s.names.zip items)) :=
  s.ofData?_congr (slots_list h) rfl fun _ _ => rfl

/-- So the first fields may be given without their names. -/
theorem ofData?_list_take (rule : ListRule) (v : V) (k : Nat) :
    s.ofData? rule (.list (((s.fields v).take k).map Prod.snd)) =
      s.ofData? rule (.record ((s.fields v).take k)) := by
  have hnames : s.names = ((s.fields v).take k).map Prod.fst ++ s.names.drop k := by
    rw [List.map_take, s.map_fst_fields, List.take_append_drop]
  have hzip : s.names.zip (((s.fields v).take k).map Prod.snd) = (s.fields v).take k := by
    rw [hnames, ← List.append_nil (((s.fields v).take k).map Prod.snd),
      List.zip_append (by rw [List.length_map, List.length_map]), List.zip_nil_right,
      List.append_nil]
    exact (List.zip_of_prod rfl rfl).symm
  rw [s.ofData?_list, hzip]
  rw [List.length_map, List.length_take, s.length_fields]
  exact Nat.min_le_right _ _

theorem name_mem_take (hc : c ∈ s.columns.take k) : c.name ∈ s.names.take k := by
  rw [names, ← List.map_take]
  exact List.mem_map_of_mem hc

theorem name_not_mem_take (hc : c ∈ s.columns.drop k) : c.name ∉ s.names.take k := by
  have hname : c.name ∈ s.names.drop k := by
    rw [names, ← List.map_drop]
    exact List.mem_map_of_mem hc
  exact fun htake => List.disjoint_take_drop s.nodup (Nat.le_refl k) htake hname

/-- The fields that are not among the first ones are those of the default. -/
theorem drop_fields_of_ofData? {fields : List (String × Data)}
    (hfields : fields.map Prod.fst = s.names.take k) (h : s.ofData? rule (.record fields) = some v) :
    (s.fields v).drop k = (s.fields s.default).drop k := by
  rw [s.ofData?_eq_some_of_slots rfl] at h
  rw [Schema.fields, Schema.fields, ← List.map_drop, ← List.map_drop]
  refine List.map_congr_left fun c hc => ?_
  have hnone : fields.lookup c.name = none := by
    rw [Data.lookup_eq_none_iff_not_mem, hfields]
    exact s.name_not_mem_take hc
  have hc' := h c (List.mem_of_mem_drop hc)
  rw [hnone] at hc'
  rw [Option.some.inj hc']

theorem drop_fields_of_list {items : List Data} (hlength : items.length ≤ s.names.length)
    (h : s.ofData? rule (.list items) = some v) :
    (s.fields v).drop items.length = (s.fields s.default).drop items.length := by
  rw [s.ofData?_list hlength] at h
  refine s.drop_fields_of_ofData? ?_ h
  rw [List.zip_eq_zip_take_min, Nat.min_eq_right hlength, List.take_length]
  exact List.map_fst_zip (by rw [List.length_take]; exact Nat.min_le_left _ _)

/-- **The first fields of a record are enough,** with the defaults for the others. -/
theorem ofData?_take (rule : ListRule) (v : V) (k : Nat) : ∃ v',
    s.ofData? rule (.record ((s.fields v).take k)) = some v' ∧
      s.fields v' = (s.fields v).take k ++ (s.fields s.default).drop k := by
  obtain ⟨v', hv'⟩ := s.exists_of_pick fun c =>
    if c.name ∈ s.names.take k then c.get v else c.get s.default
  have hfirst : ∀ c ∈ s.columns.take k, c.get v' = c.get v := fun c hc =>
    (hv' c (List.mem_of_mem_take hc)).trans (if_pos (s.name_mem_take hc))
  have hlast : ∀ c ∈ s.columns.drop k, c.get v' = c.get s.default := fun c hc =>
    (hv' c (List.mem_of_mem_drop hc)).trans (if_neg (s.name_not_mem_take hc))
  have htake : (s.fields v).take k = (s.fields v').take k := by
    rw [fields, fields, ← List.map_take, ← List.map_take]
    exact List.map_congr_left fun c hc => by rw [hfirst c hc]
  have hnames : ((s.fields v').take k).map Prod.fst = s.names.take k := by
    rw [List.map_take, s.map_fst_fields]
  have hread : s.ofData? rule (.record ((s.fields v').take k)) = some v' := by
    rw [s.ofData?_eq_some_of_slots rfl]
    intro c hc
    rw [← List.take_append_drop k s.columns, List.mem_append] at hc
    rcases hc with hc | hc
    · have hmem : (c.name, c.coding.write (c.get v')) ∈ (s.fields v').take k := by
        rw [fields, ← List.map_take]
        exact List.mem_map_of_mem hc
      have hnodup : (((s.fields v').take k).map Prod.fst).Nodup := hnames ▸ s.nodup.take
      rw [(Data.lookup_eq_some_iff_mem hnodup).mpr hmem]
      exact c.coding.reads_back rule (c.get v')
    · rw [Data.lookup_eq_none_iff_not_mem.mpr (hnames ▸ s.name_not_mem_take hc), hlast c hc]
      rfl
  refine ⟨v', htake ▸ hread, ?_⟩
  rw [htake, ← s.drop_fields_of_ofData? hnames hread, List.take_append_drop]

end Schema

/-! ## The records of a configuration -/

def HttpServerConfig.schema : Schema HttpServerConfig where
  columns := [⟨"host", .text, host⟩, ⟨"port", .optional .uint16 (fun _ => nofun), port⟩,
    ⟨"certfile", .optional .text (fun _ => nofun), certfile⟩,
    ⟨"keyfile", .optional .text (fun _ => nofun), keyfile⟩,
    ⟨"shutdown_grace_secs", .uint64, shutdownGraceSecs⟩]
  default := {}
  ofData? := ofData?
  toData := toData
  nodup := by decide
  exists_of_pick _ :=
    ⟨⟨_, _, _, _, _⟩, List.forall_iff_forall_mem.mp ⟨rfl, rfl, rfl, rfl, rfl⟩⟩
  ofData?_eq_some_iff rule d v := by
    simp only [← List.forall_iff_forall_mem, List.Forall, ofData?, Option.bind_eq_bind,
      Option.bind_eq_some_iff, Option.pure_def, Option.some.injEq]
    constructor
    · rintro ⟨slot, hslot, _, h1, _, h2, _, h3, _, h4, _, h5, rfl⟩
      exact ⟨slot, hslot, h1, h2, h3, h4, h5⟩
    · rintro ⟨slot, hslot, h1, h2, h3, h4, h5⟩
      exact ⟨slot, hslot, _, h1, _, h2, _, h3, _, h4, _, h5, rfl⟩
  toData_eq _ := rfl

def PortConfig.schema : Schema PortConfig where
  columns := [⟨"base_port", .uint16, basePort⟩, ⟨"offsets", .offsets, offsets⟩]
  default := {}
  ofData? := ofData?
  toData := toData
  nodup := by decide
  exists_of_pick _ := ⟨⟨_, _⟩, List.forall_iff_forall_mem.mp ⟨rfl, rfl⟩⟩
  ofData?_eq_some_iff rule d v := by
    simp only [← List.forall_iff_forall_mem, List.Forall, ofData?, Option.bind_eq_bind,
      Option.bind_eq_some_iff, Option.pure_def, Option.some.injEq]
    constructor
    · rintro ⟨slot, hslot, _, h1, _, h2, rfl⟩
      exact ⟨slot, hslot, h1, h2⟩
    · rintro ⟨slot, hslot, h1, h2⟩
      exact ⟨slot, hslot, _, h1, _, h2, rfl⟩
  toData_eq _ := rfl

def ObservabilityConfig.schema : Schema ObservabilityConfig where
  columns := [⟨"log_level", .text, logLevel⟩, ⟨"metrics_enabled", .bool, metricsEnabled⟩,
    ⟨"metrics_address", .text, metricsAddress⟩]
  default := {}
  ofData? := ofData?
  toData := toData
  nodup := by decide
  exists_of_pick _ := ⟨⟨_, _, _⟩, List.forall_iff_forall_mem.mp ⟨rfl, rfl, rfl⟩⟩
  ofData?_eq_some_iff rule d v := by
    simp only [← List.forall_iff_forall_mem, List.Forall, ofData?, Option.bind_eq_bind,
      Option.bind_eq_some_iff, Option.pure_def, Option.some.injEq]
    constructor
    · rintro ⟨slot, hslot, _, h1, _, h2, _, h3, rfl⟩
      exact ⟨slot, hslot, h1, h2, h3⟩
    · rintro ⟨slot, hslot, h1, h2, h3⟩
      exact ⟨slot, hslot, _, h1, _, h2, _, h3, rfl⟩
  toData_eq _ := rfl

def AdminConfig.schema : Schema AdminConfig where
  columns := [⟨"enabled", .bool, enabled⟩, ⟨"path", .text, path⟩,
    ⟨"api_key", .optional .text (fun _ => nofun), apiKey⟩]
  default := {}
  ofData? := ofData?
  toData := toData
  nodup := by decide
  exists_of_pick _ := ⟨⟨_, _, _⟩, List.forall_iff_forall_mem.mp ⟨rfl, rfl, rfl⟩⟩
  ofData?_eq_some_iff rule d v := by
    simp only [← List.forall_iff_forall_mem, List.Forall, ofData?, Option.bind_eq_bind,
      Option.bind_eq_some_iff, Option.pure_def, Option.some.injEq]
    constructor
    · rintro ⟨slot, hslot, _, h1, _, h2, _, h3, rfl⟩
      exact ⟨slot, hslot, h1, h2, h3⟩
    · rintro ⟨slot, hslot, h1, h2, h3⟩
      exact ⟨slot, hslot, _, h1, _, h2, _, h3, rfl⟩
  toData_eq _ := rfl

def HostConfig.schema : Schema HostConfig where
  columns := [⟨"http_server", HttpServerConfig.schema.coding, httpServer⟩,
    ⟨"ports", PortConfig.schema.coding, ports⟩,
    ⟨"observability", ObservabilityConfig.schema.coding, observability⟩,
    ⟨"admin", AdminConfig.schema.coding, admin⟩]
  default := {}
  ofData? := ofData?
  toData := toData
  nodup := by decide
  exists_of_pick _ :=
    ⟨⟨_, _, _, _⟩, List.forall_iff_forall_mem.mp ⟨rfl, rfl, rfl, rfl⟩⟩
  ofData?_eq_some_iff rule d v := by
    simp only [← List.forall_iff_forall_mem, List.Forall, ofData?, Option.bind_eq_bind,
      Option.bind_eq_some_iff, Option.pure_def, Option.some.injEq]
    constructor
    · rintro ⟨slot, hslot, _, h1, _, h2, _, h3, _, h4, rfl⟩
      exact ⟨slot, hslot, h1, h2, h3, h4⟩
    · rintro ⟨slot, hslot, h1, h2, h3, h4⟩
      exact ⟨slot, hslot, _, h1, _, h2, _, h3, _, h4, rfl⟩
  toData_eq _ := rfl

end AppHost.Config
