import AppHost.Config.Validation
import AppHost.Proofs.Config.Schema

/-!
# Spellings of a configuration

A configuration can be spelt in many ways: its records may be given as lists, the fields may come in
any order, and fields that nobody knows may stand among them, at every depth. All spellings are read
alike (`ofData?_respelt`). One of them is the text that a configuration is written as.
-/

namespace AppHost.Config

/-! ## Parts -/

/-- The records that a configuration is made of, and the configuration itself. -/
inductive Part where
  | host
  | httpServer
  | ports
  | observability
  | admin
  deriving DecidableEq, Repr

namespace Part

abbrev Value : Part → Type
  | host => HostConfig
  | httpServer => HttpServerConfig
  | ports => PortConfig
  | observability => ObservabilityConfig
  | admin => AdminConfig

def schema : (p : Part) → Schema p.Value
  | host => HostConfig.schema
  | httpServer => HttpServerConfig.schema
  | ports => PortConfig.schema
  | observability => ObservabilityConfig.schema
  | admin => AdminConfig.schema

/-- The part that stands under a name in a configuration. -/
def ofName? : String → Option Part
  | "http_server" => some httpServer
  | "ports" => some ports
  | "observability" => some observability
  | "admin" => some admin
  | _ => none

variable {p : Part} {rule : ListRule} {d d' : Data}

/-- A configuration reads its parts as they are read alone. -/
theorem read_congr {c : Column HostConfig} (hc : c ∈ HostConfig.schema.columns)
    (hp : ofName? c.name = some p) (h : p.schema.ofData? rule d = p.schema.ofData? rule d') :
    c.coding.read rule d = c.coding.read rule d' := by
  simp only [HostConfig.schema, List.mem_cons, List.not_mem_nil, or_false] at hc
  rcases hc with rfl | rfl | rfl | rfl
  all_goals
    cases hp
    exact h

end Part

/-! ## Spellings -/

/-- Two spellings of a part. A record may be the list of its first values; its fields may be
reordered if no name comes twice; fields that are not among those of the part may come in addition;
and what is spelt anew may be a part of the configuration, or the record of the offsets, in which
every name counts. -/
inductive Respelt : Part → Data → Data → Prop where
  | refl (p : Part) (d : Data) : Respelt p d d
  | symm {p : Part} {d d' : Data} : Respelt p d d' → Respelt p d' d
  | trans {p : Part} {d d' d'' : Data} : Respelt p d d' → Respelt p d' d'' → Respelt p d d''
  | list {p : Part} {items : List Data} : items.length ≤ p.schema.names.length →
    Respelt p (.list items) (.record (p.schema.names.zip items))
  | reorder {p : Part} {fields fields' : List (String × Data)} : (fields.map Prod.fst).Nodup →
    fields.Perm fields' → Respelt p (.record fields) (.record fields')
  | unknown {p : Part} {fields : List (String × Data)} {name : String} (d : Data) :
    name ∉ p.schema.names → Respelt p (.record fields) (.record ((name, d) :: fields))
  | part {p : Part} {name : String} {before after : List (String × Data)} {d d' : Data} :
    Part.ofName? name = some p → Respelt p d d' →
    Respelt .host (.record (before ++ (name, d) :: after)) (.record (before ++ (name, d') :: after))
  | offsets {before after fields fields' : List (String × Data)} : (fields.map Prod.fst).Nodup →
    fields.Perm fields' → Respelt .ports (.record (before ++ ("offsets", .record fields) :: after))
      (.record (before ++ ("offsets", .record fields') :: after))

/-- **All spellings are read alike.** -/
theorem ofData?_respelt {p : Part} {d d' : Data} (h : Respelt p d d') (rule : ListRule) :
    p.schema.ofData? rule d = p.schema.ofData? rule d' := by
  induction h with
  | refl => rfl
  | symm _ ih => exact ih.symm
  | trans _ _ ih ih' => exact ih.trans ih'
  | list hlength => exact Schema.ofData?_list _ hlength
  | reorder hnodup hperm =>
    exact Schema.ofData?_congr _ rfl rfl fun c _ => by rw [Data.lookup_perm hnodup hperm]
  | @unknown p fields name d hname =>
    refine Schema.ofData?_congr _ rfl rfl fun c hc => ?_
    have hne : c.name ≠ name := fun heq => hname (heq ▸ List.mem_map_of_mem hc)
    rw [List.lookup_cons, beq_eq_false_iff_ne.mpr hne]
  | part hp _ ih =>
    refine HostConfig.schema.ofData?_replace fun c hc hname => ?_
    exact Part.read_congr hc (hname ▸ hp) ih
  | offsets hnodup hperm =>
    refine PortConfig.schema.ofData?_replace fun c hc hname => ?_
    simp only [PortConfig.schema, List.mem_cons, List.not_mem_nil, or_false] at hc
    rcases hc with rfl | rfl
    · exact absurd hname (by decide)
    · exact offsets?_perm hnodup hperm

/-! ## Texts and lists -/

/-- The configuration that a JSON text holds. -/
def HostConfig.ofJson? (text : String) : Option HostConfig :=
  (Data.ofJson? text).bind (HostConfig.ofData? .exact)

theorem HostConfig.ofJson?_json (c : HostConfig) : HostConfig.ofJson? c.toData.json = some c := by
  have hplain : c.toData.IsPlain := HostConfig.schema.isPlain_toData c
  rw [HostConfig.ofJson?, Data.ofJson?_json hplain, Option.bind_some]
  exact HostConfig.schema.reads_back .exact c

/-- **A configuration may be spelt in many ways.** What it is written as in JSON is read as the same
configuration, and judged as it is. A part of it, and the whole as well, may be given as the list of
its first values in order instead of as the record of the fields that they stand for: both say the
same, and if they say anything, then the fields after those are the ones of the part's own default.
The first values of any part `v` do say something, for every number of them. And all other spellings
of a part, with fields in another order, with fields that nobody knows, with lists in place of
records in it, are read alike. -/
theorem HostConfig.spellings_agree :
    (∀ c : HostConfig, HostConfig.ofJson? c.toData.json = some c ∧
      (HostConfig.ofJson? c.toData.json).map validated = some (validated c)) ∧
    (∀ (p : Part) (rule : ListRule) (items : List Data), items.length ≤ p.schema.names.length →
      p.schema.ofData? rule (.list items) =
          p.schema.ofData? rule (.record (p.schema.names.zip items)) ∧
        ∀ v, p.schema.ofData? rule (.list items) = some v →
          (p.schema.fields v).drop items.length =
            (p.schema.fields p.schema.default).drop items.length) ∧
    (∀ (p : Part) (rule : ListRule) (v : p.Value) (k : Nat), ∃ v',
      p.schema.ofData? rule (.list (((p.schema.fields v).take k).map Prod.snd)) = some v' ∧
        p.schema.ofData? rule (.record ((p.schema.fields v).take k)) = some v' ∧
        p.schema.fields v' =
          (p.schema.fields v).take k ++ (p.schema.fields p.schema.default).drop k) ∧
    ∀ (p : Part) (rule : ListRule) (d d' : Data), Respelt p d d' →
      p.schema.ofData? rule d = p.schema.ofData? rule d' := by
  refine ⟨fun c => ?_, fun p rule items hlength => ?_, fun p rule v k => ?_,
    fun p rule d d' h => ofData?_respelt h rule⟩
  · rw [HostConfig.ofJson?_json]
    exact ⟨rfl, rfl⟩
  · exact ⟨p.schema.ofData?_list hlength, fun v hv => p.schema.drop_fields_of_list hlength hv⟩
  · obtain ⟨v', hread, hfields⟩ := p.schema.ofData?_take rule v k
    exact ⟨v', (p.schema.ofData?_list_take rule v k).trans hread, hread, hfields⟩

/-- Ports as a list, beside a field that nobody knows. -/
theorem HostConfig.spellings_agree_ports :
    let list : Data := .record [("ports", .list [.int 6000]), ("more", .null)]
    let record : Data := .record [("ports", .record [("base_port", .int 6000)])]
    Respelt .host list record ∧
      HostConfig.ofData? .exact list = HostConfig.ofData? .exact record ∧
      HostConfig.ofData? .exact record = some { ports := { basePort := 6000 } } := by
  intro list record
  have hrespelt : Respelt .host list record :=
    .trans (.reorder (by decide) (.swap _ _ _)) <|
      .trans (.symm (.unknown .null (by decide))) <|
        @Respelt.part .ports "ports" [] [] _ _ rfl (.list (by decide))
  obtain ⟨-, -, -, hagree⟩ := HostConfig.spellings_agree
  exact ⟨hrespelt, hagree .host .exact list record hrespelt, rfl⟩

end AppHost.Config
