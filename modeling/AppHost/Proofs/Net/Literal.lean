import AppHost.Net.Bind
import AppHost.Proofs.Data.Json

/-!
# Addresses that need no name

A host that is an IP address stands for itself, and written with a port it reads back as the socket
address that it stands for, in whatever spelling it was given. A reader of addresses `StopsAt` each
character that no address has a place for: what it makes of a text does not depend on what follows
such a character. So inside brackets, or in front of a colon, an address is read as it is alone.
-/

namespace AppHost.Net

variable {α : Type} {read : List Char → Option (α × List Char)} {c : Char} {cs t : List Char}

/-! ## Readers that stop -/

/-- What `read` makes of a text is the same whatever follows it from `c` on. -/
def StopsAt (c : Char) (read : List Char → Option (α × List Char)) : Prop :=
  ∀ cs t, read (cs ++ c :: t) = (read cs).map fun x => (x.1, x.2 ++ c :: t)

theorem whole_eq_some_iff {a : α} : whole read cs = some a ↔ read cs = some (a, []) := by
  unfold whole
  split
  · next x hx => rw [hx, Option.some.injEq, Option.some.injEq, Prod.mk.injEq, and_iff_left rfl]
  · next hne =>
    simp only [reduceCtorEq, false_iff]
    exact hne a

/-- What is read as a whole is read in front of `c` too. -/
theorem StopsAt.read_append (h : StopsAt c read) {a : α} (hw : whole read cs = some a) :
    read (cs ++ c :: t) = some (a, c :: t) := by
  rw [h, whole_eq_some_iff.mp hw]
  rfl

/-- What is read as a whole has no `c` in it. -/
theorem StopsAt.not_mem (h : StopsAt c read) {a : α} (hw : whole read cs = some a) : c ∉ cs := by
  intro hc
  obtain ⟨before, after, rfl⟩ := List.append_of_mem hc
  rw [whole_eq_some_iff, h, Option.map_eq_some_iff] at hw
  obtain ⟨x, -, hx⟩ := hw
  simp at hx

theorem takeWhile_append_stop {p : Char → Bool} (hp : p c = false) (cs t : List Char) :
    (cs ++ c :: t).takeWhile p = cs.takeWhile p := by
  induction cs with
  | nil => simp [hp]
  | cons d cs ih => simp only [List.cons_append, List.takeWhile_cons, ih]

theorem drop_append_stop (p : Char → Bool) (cs t : List Char) :
    (cs ++ t).drop (cs.takeWhile p).length = cs.drop (cs.takeWhile p).length ++ t :=
  List.drop_append_of_le_length (List.takeWhile_prefix p).length_le

theorem readChar_append {d : Char} (h : d ≠ c) (cs t : List Char) :
    readChar d (cs ++ c :: t) = (readChar d cs).map (· ++ c :: t) := by
  cases cs with
  | nil => simp [readChar, h]
  | cons e cs =>
    simp only [List.cons_append, readChar]
    split <;> rfl

theorem readDecimal_stopsAt (bound : Nat) (hc : Text.isDigit c = false) :
    StopsAt c (readDecimal bound) := by
  intro cs t
  simp only [readDecimal, takeWhile_append_stop hc, drop_append_stop]
  cases Text.decimal? (cs.takeWhile Text.isDigit) with
  | none => rfl
  | some n =>
    dsimp only
    split <;> rfl

theorem readOctet_stopsAt (hc : Text.isDigit c = false) : StopsAt c readOctet := by
  intro cs t
  simp only [readOctet, takeWhile_append_stop hc, readDecimal_stopsAt 256 hc cs t]
  split
  · rfl
  · simp only [Option.map_map, Function.comp_def]

theorem readGroup_stopsAt (hc : Text.hexValue? c = none) : StopsAt c readGroup := by
  intro cs t
  have hp : (Text.hexValue? c).isSome = false := by rw [hc]; rfl
  simp only [readGroup, takeWhile_append_stop (p := fun c => (Text.hexValue? c).isSome) hp,
    drop_append_stop]
  split <;> rfl

/-- An IPv4 address has digits and points. -/
theorem readIpv4_stopsAt (hc : Text.isDigit c = false) (hpoint : '.' ≠ c) :
    StopsAt c readIpv4 := by
  intro cs t
  simp only [readIpv4, readOctet_stopsAt hc _ t, readChar_append hpoint, bind, pure,
    Option.bind_map, Option.map_bind, Function.comp_def, Option.map_some]

theorem isDigit_of_hexValue?_eq_none (hc : Text.hexValue? c = none) : Text.isDigit c = false := by
  unfold Text.hexValue? at hc
  split at hc
  · cases hc
  · next hd => exact Bool.eq_false_iff.mpr hd

theorem afterColon_append (first : Bool) (hcolon : ':' ≠ c) (cs t : List Char) :
    afterColon first (cs ++ c :: t) = (afterColon first cs).map (· ++ c :: t) := by
  cases first with
  | true => rfl
  | false => exact readChar_append hcolon cs t

theorem readGroups_append (hc : Text.hexValue? c = none) (hpoint : '.' ≠ c) (hcolon : ':' ≠ c)
    (limit : Nat) (first : Bool) (cs t : List Char) :
    readGroups limit first (cs ++ c :: t) =
      ((readGroups limit first cs).1, (readGroups limit first cs).2.1,
        (readGroups limit first cs).2.2 ++ c :: t) := by
  have hv4 := readIpv4_stopsAt (isDigit_of_hexValue?_eq_none hc) hpoint
  have hgroup := readGroup_stopsAt hc
  induction limit generalizing first cs with
  | zero => rfl
  | succ n ih =>
    have hlast : (if n = 0 then none else (afterColon first (cs ++ c :: t)).bind readIpv4) =
        (if n = 0 then none else (afterColon first cs).bind readIpv4).map
          fun x => (x.1, x.2 ++ c :: t) := by
      split
      · rfl
      · rw [afterColon_append first hcolon, Option.bind_map, Option.map_bind]
        exact congrArg _ (funext fun rest => hv4 rest t)
    have hnext : (afterColon first (cs ++ c :: t)).bind readGroup =
        ((afterColon first cs).bind readGroup).map fun x => (x.1, x.2 ++ c :: t) := by
      rw [afterColon_append first hcolon, Option.bind_map, Option.map_bind]
      exact congrArg _ (funext fun rest => hgroup rest t)
    rw [readGroups, readGroups, hlast, hnext]
    cases if n = 0 then none else (afterColon first cs).bind readIpv4 with
    | some x => rfl
    | none =>
      cases (afterColon first cs).bind readGroup with
      | none => rfl
      | some x => simp only [Option.map_some, Option.map_none, ih]

/-- The groups that `cs` begins with are followed by a gap, and that by `rest`. -/
structure Gap (cs rest : List Char) : Prop where
  noIpv4 : (readGroups 8 true cs).2.1 = false
  colons : (readGroups 8 true cs).2.2 = ':' :: ':' :: rest

/-- A gap stands for the groups that are missing. -/
theorem readIpv6_of_gap {rest : List Char} (hsize : (readGroups 8 true cs).1.length ≠ 8)
    (hgap : Gap cs rest) : ∃ h, readIpv6 cs =
      some (fillGroups (readGroups 8 true cs).1
        (readGroups (7 - (readGroups 8 true cs).1.length) true rest).1 h,
        (readGroups (7 - (readGroups 8 true cs).1.length) true rest).2.2) := by
  have h1 := length_readGroups 8 true cs
  have h2 := length_readGroups (7 - (readGroups 8 true cs).1.length) true rest
  refine ⟨by omega, ?_⟩
  simp only [readIpv6, dif_neg hsize, hgap.noIpv4, Bool.false_eq_true, if_false]
  split
  · next rest' h =>
    rw [hgap.colons] at h
    cases h
    rfl
  · next hno => exact absurd hgap.colons (hno rest)

theorem readIpv6_of_no_gap (hsize : (readGroups 8 true cs).1.length ≠ 8)
    (hgap : ∀ rest, ¬ Gap cs rest) : readIpv6 cs = none := by
  simp only [readIpv6, dif_neg hsize]
  split
  · rfl
  · next hv4 =>
    split
    · next rest hcolons => exact absurd ⟨Bool.eq_false_iff.mpr hv4, hcolons⟩ (hgap rest)
    · rfl

theorem gap_append_iff (hc : Text.hexValue? c = none) (hpoint : '.' ≠ c) (hcolon : ':' ≠ c)
    {after : List Char} :
    Gap (cs ++ c :: t) after ↔ ∃ rest, Gap cs rest ∧ after = rest ++ c :: t := by
  have hhead := readGroups_append hc hpoint hcolon 8 true cs t
  constructor
  · rintro ⟨hv4, hcolons⟩
    rw [hhead] at hv4 hcolons
    match hrest : (readGroups 8 true cs).2.2 with
    | [] =>
      rw [hrest] at hcolons
      exact absurd (List.cons.inj hcolons).1.symm hcolon
    | [d] =>
      rw [hrest] at hcolons
      exact absurd (List.cons.inj (List.cons.inj hcolons).2).1.symm hcolon
    | d :: e :: rest =>
      simp only [hrest, List.cons_append, List.cons.injEq] at hcolons
      obtain ⟨rfl, rfl, hafter⟩ := hcolons
      exact ⟨rest, ⟨hv4, hrest⟩, hafter.symm⟩
  · rintro ⟨rest, ⟨hv4, hcolons⟩, rfl⟩
    constructor
    · rwa [hhead]
    · rw [hhead, hcolons]
      rfl

/-- An IPv6 address has digits in base 16, colons and points. -/
theorem readIpv6_stopsAt (hc : Text.hexValue? c = none) (hpoint : '.' ≠ c) (hcolon : ':' ≠ c) :
    StopsAt c readIpv6 := by
  intro cs t
  have happend := fun limit first cs => readGroups_append hc hpoint hcolon limit first cs t
  have hhead := happend 8 true cs
  by_cases hsize : (readGroups 8 true cs).1.length = 8
  · simp only [readIpv6, hhead, dif_pos hsize, Option.map_some]
  · have hsize' : (readGroups 8 true (cs ++ c :: t)).1.length ≠ 8 := by rwa [hhead]
    by_cases hgap : ∃ rest, Gap cs rest
    · obtain ⟨rest, hrest⟩ := hgap
      have hrest' := (gap_append_iff hc hpoint hcolon (t := t)).mpr ⟨rest, hrest, rfl⟩
      obtain ⟨_, hread⟩ := readIpv6_of_gap hsize hrest
      obtain ⟨_, hread'⟩ := readIpv6_of_gap hsize' hrest'
      rw [hread, hread']
      simp only [hhead, happend, Option.map_some]
    · have hno := not_exists.mp hgap
      rw [readIpv6_of_no_gap hsize hno, readIpv6_of_no_gap hsize' fun after hafter => ?_]
      · rfl
      · obtain ⟨rest, hrest, -⟩ := (gap_append_iff hc hpoint hcolon).mp hafter
        exact hno rest hrest

/-! ## Colons -/

theorem mem_of_readGroup {g : UInt16} {rest : List Char} {d : Char}
    (h : readGroup cs = some (g, rest)) (hd : d ∈ rest) : d ∈ cs := by
  unfold readGroup at h
  dsimp only at h
  split at h
  · cases h
  · cases h
    exact List.mem_of_mem_drop hd

/-- There is a colon between any two groups. -/
theorem readGroups_of_not_mem (h : ':' ∉ cs) (limit : Nat) :
    readGroups limit false cs = ([], false, cs) := by
  have hcolon : afterColon false cs = none := by
    cases cs with
    | nil => rfl
    | cons d cs => exact if_neg fun e => h (List.mem_cons.mpr (.inl e))
  cases limit with
  | zero => rfl
  | succ n =>
    rw [readGroups, hcolon]
    simp

/-- The first group has no colon in front of it. -/
theorem readGroups_first {n : Nat} (hn : n ≠ 0) (cs : List Char) :
    readGroups (n + 1) true cs =
      match readIpv4 cs with
      | some (ip, rest) => ([ip.high, ip.low], true, rest)
      | none =>
        match readGroup cs with
        | some (g, rest) => let (gs, v4, rest) := readGroups n false rest; (g :: gs, v4, rest)
        | none => ([], false, cs) := by
  rw [readGroups, if_neg hn]
  rfl

/-- An IPv6 address has colons: what has none is read as one group at most, or as an IPv4
address. -/
theorem mem_of_readIpv6 {x : Ipv6 × List Char} (h : readIpv6 cs = some x) : ':' ∈ cs := by
  by_contra hno
  have hfirst := readGroups_first (n := 7) (by decide) cs
  have hlost : (readGroups 8 true cs).1.length ≠ 8 ∧ ∀ rest, ¬ Gap cs rest := by
    cases hv4 : readIpv4 cs with
    | some y =>
      rw [hv4] at hfirst
      refine ⟨by simp [hfirst], fun rest hgap => ?_⟩
      have hv4' := hgap.noIpv4
      rw [hfirst] at hv4'
      cases hv4'
    | none =>
      obtain ⟨gs, rest, hgs, hrest, hhead⟩ : ∃ gs rest, gs.length ≤ 1 ∧ ':' ∉ rest ∧
          readGroups 8 true cs = (gs, false, rest) := by
        rw [hfirst, hv4]
        cases hg : readGroup cs with
        | none => exact ⟨[], cs, Nat.zero_le 1, hno, rfl⟩
        | some y =>
          have hrest : ':' ∉ y.2 := fun hd => hno (mem_of_readGroup hg hd)
          exact ⟨[y.1], y.2, Nat.le_refl 1, hrest, by simp only [readGroups_of_not_mem hrest]⟩
      refine ⟨by rw [hhead]; dsimp only; omega, fun after hgap => hrest ?_⟩
      have hcolons := hgap.colons
      rw [hhead] at hcolons
      rw [show rest = _ from hcolons]
      exact List.mem_cons_self
  rw [readIpv6_of_no_gap hlost.1 hlost.2] at h
  cases h

/-! ## Addresses in socket addresses -/

theorem readPort_toDigits (port : UInt16) :
    readPort (':' :: Nat.toDigits 10 port.toNat) = some (port, []) := by
  have hall : (Nat.toDigits 10 port.toNat).takeWhile Text.isDigit = Nat.toDigits 10 port.toNat :=
    List.takeWhile_eq_self_iff.mpr fun _ => Text.isDigit_of_mem_toDigits
  have hread : readDecimal UInt16.size (Nat.toDigits 10 port.toNat) = some (port.toNat, []) := by
    simp only [readDecimal, hall, Text.decimal?_toDigits, port.toNat_lt_size, if_true,
      List.drop_length]
  simp [readPort, readChar, hread]

/-- An IPv4 address and a port. -/
theorem whole_readSocketV4 {ip : Ipv4} (h : whole readIpv4 cs = some ip) (port : UInt16) :
    whole readSocketV4 (cs ++ ':' :: Nat.toDigits 10 port.toNat) = some { ip := .v4 ip, port } := by
  have hread := (readIpv4_stopsAt (c := ':') rfl (by decide)).read_append
    (t := Nat.toDigits 10 port.toNat) h
  rw [whole_eq_some_iff]
  simp [readSocketV4, hread, readPort_toDigits]

/-- An IPv6 address in brackets and a port. -/
theorem whole_readSocketV6 {ip : Ipv6} (h : whole readIpv6 cs = some ip) (port : UInt16) :
    whole readSocketV6 ('[' :: (cs ++ ']' :: ':' :: Nat.toDigits 10 port.toNat)) =
      some { ip := .v6 ip, port } := by
  have hread := (readIpv6_stopsAt (c := ']') rfl (by decide) (by decide)).read_append
    (t := ':' :: Nat.toDigits 10 port.toNat) h
  have hzone : readZone (']' :: ':' :: Nat.toDigits 10 port.toNat) = none := rfl
  rw [whole_eq_some_iff]
  simp [readSocketV6, readChar, hread, hzone, readPort_toDigits]

/-! ## Hosts that are addresses -/

namespace BindAddress

variable {host : String} {ip : Ip}

theorem toList_show_of_not_mem (hne : host.isEmpty = false) (h : ':' ∉ host.toList)
    (port : UInt16) : (BindAddress.mk host port).show.toList =
      host.toList ++ ':' :: Nat.toDigits 10 port.toNat := by
  have hcolon : host.toList.contains ':' = false := by simpa using h
  simp only [BindAddress.show, hne, hcolon, Bool.false_eq_true, if_false, String.toList_append,
    List.append_assoc]
  exact congrArg (fun ds => host.toList ++ ':' :: ds) Nat.toList_repr

theorem toList_show_of_mem (hne : host.isEmpty = false) (h : ':' ∈ host.toList) (port : UInt16) :
    (BindAddress.mk host port).show.toList =
      '[' :: (host.toList ++ ']' :: ':' :: Nat.toDigits 10 port.toNat) := by
  have hcolon : host.toList.contains ':' = true := by simpa using h
  simp only [BindAddress.show, hne, hcolon, Bool.false_eq_true, if_false, if_true,
    String.toList_append, List.append_assoc]
  exact congrArg (fun ds => '[' :: (host.toList ++ ']' :: ':' :: ds)) Nat.toList_repr

theorem isEmpty_of_literal (h : Ip.parse? host = some ip) : host.isEmpty = false := by
  refine Bool.eq_false_iff.mpr fun he => ?_
  rw [String.isEmpty_iff.mp he] at h
  cases h

/-- With a port an address is shown as the socket address that it makes with that port. -/
theorem parse?_show (h : Ip.parse? host = some ip) (port : UInt16) :
    SocketAddr.parse? (BindAddress.mk host port).show = some { ip, port } := by
  have hne := isEmpty_of_literal h
  rw [Ip.parse?, Option.or_eq_some_iff] at h
  rcases h with h | ⟨-, h⟩
  · obtain ⟨ip4, h4, rfl⟩ := Option.map_eq_some_iff.mp h
    have hread : whole readIpv4 host.toList = some ip4 := by
      rw [Ipv4.parse?] at h4
      split at h4
      · cases h4
      · exact h4
    have hcolon := (readIpv4_stopsAt (c := ':') rfl (by decide)).not_mem hread
    rw [SocketAddr.parse?, toList_show_of_not_mem hne hcolon, whole_readSocketV4 hread]
    rfl
  · obtain ⟨ip6, h6, rfl⟩ := Option.map_eq_some_iff.mp h
    have hcolon := mem_of_readIpv6 (whole_eq_some_iff.mp h6)
    have hbracket : ∀ cs, whole readSocketV4 ('[' :: cs) = none := fun _ => rfl
    rw [SocketAddr.parse?, toList_show_of_mem hne hcolon, hbracket, Option.none_or]
    exact whole_readSocketV6 h6 port

/-- **A host that is an address is that address, and says so.** Whatever the network knows about
names, it resolves to the address itself with the port; and what is shown of it, in whatever
spelling it was given, is a socket address, the one that it resolves to. -/
theorem literal_resolves_as_shown (h : Ip.parse? host = some ip) (port : UInt16) (net : Network) :
    let a : BindAddress := ⟨host, port⟩
    a.resolve net = .ok { ip, port } ∧ SocketAddr.parse? a.show = some { ip, port } := by
  intro a
  have hhost : a.resolverHost = host := by
    rw [resolverHost, if_neg (by rw [isEmpty_of_literal h]; decide)]
  exact ⟨resolve_of_literal net (hhost ▸ h), parse?_show h port⟩

/-- Groups with leading zeros, in both cases, around a gap, with an IPv4 address at the end; and a
network that knows no names. -/
theorem literal_resolves_as_shown_mixed :
    let net : Network := { lookup := fun _ => .error .nulInName, listen := fun a => .ok a }
    let a : BindAddress := ⟨"0Fe8::00aB:9.8.7.6", 8080⟩
    let ip : Ip := .v6 ⟨[0xfe8, 0, 0, 0, 0, 0xab, 0x908, 0x706], rfl⟩
    Ip.parse? a.host = some ip ∧ a.resolve net = .ok { ip, port := 8080 } ∧
      a.show = "[0Fe8::00aB:9.8.7.6]:8080" ∧
      SocketAddr.parse? a.show = some { ip, port := 8080 } := by
  intro net a ip
  have h : Ip.parse? a.host = some ip := by decide +kernel
  obtain ⟨hresolve, hshow⟩ := literal_resolves_as_shown h 8080 net
  exact ⟨h, hresolve, by decide +kernel, hshow⟩

end BindAddress

end AppHost.Net
