import AppHost.Text.Ascii
import AppHost.Text.Quoted

/-!
# IP addresses

Numeric addresses in their usual spellings. An IPv4 address is four decimal groups without
leading zeros; an IPv6 address is eight groups in base 16, of which one run may be left out as
`::` and the last two may be spelled as an IPv4 address. A socket address adds a port. Readers
take what they can from the front of a text and give back the rest.
-/

namespace AppHost.Net

structure Ipv4 where
  a : UInt8
  b : UInt8
  c : UInt8
  d : UInt8
  deriving DecidableEq, Repr

/-- Eight groups of 16 bits. -/
structure Ipv6 where
  groups : List UInt16
  size : groups.length = 8
  deriving DecidableEq, Repr

inductive Ip where
  | v4 (ip : Ipv4)
  | v6 (ip : Ipv6)
  deriving DecidableEq, Repr

/-- Whether the address stands for all interfaces. -/
def Ip.coversAll : Ip → Bool
  | .v4 ip => ip = ⟨0, 0, 0, 0⟩
  | .v6 ip => ip.groups.all (· == 0)

structure SocketAddr where
  ip : Ip
  port : UInt16
  /-- The zone of an IPv6 address; zero means none. -/
  scope : UInt32 := 0
  deriving DecidableEq, Repr

/-! ## Reading -/

/-- A number in base 10 below `bound` from the front of `cs`; zeros may lead it. -/
def readDecimal (bound : Nat) (cs : List Char) : Option (Nat × List Char) :=
  let ds := cs.takeWhile Text.isDigit
  match Text.decimal? ds with
  | some n => if n < bound then some (n, cs.drop ds.length) else none
  | none => none

/-- A group of an IPv4 address: up to three digits, no leading zero, at most 255. -/
def readOctet (cs : List Char) : Option (UInt8 × List Char) :=
  let ds := cs.takeWhile Text.isDigit
  if 3 < ds.length || (1 < ds.length && ds.head? == some '0') then none
  else (readDecimal 256 cs).map fun (n, rest) => (UInt8.ofNat n, rest)

def readChar (c : Char) : List Char → Option (List Char)
  | [] => none
  | d :: cs => if c = d then some cs else none

def readIpv4 (cs : List Char) : Option (Ipv4 × List Char) := do
  let (a, cs) ← readOctet cs
  let (b, cs) ← readOctet (← readChar '.' cs)
  let (c, cs) ← readOctet (← readChar '.' cs)
  let (d, cs) ← readOctet (← readChar '.' cs)
  return (⟨a, b, c, d⟩, cs)

/-- A group of an IPv6 address: one to four digits in base 16. -/
def readGroup (cs : List Char) : Option (UInt16 × List Char) :=
  let ds := cs.takeWhile fun c => (Text.hexValue? c).isSome
  if ds = [] || 4 < ds.length then none
  else
    let n := ds.foldl (fun n c => n * 16 + (Text.hexValue? c).getD 0) 0
    some (UInt16.ofNat n, cs.drop ds.length)

/-- `cs` after the colon between two groups; before the first group there is none. -/
def afterColon (first : Bool) (cs : List Char) : Option (List Char) :=
  if first then some cs else readChar ':' cs

def Ipv4.high (ip : Ipv4) : UInt16 := UInt16.ofNat (ip.a.toNat * 256 + ip.b.toNat)

def Ipv4.low (ip : Ipv4) : UInt16 := UInt16.ofNat (ip.c.toNat * 256 + ip.d.toNat)

/-- At most `limit` groups, and whether an IPv4 address supplied the last two. -/
def readGroups (limit : Nat) (first : Bool) (cs : List Char) : List UInt16 × Bool × List Char :=
  match limit with
  | 0 => ([], false, cs)
  | n + 1 =>
    match if n = 0 then none else (afterColon first cs).bind readIpv4 with
    | some (ip, rest) => ([ip.high, ip.low], true, rest)
    | none =>
      match (afterColon first cs).bind readGroup with
      | some (g, rest) =>
        let (gs, v4, rest) := readGroups n false rest
        (g :: gs, v4, rest)
      | none => ([], false, cs)

theorem length_readGroups (limit : Nat) (first : Bool) (cs : List Char) :
    (readGroups limit first cs).1.length ≤ limit := by
  induction limit generalizing first cs with
  | zero => simp [readGroups]
  | succ n ih =>
    rw [readGroups]
    split
    · rename_i ip rest h
      split at h
      · simp at h
      · simp; omega
    · split
      · rename_i g rest _
        have := ih false rest
        simp only [List.length_cons]
        omega
      · simp

/-- The groups before and after `::` with as many zeros between them as are missing. -/
def fillGroups (head tail : List UInt16) (h : head.length + tail.length ≤ 8) : Ipv6 :=
  ⟨head ++ List.replicate (8 - head.length - tail.length) 0 ++ tail, by simp; omega⟩

def readIpv6 (cs : List Char) : Option (Ipv6 × List Char) :=
  let head := readGroups 8 true cs
  if h : head.1.length = 8 then some (⟨head.1, h⟩, head.2.2)
  else if head.2.1 then none
  else
    match head.2.2 with
    | ':' :: ':' :: rest =>
      let limit := 7 - head.1.length
      let tail := readGroups limit true rest
      have h1 : head.1.length ≤ 8 := length_readGroups 8 true cs
      have h2 : tail.1.length ≤ limit := length_readGroups limit true rest
      some (fillGroups head.1 tail.1 (by omega), tail.2.2)
    | _ => none

/-- All of `cs`, read by `read`. -/
def whole {α : Type} (read : List Char → Option (α × List Char)) (cs : List Char) : Option α :=
  match read cs with
  | some (x, []) => some x
  | _ => none

def Ipv4.parse? (s : String) : Option Ipv4 :=
  if s.utf8ByteSize > 15 then none else whole readIpv4 s.toList

def Ipv6.parse? (s : String) : Option Ipv6 := whole readIpv6 s.toList

def Ip.parse? (s : String) : Option Ip :=
  ((Ipv4.parse? s).map .v4).or ((Ipv6.parse? s).map .v6)

def readPort (cs : List Char) : Option (UInt16 × List Char) := do
  let (n, rest) ← readDecimal UInt16.size (← readChar ':' cs)
  return (UInt16.ofNat n, rest)

def readZone (cs : List Char) : Option (UInt32 × List Char) := do
  let (n, rest) ← readDecimal UInt32.size (← readChar '%' cs)
  return (UInt32.ofNat n, rest)

def readSocketV4 (cs : List Char) : Option (SocketAddr × List Char) := do
  let (ip, cs) ← readIpv4 cs
  let (port, cs) ← readPort cs
  return ({ ip := .v4 ip, port }, cs)

def readSocketV6 (cs : List Char) : Option (SocketAddr × List Char) := do
  let (ip, cs) ← readIpv6 (← readChar '[' cs)
  let (scope, cs) := (readZone cs).getD (0, cs)
  let (port, cs) ← readPort (← readChar ']' cs)
  return ({ ip := .v6 ip, port, scope }, cs)

def SocketAddr.parse? (s : String) : Option SocketAddr :=
  (whole readSocketV4 s.toList).or (whole readSocketV6 s.toList)

/-! ## Writing -/

def Ipv4.show (ip : Ipv4) : String := s!"{ip.a.toNat}.{ip.b.toNat}.{ip.c.toNat}.{ip.d.toNat}"

def hexText (g : UInt16) : String := String.ofList (Text.hexDigits g.toNat)

def joinGroups (gs : List UInt16) : String := ":".intercalate (gs.map hexText)

/-- Length of the run of zeros that `gs` begins with. -/
def zeroRun (gs : List UInt16) : Nat := (gs.takeWhile (· == 0)).length

/-- Start and length of the first longest run of zeros. -/
def longestRun : List UInt16 → Nat × Nat
  | [] => (0, 0)
  | g :: gs =>
    let here := zeroRun (g :: gs)
    let (start, len) := longestRun gs
    if 0 < here ∧ len ≤ here then (0, here) else (start + 1, len)

/-- An address that embeds an IPv4 address shows it; in any other the first longest run of at
least two zeros is left out. -/
def Ipv6.show (ip : Ipv6) : String :=
  match ip.groups with
  | [0, 0, 0, 0, 0, 0xffff, h, l] =>
    s!"::ffff:{h.toNat / 256}.{h.toNat % 256}.{l.toNat / 256}.{l.toNat % 256}"
  | gs =>
    let (start, len) := longestRun gs
    if 1 < len then s!"{joinGroups (gs.take start)}::{joinGroups (gs.drop (start + len))}"
    else joinGroups gs

def Ip.show : Ip → String
  | .v4 ip => ip.show
  | .v6 ip => ip.show

def SocketAddr.show (s : SocketAddr) : String :=
  match s.ip with
  | .v4 ip => s!"{ip.show}:{s.port.toNat}"
  | .v6 ip =>
    if s.scope = 0 then s!"[{ip.show}]:{s.port.toNat}"
    else s!"[{ip.show}%{s.scope.toNat}]:{s.port.toNat}"

end AppHost.Net
