import AppHost.Tls.Curve
import AppHost.Tls.Digest

/-!
# The Edwards curve

The curve `y² - x² = 1 + d x² y²` over the field of `2 ^ 255 - 19` elements, on which the public key
of a secret is a multiple of a fixed point, and the multiple comes from a digest of the secret.
Points are computed with four coordinates: `(x, y, z, t)` stands for the point `(x / z, y / z)`, and
`t` is `x y / z`.
-/

namespace AppHost.Tls.Edwards

def prime : Nat := 1 <<< 255 - 19

def inverse (a : Nat) : Nat := inverseMod prime a 255

def d : Nat := (prime - 121665) * inverse 121666 % prime

structure Point where
  x : Nat
  y : Nat
  z : Nat
  t : Nat
  deriving DecidableEq, Repr

def ofAffine (x y : Nat) : Point := ⟨x, y, 1, x * y % prime⟩

/-- The point whose multiples are public keys. -/
def base : Point :=
  ofAffine 15112221349535400772501151409588531511454012693041857206046113283949847762202
    (4 * inverse 5 % prime)

def neutral : Point := ofAffine 0 1

def add (p q : Point) : Point :=
  let a := (p.y + prime - p.x) * (q.y + prime - q.x) % prime
  let b := (p.y + p.x) * (q.y + q.x) % prime
  let c := 2 * d * p.t * q.t % prime
  let w := 2 * p.z * q.z % prime
  let e := b + prime - a
  let f := w + prime - c
  let g := w + c
  let h := b + a
  ⟨e * f % prime, g * h % prime, f * g % prime, e * h % prime⟩

/-- `n` times the point `p`, over the lowest `bits` bits of `n`. -/
def times (p : Point) : Nat → Nat → Point
  | 0, _ => neutral
  | bits + 1, n =>
    let h := times (add p p) bits (n / 2)
    if n % 2 = 1 then add p h else h

/-- The number that bytes spell, the lowest first. -/
def number (bs : Bytes) : Nat := bs.foldr (fun b n => b.toNat + 256 * n) 0

/-- `n` in 32 bytes, the lowest first. -/
def bytesOf (n : Nat) : Bytes := (List.range 32).map fun k => .ofNat (n >>> (8 * k) % 256)

/-- The second coordinate, with the lowest bit of the first one on top. -/
def encode (p : Point) : Bytes :=
  let i := inverse p.z
  bytesOf (p.y * i % prime + (p.x * i % prime % 2) <<< 255)

/-- The multiple that belongs to a secret: of the first half of the digest, the lowest three bits
are cleared and the highest bit but one is the top. -/
def scalar (secret : Bytes) : Nat :=
  let n := number ((Digest.sha512 secret).take 32) % 1 <<< 254
  n - n % 8 + 1 <<< 254

/-- The public key of a secret of 32 bytes. -/
def publicKey? (secret : Bytes) : Option Bytes :=
  if secret.length = 32 then some (encode (times base 255 (scalar secret))) else none

end AppHost.Tls.Edwards
