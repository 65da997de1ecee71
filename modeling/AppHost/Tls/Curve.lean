import AppHost.Http.Header

/-!
# Elliptic curves

The curves `y² = x³ - 3x + b` over a prime field on which the public key of a private number `d`
is the point `d · G`. Points are computed with three coordinates: `(x, y, z)` stands for the point
`(x / z², y / z³)`, and `z = 0` for the point at infinity.
-/

namespace AppHost.Tls

/-- `a ^ n` modulo `m` by squaring, over the lowest `bits` bits of `n`. -/
def powMod (m a : Nat) : Nat → Nat → Nat
  | 0, _ => 1
  | bits + 1, n =>
    let h := powMod m (a * a % m) bits (n / 2)
    if n % 2 = 1 then a * h % m else h

/-- The inverse of `a` modulo a prime of at most `bits` bits, which is a power of `a`. -/
def inverseMod (prime a bits : Nat) : Nat := powMod prime a bits (prime - 2)

structure Curve where
  prime : Nat
  b : Nat
  gx : Nat
  gy : Nat
  /-- The number of points. -/
  order : Nat
  /-- Bytes of a coordinate. -/
  width : Nat
  deriving DecidableEq, Repr

structure Point where
  x : Nat
  y : Nat
  z : Nat
  deriving DecidableEq, Repr

namespace Curve

def p256 : Curve where
  prime := 0xffffffff00000001000000000000000000000000ffffffffffffffffffffffff
  b := 0x5ac635d8aa3a93e7b3ebbd55769886bc651d06b0cc53b0f63bce3c3e27d2604b
  gx := 0x6b17d1f2e12c4247f8bce6e563a440f277037d812deb33a0f4a13945d898c296
  gy := 0x4fe342e2fe1a7f9b8ee7eb4a7c0f9e162bce33576b315ececbb6406837bf51f5
  order := 0xffffffff00000000ffffffffffffffffbce6faada7179e84f3b9cac2fc632551
  width := 32

def p384 : Curve where
  prime := 0xfffffffffffffffffffffffffffffffffffffffffffffffffffffffffffffffeffffffff0000000000000000ffffffff
  b := 0xb3312fa7e23ee7e4988e056be3f82d19181d9c6efe8141120314088f5013875ac656398d8a2ed19d2a85c8edd3ec2aef
  gx := 0xaa87ca22be8b05378eb1c71ef320ad746e1d3b628ba79b9859f741e082542a385502f25dbf55296c3a545e3872760ab7
  gy := 0x3617de4a96262c6f5d9e98bf9292dc29f8f41dbd289a147ce9da3113b5f0b8c00a60b1ce1d7e819d7a431d7c90ea0e5f
  order := 0xffffffffffffffffffffffffffffffffffffffffffffffffc7634d81f4372ddf581a0db248b0a77aecec196accc52973
  width := 48

def p521 : Curve where
  prime := 1 <<< 521 - 1
  b := 0x051953eb9618e1c9a1f929a21a0b68540eea2da725b99b315f3b8b489918ef109e156193951ec7e937b1652c0bd3bb1bf073573df883d2c34f1ef451fd46b503f00
  gx := 0x0c6858e06b70404e9cd9e3ecb662395b4429c648139053fb521f828af606b4d3dbaa14b5e77efe75928fe1dc127a2ffa8de3348b3c1856a429bf97e7e31c2e5bd66
  gy := 0x11839296a789a3bc0045c8a5fb42c7d1bd998f54449579b446817afbd17273e662c97ee72995ef42640c550b9013fad0761353c7086a272c24088be94769fd16650
  order := 0x1fffffffffffffffffffffffffffffffffffffffffffffffffffffffffffffffffffa51868783bf2f966b7fcc0148f709a5d03bb5c9b8899c47aebb6fb71e91386409
  width := 66

variable (c : Curve)

def mul (a b : Nat) : Nat := a * b % c.prime

def sub (a b : Nat) : Nat := (a + (c.prime - b % c.prime)) % c.prime

def inverse (a : Nat) : Nat := inverseMod c.prime a (8 * c.width)

def infinity : Point := ⟨1, 1, 0⟩

def double (p : Point) : Point :=
  let zz := c.mul p.z p.z
  let yy := c.mul p.y p.y
  let s := c.mul (4 * p.x) yy
  let m := c.mul 3 (c.mul (c.sub p.x zz) (p.x + zz))
  let x := c.sub (c.mul m m) (2 * s)
  let y := c.sub (c.mul m (c.sub s x)) (c.mul 8 (c.mul yy yy))
  ⟨x, y, c.mul (2 * p.y) p.z⟩

/-- The sum of two points. -/
def add (p q : Point) : Point :=
  if p.z = 0 then q
  else if q.z = 0 then p
  else
    let pzz := c.mul p.z p.z
    let qzz := c.mul q.z q.z
    let u := c.mul p.x qzz
    let v := c.mul q.x pzz
    let s := c.mul (c.mul p.y qzz) q.z
    let t := c.mul (c.mul q.y pzz) p.z
    let h := c.sub v u
    let r := c.sub t s
    if h = 0 then if r = 0 then c.double p else infinity
    else
      let hh := c.mul h h
      let hhh := c.mul h hh
      let w := c.mul u hh
      let x := c.sub (c.mul r r) (hhh + 2 * w)
      let y := c.sub (c.mul r (c.sub w x)) (c.mul s hhh)
      ⟨x, y, c.mul h (c.mul p.z q.z)⟩

/-- `d` times the point `p`, over the lowest `bits` bits of `d`. -/
def times (p : Point) : Nat → Nat → Point
  | 0, _ => infinity
  | bits + 1, d =>
    let h := times (c.double p) bits (d / 2)
    if d % 2 = 1 then c.add p h else h

/-- The coordinates of a point that is not at infinity. -/
def coordinates (p : Point) : Nat × Nat :=
  let i := c.inverse p.z
  let ii := c.mul i i
  (c.mul p.x ii, c.mul p.y (c.mul ii i))

/-- `n` in `width` bytes, the highest first. -/
def toBytes : Nat → Nat → Bytes
  | 0, _ => []
  | width + 1, n => toBytes width (n / 256) ++ [.ofNat (n % 256)]

/-- The public key of the private number `d`, uncompressed, if `d` is one. -/
def publicKey? (d : Nat) : Option Bytes :=
  if d = 0 ∨ c.order ≤ d then none
  else
    let (x, y) := c.coordinates (c.times ⟨c.gx, c.gy, 1⟩ (8 * c.width) d)
    some (4 :: (toBytes c.width x ++ toBytes c.width y))

end Curve

end AppHost.Tls
