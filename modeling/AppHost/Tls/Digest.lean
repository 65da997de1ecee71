import AppHost.Http.Header

/-!
# A digest of 512 bits

The digest works on 64-bit words. Its constants are the first 64 bits after the point of the square
roots of the first eight primes, and of the cube roots of the first eighty.
-/

namespace AppHost.Tls.Digest

/-! ## Constants -/

/-- Whether `n` has no divisor from 2 up to `k + 1`. -/
def indivisible (n : Nat) : Nat → Bool
  | 0 => true
  | k + 1 => n % (k + 2) != 0 && indivisible n k

/-- The first 80 primes; they lie below 410. -/
def primes : List Nat := ((List.range 410).drop 2).filter fun n => indivisible n (n - 2)

/-- The largest `x` with `x ^ k ≤ n` that agrees with `known` above its lowest `bits` bits. -/
def rootFrom (k n known : Nat) : Nat → Nat
  | 0 => known
  | bits + 1 =>
    let candidate := known + 1 <<< bits
    rootFrom k n (if Nat.pow candidate k ≤ n then candidate else known) bits

/-- The first 64 bits after the point of the root of `n` of the given degree, for `n` below 512. -/
def fraction (degree n : Nat) : UInt64 :=
  .ofNat (rootFrom degree (n <<< (64 * degree)) 0 70)

def start : List UInt64 := (primes.take 8).map (fraction 2)

def rounds : List UInt64 := primes.map (fraction 3)

/-! ## Words -/

def rotate (x : UInt64) (n : UInt64) : UInt64 := (x >>> n) ||| (x <<< (64 - n))

/-- The word that eight bytes spell, the highest first. -/
def word (bs : Bytes) : UInt64 := bs.foldl (fun w b => w <<< 8 ||| b.toUInt64) 0

def bytesOf (w : UInt64) : Bytes :=
  [56, 48, 40, 32, 24, 16, 8, (0 : UInt64)].map fun n => (w >>> n).toUInt8

/-- `bs` in pieces of `n` bytes, at most `count` of them. -/
def pieces (n : Nat) (bs : Bytes) : Nat → List Bytes
  | 0 => []
  | count + 1 => bs.take n :: pieces n (bs.drop n) count

/-! ## The digest -/

/-- The message with a bit behind it, zeros, and its length in bits, in whole blocks of 128 bytes. -/
def padded (m : Bytes) : Bytes :=
  let zeros := (239 - m.length % 128) % 128
  m ++ 0x80 :: List.replicate (zeros + 8) 0 ++ bytesOf (.ofNat (8 * m.length))

/-- The schedule of a block is its sixteen words and what follows from them; the last sixteen words
are given in reverse. -/
def schedule : Nat → List UInt64 → List UInt64
  | 0, _ => []
  | n + 1, ws =>
    let a := ws.getD 14 0
    let b := ws.getD 1 0
    let s := rotate a 1 ^^^ rotate a 8 ^^^ a >>> 7
    let t := rotate b 19 ^^^ rotate b 61 ^^^ b >>> 6
    let next := ws.getD 15 0 + s + ws.getD 6 0 + t
    ws.getD 15 0 :: schedule n (next :: ws.take 15)

/-- One round on the eight words of the state. -/
def round (state : List UInt64) (kw : UInt64 × UInt64) : List UInt64 :=
  match state with
  | [a, b, c, d, e, f, g, h] =>
    let choice := (e &&& f) ^^^ (~~~e &&& g)
    let majority := (a &&& b) ^^^ (a &&& c) ^^^ (b &&& c)
    let t := h + (rotate e 14 ^^^ rotate e 18 ^^^ rotate e 41) + choice + kw.1 + kw.2
    let u := (rotate a 28 ^^^ rotate a 34 ^^^ rotate a 39) + majority
    [t + u, a, b, c, d + t, e, f, g]
  | s => s

def block (state : List UInt64) (bs : Bytes) : List UInt64 :=
  let words := (pieces 8 bs 16).map word
  let mixed := (rounds.zip (schedule 80 words.reverse)).foldl round state
  state.zipWith (· + ·) mixed

/-- The 64 bytes of the digest of a message of fewer than `2 ^ 61` bytes. -/
def sha512 (m : Bytes) : Bytes :=
  let m := padded m
  ((pieces 128 m (m.length / 128)).foldl block start).flatMap bytesOf

end AppHost.Tls.Digest
