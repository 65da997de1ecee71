import AppHost.Files
import AppHost.Journal
import AppHost.Tls.Curve
import AppHost.Tls.Der
import AppHost.Tls.Edwards
import AppHost.Tls.Error
import AppHost.Tls.Pem

/-!
# TLS material

A certificate file holds at least one certificate, the server's own first. A key file holds exactly
one private key, and may hold other things. The two belong together if the certificate names the
public key of the private one.
-/

namespace AppHost.Tls

/-! ## Public keys -/

/-- A public key with its algorithm, as a certificate names it. -/
structure PublicKey where
  /-- The algorithm: its object identifier, and for a curve that of the curve. -/
  algorithm : List Bytes
  key : Bytes
  deriving DecidableEq, Repr

def rsaId : Bytes := [0x2a, 0x86, 0x48, 0x86, 0xf7, 0x0d, 0x01, 0x01, 0x01]
def ecId : Bytes := [0x2a, 0x86, 0x48, 0xce, 0x3d, 0x02, 0x01]
def edwardsId : Bytes := [0x2b, 0x65, 0x70]

/-- The curves, by object identifier. -/
def curves : List (Bytes × Curve) :=
  [([0x2a, 0x86, 0x48, 0xce, 0x3d, 0x03, 0x01, 0x07], .p256),
    ([0x2b, 0x81, 0x04, 0x00, 0x22], .p384), ([0x2b, 0x81, 0x04, 0x00, 0x23], .p521)]

/-- The object identifiers of an algorithm; a null parameter counts as none. -/
def algorithm? (d : Der) : Option (List Bytes) := do
  let parts ← d.sequence?
  let parts := parts.filter fun p => p.tag ≠ Der.nullTag
  parts.mapM fun p => if p.tag = Der.objectTag then some p.content else none

/-- The public key that a certificate names. A certificate is its body, the algorithm of its
signature, which the body has to name as well, and the signature. The body says that it is of the
third version and goes on with the serial number, the algorithm, the issuer, the validity, the
subject and the key. -/
def certificateKey? (certificate : Bytes) : Option PublicKey := do
  match ← Der.sequenceOf? certificate with
  | [body, signed, signature] =>
    match ← body.sequence? with
    | version :: serial :: signing :: _ :: _ :: _ :: subject :: _ =>
      guard (version.tag = 0xa0 && version.content = [2, 1, 2] && serial.tag = Der.integerTag)
      guard (signing = signed && signature.tag = Der.bitStringTag)
      match ← subject.sequence? with
      | [algorithm, key] => return ⟨← algorithm? algorithm, ← key.bits?⟩
      | _ => none
    | _ => none
  | _ => none

/-! ## Private keys -/

/-- The public key of a number on a curve. A file that also gives the public key has to give the
right one. -/
def curveKey? (curveId : Bytes) (parts : List Der) : Option PublicKey := do
  let curve ← curves.lookup curveId
  let d ← (← parts[1]?).octets?
  let key ← curve.publicKey? (Der.number d)
  match parts.find? fun p => p.tag = 0xa1 with
  | none => return ⟨[ecId, curveId], key⟩
  | some p =>
    match ← Der.row p.content with
    | [given] => if given.bits? = some key then return ⟨[ecId, curveId], key⟩ else none
    | _ => none

/-- A curve key that names its curve itself. -/
def namedCurveKey? (parts : List Der) : Option PublicKey := do
  let p ← parts.find? fun p => p.tag = 0xa0
  match ← Der.row p.content with
  | [id] => curveKey? id.content parts
  | _ => none

/-- `n` bytes long content behind a tag. -/
def encode (tag : UInt8) (content : Bytes) : Bytes :=
  let n := content.length
  let length : Bytes :=
    if n < 128 then [.ofNat n]
    else if n < 256 then [0x81, .ofNat n]
    else [0x82, .ofNat (n / 256), .ofNat (n % 256)]
  tag :: (length ++ content)

/-- Whether the numbers of an RSA key belong together: the modulus, of 2048 to 8192 bits, the two
exponents, the two primes, the private exponent for each prime, and the inverse of the second prime
modulo the first. -/
def isRsaKey : List Nat → Bool
  | [version, n, e, d, p, q, dp, dq, inverse] =>
    version = 0 && 1 <<< 2047 ≤ n && n < 1 <<< 8192 && n = p * q && d < n &&
      e * d % (p - 1) = 1 && e * d % (q - 1) = 1 &&
      dp = d % (p - 1) && dq = d % (q - 1) && inverse * q % p = 1
  | _ => false

/-- The public key of an RSA key: its modulus and public exponent. -/
def rsaKey? (parts : List Der) : Option PublicKey := do
  let n ← parts[1]?
  let e ← parts[2]?
  guard (parts.all fun p => p.tag = Der.integerTag)
  guard (isRsaKey (parts.map fun p => Der.number p.content))
  return ⟨[rsaId], encode Der.sequenceTag (n.written ++ e.written)⟩

/-- The public key of a secret for the Edwards curve. -/
def edwardsKey? (key : Bytes) : Option PublicKey := do
  match ← Der.first? key with
  | (secret, []) => return ⟨[edwardsId], ← Edwards.publicKey? (← secret.octets?)⟩
  | _ => none

/-- The public key of a private key in any of three forms: one that names its algorithm, a curve
key, and an RSA key. -/
def privateKey? (key : Bytes) : Option PublicKey := do
  let parts ← Der.sequenceOf? key
  match parts with
  | _ :: ⟨48, algorithm, written⟩ :: inner :: _ => do
    let inner ← inner.octets?
    match ← algorithm? ⟨48, algorithm, written⟩ with
    | [id, curveId] => if id = ecId then curveKey? curveId (← Der.sequenceOf? inner) else none
    | [id] =>
      if id = rsaId then rsaKey? (← Der.sequenceOf? inner)
      else if id = edwardsId then edwardsKey? inner
      else none
    | _ => none
  | _ => (namedCurveKey? parts).or (rsaKey? parts)

/-! ## Files -/

def keyLabels : List Bytes :=
  ["RSA PRIVATE KEY", "PRIVATE KEY", "EC PRIVATE KEY"].map Text.bytes

/-- Why two files are of no use together, if they are not. -/
def objection? (certificateFile keyFile : Bytes) : Option String :=
  match (sections certificateFile).mapM id with
  | .error _ => some "malformed section in the certificate file"
  | .ok found =>
    let certificates := found.filter fun s => s.label = Text.bytes "CERTIFICATE"
    let keys := (sections keyFile).filterMap fun s => s.toOption.bind fun s =>
      if keyLabels.contains s.label then some s.content else none
    match keys, certificates with
    | [key], certificate :: _ =>
      match privateKey? key, certificateKey? certificate.content with
      | some own, some named =>
        if own = named then none else some "keys may not be consistent: KeyMismatch"
      | none, _ => some "invalid private key"
      | _, none => some "invalid certificate"
    | [_], [] => some "no certificates found"
    | _, _ => some "private key format not supported"

def loaded (certificate : String) : Log.Event where
  level := .debug
  part := ["net", "tls"]
  message := "TLS material loaded"
  fields := [("cert", certificate)]

/-- Whether the two files can be used. The certificate file is looked for first. -/
def check (files : Files) (here : List String) (certificate key : String) : Except TlsError Unit := do
  if !files.isFile here certificate then throw (.missing .certificate certificate)
  if !files.isFile here key then throw (.missing .privateKey key)
  match files.read here certificate, files.read here key with
  | .ok c, .ok k =>
    match objection? c k with
    | none => return ()
    | some reason => throw (.invalid certificate key (.other reason))
  | .error e, _ => throw (.invalid certificate key e)
  | _, .error e => throw (.invalid certificate key e)

/-- Load the two files and say so. -/
def load (files : Files) (here : List String) (certificate key : String) :
    Journaled (Except TlsError Unit) := do
  match check files here certificate key with
  | .ok () =>
    Journal.note (loaded certificate)
    return .ok ()
  | .error e => return .error e

end AppHost.Tls
