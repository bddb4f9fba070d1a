import Gatehouse.Tls.Curve
import Gatehouse.Tls.Pem

/-!
# Private keys

What a certificate says about the key of its subject can be computed from the private key. A private
key whose parts do not fit together is of no use.
-/

namespace Gatehouse.Tls.PrivateKey

/-- The algorithm of an RSA key. -/
def rsaAlgorithm : Bytes :=
  Der.element Der.objectId [0x2A, 0x86, 0x48, 0x86, 0xF7, 0x0D, 0x01, 0x01, 0x01] ++ [0x05, 0x00]

/-- The algorithm of a key on a curve. -/
def curveAlgorithm (c : Curve) : Bytes :=
  Der.element Der.objectId [0x2A, 0x86, 0x48, 0xCE, 0x3D, 0x02, 0x01] ++ Der.element Der.objectId c.id

/-- What a certificate says about a public key. -/
def statement (algorithm publicKey : Bytes) : Bytes :=
  Der.element Der.sequence algorithm ++ Der.element Der.bitString (0 :: publicKey)

/-- The key of an algorithm in a frame that names the algorithm; attributes behind the key do not
count. -/
def unwrap? (algorithm : Bytes) (bs : Bytes) : Option Bytes := do
  let body ← Der.only? Der.sequence bs
  let (version, rest) ← Der.nat? body
  let (stated, rest) ← Der.next? Der.sequence rest
  let (key, rest) ← Der.next? Der.octetString rest
  let rest ← if Der.peeks (Der.place 0) rest then (Der.next? (Der.place 0) rest).map (·.2) else some rest
  if version == 0 && stated == algorithm && rest.isEmpty then some key else none

/-- What a certificate says about the key on a curve whose private part stands there with the public
one. -/
def onCurve? (c : Curve) (bs : Bytes) : Option Bytes := do
  let body ← Der.only? Der.sequence bs
  let (version, rest) ← Der.nat? body
  let (secret, rest) ← Der.next? Der.octetString rest
  let (stated, rest) ← if Der.peeks (Der.place 0) rest then Der.next? (Der.place 0) rest
    else some (Der.element Der.objectId c.id, rest)
  let tagged ← Der.only? (Der.place 1) rest
  let (publicKey, after) ← Der.bits? tagged
  if version == 1 && after.isEmpty && stated == Der.element Der.objectId c.id &&
      c.publicKey? secret == some publicKey then
    some (statement (curveAlgorithm c) publicKey)
  else none

/-- The natural numbers of a list of elements; each takes at least two bytes. -/
def numbers? : (fuel : Nat) → Bytes → Option (List Nat)
  | _, [] => some []
  | 0, _ => none
  | fuel + 1, bs => do
    let (n, rest) ← Der.nat? bs
    return n :: (← numbers? fuel rest)

/-- Whether the parts of an RSA key fit together: a modulus of 2048 to 4096 bits, the public and the
private exponent, two primes of equal length whose product is the modulus, the exponents for them,
and the inverse of the second modulo the first. -/
def fits (n e d p q ep eq inv : Nat) : Bool :=
  let bits := n.log2 + 1
  let half := Nat.pow 2 (bits / 2)
  2048 ≤ bits && bits ≤ 4096 && 65537 ≤ e && e < Nat.pow 2 33 && e % 2 == 1 &&
    p * q == n && p % 2 == 1 && q % 2 == 1 && p < half && q < half && half ≤ 2 * p && half ≤ 2 * q &&
    half ≤ d && d < n && d % 2 == 1 && ep < p && ep % 2 == 1 && eq < q && eq % 2 == 1 &&
    inv < p && inv * q % p == 1

/-- The bytes of a natural number as an element. -/
def natElement (n : Nat) : Bytes :=
  let size := n.log2 / 8 + 1
  let bytes := Curve.bytesOf size n
  Der.element Der.integer (if bytes.head?.any (0x80 ≤ ·) then 0 :: bytes else bytes)

/-- What a certificate says about an RSA key. -/
def rsa? (bs : Bytes) : Option Bytes := do
  let body ← Der.only? Der.sequence bs
  match ← numbers? body.length body with
  | [0, n, e, d, p, q, ep, eq, inv] =>
    if fits n e d p q ep eq inv then
      some (statement rsaAlgorithm (Der.element Der.sequence (natElement n ++ natElement e)))
    else none
  | _ => none

/-- What a certificate says about a private key in one of its formats. -/
def statement? (k : Pem.Key) : Option Bytes :=
  match k.format with
  | .pkcs1 => rsa? k.content
  | .sec1 => Curve.all.findSome? fun c => onCurve? c k.content
  | .pkcs8 =>
    (unwrap? rsaAlgorithm k.content).bind rsa? <|>
      Curve.all.findSome? fun c => (unwrap? (curveAlgorithm c) k.content).bind (onCurve? c)

end Gatehouse.Tls.PrivateKey
