import Gatehouse.Tls.Der

/-!
# Certificates

Of an X.509 certificate the gateway needs to know that it is one, and whose key it certifies. One of
the third version may have extensions, and none of those that it calls critical may be unknown.
-/

namespace Gatehouse.Tls

/-- A certificate: what it says about the key of its subject. -/
structure Certificate where
  subjectKey : Bytes
  deriving DecidableEq, Repr, Inhabited

/-- An extension: the name of what it is about, whether it may not be ignored, and its content. -/
structure Extension where
  id : Bytes
  critical : Bool
  content : Bytes
  deriving DecidableEq, Repr, Inhabited

namespace Extension

/-- Whether an extension says that it may not be ignored, and what follows. -/
def critical? (bs : Bytes) : Option (Bool × Bytes) :=
  if Der.peeks Der.boolean bs then
    match Der.next? Der.boolean bs with
    | some ([0xFF], rest) => some (true, rest)
    | some ([0x00], rest) => some (false, rest)
    | _ => none
  else some (false, bs)

/-- The extension of an element's content. -/
def ofContent? (bs : Bytes) : Option Extension := do
  let (id, rest) ← Der.next? Der.objectId bs
  let (critical, rest) ← critical? rest
  return { id, critical, content := ← Der.only? Der.octetString rest }

/-- The last numbers of the names of the standard extensions that are known. -/
def knownNumbers : List UInt8 := [15, 17, 19, 30, 31, 37]

/-- The number of a known extension. -/
def known? (e : Extension) : Option UInt8 :=
  match e.id with
  | [0x55, 0x1D, n] => if n ∈ knownNumbers then some n else none
  | _ => none

/-- The number of the one about the use of a key, whose content is not a sequence. -/
def keyUsage : UInt8 := 15

/-- Whether an extension is well-formed where it is known, and may be ignored where not. -/
def isAcceptable (e : Extension) : Bool :=
  match e.known? with
  | none => !e.critical
  | some n => n == keyUsage || (Der.only? Der.sequence e.content).isSome

/-- The extensions of a list of elements; each takes at least two bytes. -/
def ofList? : (fuel : Nat) → Bytes → Option (List Extension)
  | _, [] => some []
  | 0, _ => none
  | fuel + 1, bs => do
    let (content, rest) ← Der.next? Der.sequence bs
    return (← ofContent? content) :: (← ofList? fuel rest)

/-- Whether the extensions of a certificate are acceptable, and no known one is there twice. -/
def areAcceptable (es : List Extension) : Bool :=
  es.all isAcceptable && decide (es.filterMap known?).Nodup

end Extension

namespace Certificate

/-- The outer parts of a certificate: what is signed, by what algorithm, and the signature. -/
def parts? (bs : Bytes) : Option (Bytes × Bytes × Bytes) := do
  let body ← Der.only? Der.sequence bs
  let (signed, rest) ← Der.next? Der.sequence body
  let (algorithm, rest) ← Der.next? Der.sequence rest
  return (signed, algorithm, rest)

/-- The key of the subject, behind the issuer, the validity and the subject, and what follows it. -/
def subjectKey? (bs : Bytes) : Option (Bytes × Bytes) := do
  let (_, rest) ← Der.next? Der.sequence bs
  let (_, rest) ← Der.next? Der.sequence rest
  let (_, rest) ← Der.next? Der.sequence rest
  Der.next? Der.sequence rest

/-- Whether what follows the key of the subject is nothing or acceptable extensions. -/
def acceptsRest (bs : Bytes) : Bool :=
  if bs.isEmpty then true
  else ((do
    let tagged ← Der.only? (Der.place 3) bs
    let list ← Der.only? Der.sequence tagged
    Extension.ofList? list.length list).map Extension.areAcceptable).getD false

/-- The version that a certificate gives, and what follows. -/
def version? (bs : Bytes) : Option (Nat × Bytes) := do
  let (tagged, rest) ← Der.next? (Der.place 0) bs
  let (version, after) ← Der.nat? tagged
  if after.isEmpty then some (version, rest) else none

/-- The certificate of the third version that bytes are. -/
def ofDer? (bs : Bytes) : Option Certificate := do
  let (signed, algorithm, signature) ← parts? bs
  let (_, after) ← Der.bits? signature
  let (version, rest) ← version? signed
  let (_, rest) ← Der.next? Der.integer rest
  let (stated, rest) ← Der.next? Der.sequence rest
  let (subjectKey, rest) ← subjectKey? rest
  if after.isEmpty && version == 2 && stated == algorithm && acceptsRest rest then
    some { subjectKey }
  else none

/-- The certificate of the first version that bytes are, which states no version. -/
def ofFirstVersion? (bs : Bytes) : Option Certificate := do
  let (signed, _, signature) ← parts? bs
  let _ ← Der.only? Der.bitString signature
  let (_, rest) ← Der.next? Der.integer signed
  let (_, rest) ← Der.next? Der.sequence rest
  let (subjectKey, rest) ← subjectKey? rest
  if rest.isEmpty then some { subjectKey } else none

/-- Whether bytes are a certificate that may be trusted as an authority. -/
def isAuthority (bs : Bytes) : Bool := (ofDer? bs).isSome || (ofFirstVersion? bs).isSome

end Certificate

end Gatehouse.Tls
