import Gatehouse.Config.Basic
import Gatehouse.Log.Record
import Gatehouse.Tls.Certificate
import Gatehouse.Tls.PrivateKey

/-!
# TLS towards backends

The certificates of backends are checked against the authorities of the platform and of a file,
unless that is switched off. A certificate and its key together let backends know the gateway.
-/

namespace Gatehouse

/-- The contents of files, or why they are out of reach. -/
abbrev Files := String → Except String Bytes

namespace Tls

/-- What a client offers to backends. -/
structure Client where
  /-- The protocols inside of TLS. -/
  protocols : List String := ["http/1.1"]
  /-- Whether the client has a certificate of its own. -/
  hasIdentity : Bool := false
  deriving DecidableEq, Repr, Inhabited

namespace Client

/-- Where the records come from. -/
def origin : String := "sluice_proxy::tls"

/-- Loads the certificates of a file. -/
def certificates (files : Files) (path : String) : Logged PemFault (List Bytes) := do
  let certs ← liftExcept (Pem.certificates path (files path))
  Logged.note origin .debug "Loaded certificates" [("path", .text path), ("count", .number certs.length)]
  return certs
where
  /-- The outcome of a computation that leaves no records. -/
  liftExcept {α : Type} (e : Except PemFault α) : Logged PemFault α := ExceptT.mk (pure e)

/-- Trusts the authorities of a file. -/
def trust (files : Files) (path : String) : Logged PemFault Unit := do
  let certs ← certificates files path
  if !certs.all Certificate.isAuthority then
    throw (.invalidAuthority path "invalid certificate")
  Logged.note origin .info "Added custom CA certificates" [("path", .text path)]

/-- Checks that a certificate chain begins with the certificate of a key. -/
def pair (chain : List Bytes) (key : Pem.Key) : Except PemFault Unit :=
  match PrivateKey.statement? key with
  | none => .error (.invalidIdentity "failed to parse private key")
  | some statement =>
    match chain.head?.bind Certificate.ofDer? with
    | none => .error (.invalidIdentity "invalid certificate")
    | some cert =>
      if cert.subjectKey = statement then .ok ()
      else .error (.invalidIdentity "keys may not be consistent")

/-- Loads the certificate and the key of the gateway, if it has them; it has both or none. -/
def identity (files : Files) : Option Config.TlsFiles → Logged PemFault Bool
  | none => return false
  | some t => match t.cert, t.key with
    | none, none => return false
    | some cert, some key => do
      let chain ← certificates files cert
      let key ← certificates.liftExcept (Pem.privateKey key (files key))
      certificates.liftExcept (pair chain key)
      return true
    | _, _ => throw .unpairedIdentity

/-- Loads what the settings of a client name. Without checks of the backends no authorities are
loaded. -/
def load (files : Files) (c : Config.Client) : Logged PemFault Client := do
  if c.insecureSkipVerify then
    Logged.note origin .warn "Backend certificate verification is disabled"
  else match c.tls.bind (·.ca) with
    | some path => trust files path
    | none => pure ()
  return { hasIdentity := ← identity files c.tls }

end Client

end Tls

end Gatehouse
