import Gatehouse.Error
import Gatehouse.Text.Base64

/-!
# PEM files

A PEM file holds sections between a begin line and an end line with one label. What stands outside
of sections does not count, and neither do sections with a label that is not known.
-/

namespace Gatehouse.Tls.Pem

/-- How a private key is written down. -/
inductive KeyFormat
  | pkcs1
  | sec1
  | pkcs8
  deriving DecidableEq, Repr, Inhabited

/-- What a section holds. -/
inductive Kind
  | certificate
  | key (format : KeyFormat)
  /-- Something known that is neither of them. -/
  | other
  deriving DecidableEq, Repr, Inhabited

/-- The kinds by their labels. -/
def Kind.labels : List (String × Kind) := [
  ("CERTIFICATE", .certificate), ("RSA PRIVATE KEY", .key .pkcs1), ("EC PRIVATE KEY", .key .sec1),
  ("PRIVATE KEY", .key .pkcs8), ("PUBLIC KEY", .other), ("X509 CRL", .other),
  ("CERTIFICATE REQUEST", .other), ("ECHCONFIG", .other)]

/-- The kind of a label. -/
def Kind.ofLabel? (label : Bytes) : Option Kind :=
  (labels.find? fun (text, _) => Bytes.ofString text == label).map (·.2)

/-- A section: its kind and the bytes that it encodes. -/
structure Section where
  kind : Kind
  content : Bytes
  deriving DecidableEq, Repr, Inhabited

/-- Why a file cannot be read on. -/
inductive Fault
  /-- A begin line does not end in five dashes. -/
  | beginLine
  /-- A section does not hold Base64. -/
  | encoding
  /-- The file ends within a section. -/
  | unended
  deriving DecidableEq, Repr, Inhabited

/-- The wording of a fault. -/
def Fault.message : Fault → String
  | .beginLine => "illegal section start"
  | .encoding => "invalid base64"
  | .unended => "section end missing"

/-- The lines of a file; either line end ends one. -/
def lines (file : Bytes) : List Bytes := (Bytes.splitOn 0x0A file).flatMap (Bytes.splitOn 0x0D)

/-- What stands before the label of a begin line. -/
def beginMark : Bytes := Bytes.ofString "-----BEGIN "

/-- The end line of a label. -/
def endMark (label : Bytes) : Bytes :=
  Bytes.ofString "-----END " ++ label ++ Bytes.ofString "-----"

/-- The label in the rest of a begin line: what stands before exactly five dashes, among which there
may be spaces. -/
def label? (rest : Bytes) : Option Bytes :=
  let tail := (rest.reverse.takeWhile fun b => b == 0x2D || b == 0x20).reverse.dropWhile (· == 0x20)
  if tail.count 0x2D = 5 then some (rest.take (rest.length - tail.length)) else none

/-- Reads the sections of lines up to the first fault. `label` is that of the section that is open,
and `encoded` what it holds so far; a begin line within a section changes its label only. -/
def read : (label : Option Bytes) → (encoded : Bytes) → List Bytes → List Section × Option Fault
  | none, _, [] => ([], none)
  | some _, _, [] => ([], some .unended)
  | label, encoded, line :: rest =>
    if beginMark.isPrefixOf line then
      match label? (line.drop beginMark.length) with
      | none => ([], some .beginLine)
      | some label => read (some label) encoded rest
    else match label with
      | none => read none encoded rest
      | some l =>
        if !(endMark l).isPrefixOf line then read label (encoded ++ line) rest
        else match Kind.ofLabel? l with
          | none => read none [] rest
          | some kind => match Base64.decode? encoded with
            | none => ([], some .encoding)
            | some content =>
              let (others, fault) := read none [] rest
              (⟨kind, content⟩ :: others, fault)

/-- The sections of a file up to the first fault. -/
def sections (file : Bytes) : List Section × Option Fault := read none [] (lines file)

/-- The certificates of a file, in which nothing may be wrong. -/
def certificates (path : String) (file : Except String Bytes) : Except PemFault (List Bytes) :=
  match file with
  | .error reason => .error (.unopenedCertificates path reason)
  | .ok bytes =>
    match sections bytes with
    | (_, some fault) => .error (.malformedCertificates fault.message)
    | (found, none) =>
      match (found.filter fun s => s.kind == .certificate).map (·.content) with
      | [] => .error (.noCertificates path)
      | certs => .ok certs

/-- A private key as it stands in a file. -/
structure Key where
  format : KeyFormat
  content : Bytes
  deriving DecidableEq, Repr, Inhabited

/-- The private key that a section holds. -/
def Section.key? (s : Section) : Option Key :=
  match s.kind with
  | .key format => some ⟨format, s.content⟩
  | _ => none

/-- The first private key of a file, before which nothing may be wrong. -/
def privateKey (path : String) (file : Except String Bytes) : Except PemFault Key :=
  match file with
  | .error reason => .error (.unopenedKey path reason)
  | .ok bytes =>
    match sections bytes with
    | (found, fault) =>
      match found.findSome? Section.key?, fault with
      | some key, _ => .ok key
      | none, some fault => .error (.malformedKey fault.message)
      | none, none => .error (.noKey path)

end Gatehouse.Tls.Pem
