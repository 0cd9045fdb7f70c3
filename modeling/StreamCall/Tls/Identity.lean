import StreamCall.Error.Io
import StreamCall.Tls.Curve
import StreamCall.Tls.Der
import StreamCall.Tls.Pem

/-!
# Certificates and keys

What a server proves its identity with, and what a client trusts.  `Identity.ofPem` reads a
chain of certificates and a private key; the certificates are taken as they are, and the key
has to be an elliptic key on P-256 whose public part fits the private one.  `trust` takes
certificates of the usual structure.
-/

namespace StreamCall.Tls

/-! ### Keys -/

/-- What names an elliptic key on P-256. -/
def keyAlgorithm : Bytes :=
  [0x06, 0x07, 0x2A, 0x86, 0x48, 0xCE, 0x3D, 0x02, 0x01,
   0x06, 0x08, 0x2A, 0x86, 0x48, 0xCE, 0x3D, 0x03, 0x01, 0x07]

/-- What names the curve P-256. -/
def curveName : Bytes := keyAlgorithm.drop 9

/-- The private and the public part of an elliptic key. -/
def ellipticKey? (der : Bytes) : Option (Bytes × Bytes) := do
  let inner ← Der.only Der.sequence der
  let (version, rest) ← Der.smallNumber inner
  let (secret, rest) ← Der.value Der.octetString rest
  let (curve, rest) ← Der.optional (Der.member 0) rest
  let bits ← Der.wholeBits (← Der.only Der.bitString (← Der.only (Der.member 1) rest))
  if version = 1 ∧ curve.all (· = curveName) then return (secret, bits) else none

/-- Whether a byte string is a private key that can be used. -/
def isKey (der : Bytes) : Bool :=
  let key := do
    let inner ← Der.only Der.sequence der
    let (version, rest) ← Der.smallNumber inner
    let (algorithm, rest) ← Der.value Der.sequence rest
    let (contents, rest) ← Der.value Der.octetString rest
    let (_, rest) ← Der.optional (Der.member 0) rest
    if version = 0 ∧ algorithm = keyAlgorithm ∧ rest = [] then ellipticKey? contents else none
  match key with
  | none => false
  | some (secret, bits) => Curve.publicKey secret = some bits

/-! ### Certificates -/

/-- Reads values with tags one after the other. -/
def values : List UInt8 → Bytes → Option (List Bytes × Bytes)
  | [], b => some ([], b)
  | tag :: tags, b =>
    match Der.value tag b with
    | none => none
    | some (v, rest) => (values tags rest).map fun (vs, rest) => (v :: vs, rest)

/-- Whether a byte string is what is signed of a certificate: version, number, algorithm,
issuer, validity, subject and key. The extensions come with the third version only. -/
def isSignedPart (b : Bytes) : Bool :=
  match Der.optional (Der.member 0) b with
  | none => false
  | some (version, rest) =>
    match values (Der.integer :: List.replicate 5 Der.sequence) rest with
    | none => false
    | some (_, rest) =>
      match version with
      | none => rest.isEmpty
      | some version =>
        version = [0x02, 0x01, 0x02]
          && (rest.isEmpty || ((Der.only (Der.member 3) rest).bind (Der.only Der.sequence)).isSome)

/-- Whether a byte string is a certificate: what is signed, the algorithm and the
signature. -/
def isCertificate (der : Bytes) : Bool :=
  match (Der.only Der.sequence der).bind
      (values [Der.sequence, Der.sequence, Der.bitString]) with
  | some ([signed, _, signature], []) => isSignedPart signed && (Der.wholeBits signature).isSome
  | _ => false

/-! ### Identities -/

/-- What a server proves its identity with. -/
structure Identity where
  certificates : List Bytes
  key : Bytes

/-- Why there is no identity, or nothing to trust. -/
inductive Fault where
  | pem (fault : Pem.Fault)
  | noCertificate
  | noKey
  | badKey
  | badCertificate
deriving DecidableEq, Repr

/-- A fault as an error. -/
def Fault.error : Fault → IoError
  | .pem fault => .text .invalidData fault.message
  | .noCertificate => .text .invalidData "no certificate found in PEM data"
  | .noKey => .text .invalidData "no PKCS#8 private key found in PEM data"
  | .badKey => .text .other "unexpected error: invalid private key"
  | .badCertificate => .text .other "invalid peer certificate: BadEncoding"

/-- The identity that a text of certificates and a text of keys hold. -/
def Identity.ofPem (certificates keys : Bytes) : Except Fault Identity :=
  match Pem.contentsOf "CERTIFICATE" certificates with
  | .error f => .error (.pem f)
  | .ok [] => .error .noCertificate
  | .ok chain =>
    match Pem.contentsOf "PRIVATE KEY" keys with
    | .error f => .error (.pem f)
    | .ok [] => .error .noKey
    | .ok (key :: _) => if isKey key then .ok ⟨chain, key⟩ else .error .badKey

/-- The certificates that a client trusts. -/
def trust (roots : List Bytes) : Except Fault (List Bytes) :=
  if roots.all isCertificate then .ok roots else .error .badCertificate

end StreamCall.Tls
