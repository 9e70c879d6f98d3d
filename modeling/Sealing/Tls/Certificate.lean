import Sealing.Der

/-!
# Certificates

What the service needs of its own certificate is the public key information in it. To find it the
certificate is read as far as a peer would read it before checking any signature.
-/

namespace Sealing.Tls

/-- Why a certificate is not used. -/
inductive CertificateFault where
  /-- It is not put together as a certificate. -/
  | badEncoding
  /-- It has a version other than the third. -/
  | unsupportedVersion
  /-- The signed part names another signature algorithm than the signature. -/
  | algorithmMismatch
  /-- An extension that must be understood is not. -/
  | unsupportedExtension
  /-- An extension stands twice. -/
  | repeatedExtension
deriving DecidableEq, Repr

/-- The name of a fault. -/
def CertificateFault.name : CertificateFault → String
  | badEncoding => "BadEncoding"
  | unsupportedVersion => "Other(OtherError(UnsupportedCertVersion))"
  | algorithmMismatch => "Other(OtherError(SignatureAlgorithmMismatch))"
  | unsupportedExtension => "Other(OtherError(UnsupportedCriticalExtension))"
  | repeatedExtension => "Other(OtherError(ExtensionValueInvalid))"

namespace Certificate

open Der

/-- A reader that may also stop at a fault of what it has read. -/
abbrev Inspection (α : Type) := StateT Bytes (Except CertificateFault) α

/-- Reads, where failing means that the encoding is bad. -/
def demand {α : Type} (reader : Reader α) : Inspection α := fun input =>
  match reader input with
  | some result => .ok result
  | none => .error .badEncoding

/-- Inspects all of a byte string. -/
def inspect {α : Type} (inspection : Inspection α) (input : Bytes) : Except CertificateFault α :=
  match inspection input with
  | .ok (a, []) => .ok a
  | .ok _ => .error .badEncoding
  | .error fault => .error fault

/-- Takes an element of a tag, and inspects all of its value. -/
def within {α : Type} (tag : UInt8) (inspection : Inspection α) : Inspection α := do
  inspect inspection (← demand (expect tag))

/-- Stops at a fault unless a condition holds. -/
def require (condition : Bool) (fault : CertificateFault) : Inspection Unit :=
  if condition then pure () else throw fault

/-- Takes whether an extension must be understood. -/
def readCritical : Reader Bool := do
  match ← optional booleanTag with
  | none => pure false
  | some [0x00] => pure false
  | some [0xFF] => pure true
  | some _ => failure

/-- The identifier of the extension that says what the key is used for. -/
def keyUsage : Bytes := [0x55, 0x1D, 15]

/-- The identifiers of the extensions that are understood: use of the key, alternative names, basic
and name constraints, distribution points and extended use. -/
def understood : List Bytes := keyUsage :: ([17, 19, 30, 31, 37] : List UInt8).map ([0x55, 0x1D, ·])

/-- Takes an extension, where those in `seen` have come before. Returns its identifier if it is
understood. -/
def inspectExtension (seen : List Bytes) : Inspection (List Bytes) := do
  let identifier ← demand (expect identifierTag)
  let critical ← demand readCritical
  let value ← demand (expect octetStringTag)
  if identifier ∈ understood then do
    require (identifier ∉ seen) .repeatedExtension
    require (identifier = keyUsage || (whole (expect sequenceTag) value).isSome) .badEncoding
    pure (identifier :: seen)
  else do
    require (!critical) .unsupportedExtension
    pure seen

/-- Takes extensions to the end. Every one takes at least a byte, so the number of bytes is enough
fuel. -/
def inspectExtensions : (fuel : Nat) → (seen : List Bytes) → Inspection Unit
  | 0, _ => pure ()
  | fuel + 1, seen => do
    if ← demand atEnd then pure ()
    else inspectExtensions fuel (← within sequenceTag (inspectExtension seen))

/-- Takes the fields of the signed part, and returns the public key information. The fields that
are not needed are only passed over. -/
def inspectSignedPart (signatureAlgorithm : Bytes) : Inspection Bytes := do
  let version ← within (numberedTag 0) (demand readNatural)
  require (version < 256) .badEncoding
  require (version = 2) .unsupportedVersion
  discard (demand (expect integerTag))
  let algorithm ← demand (expect sequenceTag)
  require (algorithm = signatureAlgorithm) .algorithmMismatch
  discard (demand (expect sequenceTag))
  discard (demand (expect sequenceTag))
  discard (demand (expect sequenceTag))
  let publicKeyInfo ← demand (expect sequenceTag)
  if !(← demand atEnd) then
    within (numberedTag 3) (within sequenceTag fun input => inspectExtensions input.length [] input)
  pure (element sequenceTag publicKeyInfo)

/-- Takes the outermost parts: what is signed, the signature algorithm and the signature. -/
def readEnvelope : Reader (Bytes × Bytes) :=
  nested sequenceTag do
    let signedPart ← expect sequenceTag
    let algorithm ← expect sequenceTag
    discard readBits
    pure (signedPart, algorithm)

/-- The public key information of a certificate. -/
def publicKeyInfo (certificate : Bytes) : Except CertificateFault Bytes := do
  let (signedPart, algorithm) ← inspect (demand readEnvelope) certificate
  inspect (inspectSignedPart algorithm) signedPart

end Certificate

end Sealing.Tls
