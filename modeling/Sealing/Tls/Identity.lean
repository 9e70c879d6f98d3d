import Sealing.Report
import Sealing.Tls.Certificate
import Sealing.Tls.PrivateKey

/-!
# The identity of the service

For TLS the service needs a chain of certificates and the private key that goes with the first of
them. Both come from texts with labelled sections, which are read from files.
-/

namespace Sealing.Tls

/-- Why there is no identity. -/
inductive TlsError where
  | certificateFile (path reason : String)
  | keyFile (path reason : String)
  | certificateText (error : PemError)
  | noCertificate
  | keyText (error : PemError)
  | noKey
  /-- The key is of no known kind. -/
  | unusableKey
  | certificate (fault : CertificateFault)
  /-- The key is not the one of the first certificate. -/
  | keyMismatch
deriving DecidableEq, Repr

/-- What an operator is told. -/
def TlsError.report : TlsError → Report
  | certificateFile path reason => ⟨s!"failed to read TLS certificate {path}", [reason]⟩
  | keyFile path reason => ⟨s!"failed to read TLS private key {path}", [reason]⟩
  | certificateText error => ⟨"failed to parse TLS certificate chain", [error.message]⟩
  | noCertificate => ⟨"no certificate found in PEM data", []⟩
  | keyText error => ⟨"failed to read TLS private key", [error.message]⟩
  | noKey => ⟨"no private key found in PEM data", []⟩
  | unusableKey =>
    ⟨"failed to build rustls ServerConfig",
      ["unexpected error: failed to parse private key as RSA, ECDSA, or EdDSA"]⟩
  | certificate fault =>
    ⟨"failed to build rustls ServerConfig", [s!"invalid peer certificate: {fault.name}"]⟩
  | keyMismatch =>
    ⟨"failed to build rustls ServerConfig", ["keys may not be consistent: KeyMismatch"]⟩

/-- A chain of certificates, the service's own first, with the private key of the first. -/
structure Identity where
  chain : List Bytes
  key : PrivateKey
deriving DecidableEq, Repr

/-- The files of the machine: what a path holds, or why it cannot be read. -/
abbrev Files := String → Except String Bytes

namespace Identity

/-- The protocols that are spoken over TLS, the preferred one first. -/
def protocols : List String := ["h2", "http/1.1"]

/-- The certificates of a text. -/
def certificates (text : Bytes) : Except PemError (List Bytes) := do
  let sections ← (Pem.sections text).mapM id
  pure ((sections.filter (·.label = .certificate)).map (·.content))

/-- The first private key among some sections. Sections after it are not looked at. -/
def firstKey : List (Except PemError PemSection) → Except PemError (Option PrivateKey)
  | [] => .ok none
  | .error e :: _ => .error e
  | .ok found :: rest =>
    match found.label.keyFormat? with
    | some format => .ok (some ⟨format, found.content⟩)
    | none => firstKey rest

/-- Checks that a key goes with a chain of certificates. -/
def pair (chain : List Bytes) (key : PrivateKey) : Except TlsError Identity :=
  match key.publicKeyInfo?, chain with
  | none, _ => .error .unusableKey
  | some _, [] => .error .noCertificate
  | some ofKey, own :: _ =>
    match Certificate.publicKeyInfo own with
    | .error fault => .error (.certificate fault)
    | .ok ofCertificate => if ofKey = ofCertificate then .ok ⟨chain, key⟩ else .error .keyMismatch

/-- The identity in two texts. -/
def ofTexts (certificateText keyText : Bytes) : Except TlsError Identity :=
  match certificates certificateText with
  | .error e => .error (.certificateText e)
  | .ok [] => .error .noCertificate
  | .ok chain =>
    match firstKey (Pem.sections keyText) with
    | .error e => .error (.keyText e)
    | .ok none => .error .noKey
    | .ok (some key) => pair chain key

/-- The identity in two files. -/
def load (files : Files) (certificatePath keyPath : String) : Except TlsError Identity :=
  match files certificatePath with
  | .error reason => .error (.certificateFile certificatePath reason)
  | .ok certificateText =>
    match files keyPath with
    | .error reason => .error (.keyFile keyPath reason)
    | .ok keyText => ofTexts certificateText keyText

end Identity

end Sealing.Tls
