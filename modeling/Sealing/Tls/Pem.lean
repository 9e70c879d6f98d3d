import Sealing.Bytes.Base64
import Sealing.Text.Quoted

/-!
# Labelled sections of a text

Keys and certificates stand in a text between a line that begins a section and a line that ends it,
in base64. What stands outside of sections is passed over, and so are sections with an unknown
label. The base64 of a section may be broken by white space anywhere and its padding may be missing.
-/

namespace Sealing.Tls

/-- What a section holds. -/
inductive PemLabel where
  | certificate
  | publicKey
  | rsaKey
  | privateKey
  | ecKey
  | revocationList
  | request
  | echConfig
deriving DecidableEq, Repr

namespace PemLabel

/-- Every label. -/
def all : List PemLabel :=
  [certificate, publicKey, rsaKey, privateKey, ecKey, revocationList, request, echConfig]

/-- The text of a label. -/
def text : PemLabel → String
  | certificate => "CERTIFICATE"
  | publicKey => "PUBLIC KEY"
  | rsaKey => "RSA PRIVATE KEY"
  | privateKey => "PRIVATE KEY"
  | ecKey => "EC PRIVATE KEY"
  | revocationList => "X509 CRL"
  | request => "CERTIFICATE REQUEST"
  | echConfig => "ECHCONFIG"

/-- The label of a text. -/
def ofBytes? (bytes : Bytes) : Option PemLabel := all.find? fun l => Ascii.bytes l.text == bytes

end PemLabel

/-- Why a text cannot be cut into sections. -/
inductive PemError where
  /-- A line begins a section but does not end as it should. -/
  | sectionStart (line : Bytes)
  /-- A section does not end. -/
  | sectionEnd (label : Bytes)
  /-- A byte of a section is not base64. -/
  | invalidByte (byte : UInt8)
  /-- The base64 of a section stops short, or has padding in the wrong place. -/
  | invalidPadding
deriving DecidableEq, Repr

/-- The text of an error. -/
def PemError.message : PemError → String
  | sectionStart line => s!"illegal section start: {Text.quoted (Utf8.decodeLossy line)}"
  | sectionEnd label => s!"section end {Text.quoted (Utf8.decodeLossy label)} missing"
  | invalidByte byte => s!"InvalidCharacter({byte})"
  | invalidPadding => "InvalidTrailingPadding"

/-- One section. -/
structure PemSection where
  label : PemLabel
  content : Bytes
deriving DecidableEq, Repr

namespace Pem

/-- One symbol of a base64 text: its value, or padding. -/
abbrev Symbol := Option Nat

/-- Whether a byte may stand anywhere between symbols. -/
def isBlank (b : UInt8) : Bool := b = Ascii.space || (Ascii.tab ≤ b && b ≤ Ascii.carriageReturn)

/-- The symbol of a byte. -/
def symbol? (b : UInt8) : Option Symbol :=
  if b = Ascii.equals then some none else (Base64.value? b).map some

/-- The bytes of a group of at most four symbols. Padding may be missing, but may not be in
excess. -/
def groupBytes : List Symbol → Option Bytes
  | [] => some []
  | [some v, some w, some x, some y] =>
    some (Bytes.ofNatBE 3 (((v * 64 + w) * 64 + x) * 64 + y))
  | [some v, some w, some x] | [some v, some w, some x, none] =>
    some (Bytes.ofNatBE 2 (((v * 64 + w) * 64 + x) / 4))
  | [some v, some w] | [some v, some w, none, none] =>
    some (Bytes.ofNatBE 1 ((v * 64 + w) / 16))
  | _ => none

/-- The bytes of the last symbols, at most eight. Before the last four there is no padding. -/
def lastBytes (symbols : List Symbol) : Except PemError Bytes :=
  let bytes? :=
    if 4 < symbols.length then do
      guard ((symbols.take 4).all Option.isSome)
      pure ((← groupBytes (symbols.take 4)) ++ (← groupBytes (symbols.drop 4)))
    else groupBytes symbols
  match bytes? with
  | some bytes => .ok bytes
  | none => .error .invalidPadding

/-- Reads base64, eight symbols at a time; `pending` are the symbols of the next eight that have
been read already. Eight symbols with padding among them are the last ones, and what follows them is
not looked at. -/
def decodeContent (pending : List Symbol) : Bytes → Except PemError Bytes
  | [] => lastBytes pending
  | b :: rest =>
    if isBlank b then decodeContent pending rest
    else
      match symbol? b with
      | none => .error (.invalidByte b)
      | some symbol =>
        let symbols := pending ++ [symbol]
        if symbols.length < 8 then decodeContent symbols rest
        else if symbols.all Option.isSome then do
          let bytes ← lastBytes symbols
          pure (bytes ++ (← decodeContent [] rest))
        else lastBytes symbols

/-- Whether a byte ends a line. -/
def endsLine (b : UInt8) : Bool := b = Ascii.lineFeed || b = Ascii.carriageReturn

/-- The lines of a text, each with the byte that ends it. -/
def lines : Bytes → List Bytes
  | [] => []
  | b :: rest =>
    match endsLine b, lines rest with
    | false, line :: more => (b :: line) :: more
    | _, more => [b] :: more

/-- What a line starts with that begins a section. -/
def beginning : Bytes := Ascii.bytes "-----BEGIN "

/-- The label of a line that begins a section: what stands before the five dashes at its end. Line
ends and spaces after the dashes are ignored. -/
def label? (line : Bytes) : Option Bytes :=
  let trimmed := (line.reverse.dropWhile fun b => endsLine b || b = Ascii.space)
  let dashes := trimmed.takeWhile (· = Ascii.minus)
  if dashes.length = 5 then
    some ((trimmed.drop 5).reverse.drop beginning.length)
  else none

/-- What a line starts with that ends a section. -/
def ending (label : Bytes) : Bytes := Ascii.bytes "-----END " ++ label ++ Ascii.bytes "-----"

/-- Cuts lines into sections. `current` is the label of the section that has begun, and `collected`
its base64 so far. A line that begins a section replaces the label but leaves what was collected. -/
def sectionsFrom (current : Option Bytes) (collected : Bytes) :
    List Bytes → List (Except PemError PemSection)
  | [] =>
    match current with
    | some label => [.error (.sectionEnd label)]
    | none => []
  | line :: rest =>
    if beginning.isPrefixOf line then
      match label? line with
      | some label => sectionsFrom (some label) collected rest
      | none => [.error (.sectionStart line)]
    else
      match current with
      | none => sectionsFrom none collected rest
      | some label =>
        if (ending label).isPrefixOf line then
          match PemLabel.ofBytes? label with
          | none => sectionsFrom none [] rest
          | some known =>
            match decodeContent [] collected with
            | .error e => [.error e]
            | .ok content => .ok ⟨known, content⟩ :: sectionsFrom none [] rest
        else sectionsFrom current (collected ++ line) rest

/-- The sections of a text, up to the first error. -/
def sections (text : Bytes) : List (Except PemError PemSection) := sectionsFrom none [] (lines text)

end Pem

end Sealing.Tls
