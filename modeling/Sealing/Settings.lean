import Sealing.Decimal.Digits
import Sealing.Environment
import Sealing.Key
import Sealing.Net.Address
import Sealing.Report
import Sealing.Suite
import Sealing.Text.Quoted

/-!
# Settings

The settings of the service come from environment variables. Reading them checks that every value
suits its setting, in the order in which the settings are walked, and fills in defaults; validating
them checks everything that starting up relies on, in a fixed order.
-/

namespace Sealing

/-- The settings of the service. -/
structure Settings where
  aesKey : String
  cipherSuite : String := Suite.default.name
  listenAddress : String := "0.0.0.0"
  listenPort : UInt16 := 8000
  tlsCertPath : Option String := none
  tlsKeyPath : Option String := none
  maxBodyBytes : UInt64 := 1048576
  logLevel : String := "info"
deriving DecidableEq, Repr

/-- Why there are no usable settings. -/
inductive SettingsError where
  /-- The value of a setting is not a text. -/
  | notText (name : String) (value : Environment.Value)
  /-- The value of a setting is not a number. -/
  | notInteger (name : String) (value : Environment.Value)
  /-- The value of a setting is too large for a port. -/
  | notPort (name : String) (value : Nat)
  /-- A setting without a default is missing. -/
  | missing (name : String)
  /-- A required value is blank. -/
  | blank (name : String)
  | invalidKey (error : KeyError)
  | unknownSuite (error : SealError)
  | invalidAddress (text : String)
  /-- Only one of the two paths is set. -/
  | unpairedPaths
  | zeroBodyLimit
deriving DecidableEq, Repr

namespace SettingsError

/-- How a value is described that does not suit a setting. Only a text is the value of one variable,
and so comes from the environment as it stands. -/
def misfit (name expected : String) : Environment.Value → String
  | .text text =>
    s!"invalid type: string {Text.quoted text}, expected {expected} for key `{name}` " ++
      "in the environment"
  | .table => s!"invalid type: map, expected {expected} for key `{name}`"
  | .list => s!"invalid type: sequence, expected {expected} for key `{name}`"

/-- What an operator is told. -/
def report : SettingsError → Report
  | notText name value =>
    ⟨"failed to deserialise configuration", [misfit name "a string" value]⟩
  | notInteger name value =>
    ⟨"failed to deserialise configuration", [misfit name "an integer" value]⟩
  | notPort name value =>
    ⟨"failed to deserialise configuration",
      [s!"invalid type: 64-bit unsigned integer `{value}`, " ++
        s!"expected an unsigned 16 bit integer for key `{name}`"]⟩
  | missing name => ⟨"failed to deserialise configuration", [s!"missing field `{name}`"]⟩
  | blank name => ⟨s!"{name} is required and must not be empty", []⟩
  | invalidKey error => ⟨"AES_KEY is invalid", [error.message]⟩
  | unknownSuite error =>
    ⟨"CIPHER_SUITE must be one of " ++ String.intercalate ", " (Suite.all.map Suite.name),
      [error.message]⟩
  | invalidAddress text =>
    ⟨s!"LISTEN_ADDR is not an IP address: {text}", ["invalid IP address syntax"]⟩
  | unpairedPaths => ⟨"TLS_CERT_PATH and TLS_KEY_PATH must be set together", []⟩
  | zeroBodyLimit => ⟨"MAX_BODY_BYTES must be > 0", []⟩

end SettingsError

/-- Reads an integer setting: one of the words for one and zero, or decimal digits after an
optional plus sign, below `2 ^ 64`. -/
def integer? (value : String) : Option Nat :=
  let word := Text.lowerAsciiText value
  if word ∈ ["true", "on", "yes"] then some 1
  else if word ∈ ["false", "off", "no"] then some 0
  else (Decimal.natural? value.toList).filter (· < Nat.pow 2 64)

namespace Environment.Value

/-- The text that a setting is set to. -/
def toText (name : String) : Value → Except SettingsError String
  | text t => .ok t
  | value => .error (.notText name value)

/-- The number that a setting is set to. -/
def toInteger (name : String) : Value → Except SettingsError Nat
  | text t => (integer? t).elim (.error (.notInteger name (text t))) .ok
  | value => .error (.notInteger name value)

/-- The port that a setting is set to. -/
def toPort (name : String) (value : Value) : Except SettingsError UInt16 := do
  let n ← value.toInteger name
  if n < Nat.pow 2 16 then pure (UInt16.ofNat n) else throw (.notPort name n)

end Environment.Value

namespace Settings

open Environment (Table Value)

/-- The settings that are texts. -/
def texts : List String :=
  ["aes_key", "cipher_suite", "listen_addr", "tls_cert_path", "tls_key_path", "log_level"]

/-- All settings. -/
def names : List String := texts ++ ["listen_port", "max_body_bytes"]

/-- Refuses a value that does not suit its setting. A name that is none of a setting is passed
over. -/
def suits (name : String) (value : Value) : Except SettingsError Unit :=
  if name ∈ texts then discard (value.toText name)
  else if name = "listen_port" then discard (value.toPort name)
  else if name = "max_body_bytes" then discard (value.toInteger name)
  else .ok ()

/-- Reads a setting, if it is set. -/
def get? {α : Type} (table : Table) (name : String)
    (convert : String → Value → Except SettingsError α) : Except SettingsError (Option α) :=
  match table.lookup name with
  | none => .ok none
  | some value => (convert name value).map some

/-- Reads the settings without judging their texts. The first value in the table that does not suit
its setting is reported. -/
def read (table : Table) : Except SettingsError Settings := do
  forM table fun entry => suits entry.1 entry.2
  match ← get? table "aes_key" Value.toText with
  | none => throw (.missing "aes_key")
  | some key =>
    pure {
      aesKey := key
      cipherSuite := (← get? table "cipher_suite" Value.toText).getD Suite.default.name
      listenAddress := (← get? table "listen_addr" Value.toText).getD "0.0.0.0"
      listenPort := (← get? table "listen_port" Value.toPort).getD 8000
      tlsCertPath := ← get? table "tls_cert_path" Value.toText
      tlsKeyPath := ← get? table "tls_key_path" Value.toText
      maxBodyBytes := UInt64.ofNat ((← get? table "max_body_bytes" Value.toInteger).getD 1048576)
      logLevel := (← get? table "log_level" Value.toText).getD "info" }

/-- The configured key. -/
def key (s : Settings) : Except SettingsError Key :=
  match Key.ofBase64 s.aesKey with
  | .ok k => .ok k
  | .error e => .error (.invalidKey e)

/-- The configured suite. -/
def suite (s : Settings) : Except SettingsError Suite :=
  match Suite.parse s.cipherSuite with
  | .ok suite => .ok suite
  | .error e => .error (.unknownSuite e)

/-- The address and port to listen on. -/
def socket (s : Settings) : Except SettingsError Net.Socket :=
  match Net.Address.parse? s.listenAddress with
  | some a => .ok ⟨a, s.listenPort⟩
  | none => .error (.invalidAddress s.listenAddress)

/-- The paths of certificate and key, if both are set. -/
def tlsPaths (s : Settings) : Option (String × String) :=
  match s.tlsCertPath, s.tlsKeyPath with
  | some cert, some key => some (cert, key)
  | _, _ => none

/-- Refuses a blank value. -/
def requireText (value name : String) : Except SettingsError Unit :=
  if Text.isBlankText value then .error (.blank name) else .ok ()

/-- The paths are both absent, or both present and not blank. -/
def validatePaths (s : Settings) : Except SettingsError Unit :=
  match s.tlsCertPath, s.tlsKeyPath with
  | some cert, some key => do
    requireText cert "TLS_CERT_PATH"
    requireText key "TLS_KEY_PATH"
  | none, none => .ok ()
  | _, _ => .error .unpairedPaths

/-- Checks everything that starting up relies on, up to the first failure. -/
def validate (s : Settings) : Except SettingsError Unit := do
  requireText s.aesKey "AES_KEY"
  discard s.key
  discard s.suite
  discard s.socket
  s.validatePaths
  if s.maxBodyBytes = 0 then throw .zeroBodyLimit

/-- Reads the settings of a table and validates them. -/
def ofTable (table : Table) : Except SettingsError Settings := do
  let s ← read table
  s.validate
  pure s

/-- The settings of an environment. In which order its tables are walked decides which of several
unsuitable values is reported, and which of several variables makes what it does of a setting. -/
def ofEnvironment (env : Environment) (walks : Walks := {}) : Except SettingsError Settings :=
  ofTable (env.settings walks)

/-- How an optional text is described. -/
def describeOption : Option String → String
  | none => "None"
  | some s => s!"Some({Text.quoted s})"

/-- The description of settings shows everything but the key. -/
def describe (s : Settings) : String :=
  s!"Config \x7b aes_key: \"[REDACTED]\", cipher_suite: {Text.quoted s.cipherSuite}, " ++
    s!"listen_addr: {Text.quoted s.listenAddress}, listen_port: {s.listenPort.toNat}, " ++
    s!"tls_cert_path: {describeOption s.tlsCertPath}, " ++
    s!"tls_key_path: {describeOption s.tlsKeyPath}, " ++
    s!"max_body_bytes: {s.maxBodyBytes.toNat}, log_level: {Text.quoted s.logLevel} \x7d"

end Settings

end Sealing
