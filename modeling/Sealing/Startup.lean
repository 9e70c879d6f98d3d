import Sealing.Log.Filter
import Sealing.Net.Network
import Sealing.Service.Routes
import Sealing.Settings
import Sealing.Tls.Identity

/-!
# Starting up

The program starts in a fixed order: settings, log filter, suite and key, socket, and last the
identity for TLS. It stops at the first step that fails and tells the operator why. What it has
achieved by then is in its log.
-/

namespace Sealing

/-- The machine that the program runs on. -/
structure Machine where
  files : Tls.Files
  network : Net.Network

/-- Why the program does not start. -/
inductive StartError where
  | settings (error : SettingsError)
  | filter (text : String) (error : Log.FilterError)
  /-- A setting that has passed its check turns out not to be usable. -/
  | unusable (error : SettingsError)
  | bind (socket : Net.Socket) (reason : String)
  | tls (error : Tls.TlsError)
deriving DecidableEq, Repr

namespace StartError

/-- What an operator is told. -/
def report : StartError → Report
  | settings error | unusable error => error.report
  | filter text error => ⟨s!"invalid LOG_LEVEL filter: {text}", error.message :: error.causes⟩
  | bind socket reason => ⟨s!"failed to bind {socket.render}", [reason]⟩
  | tls error => error.report

/-- The text on the error stream. Bad settings are found before there is a log, so they are told in
a line of their own as well. -/
def diagnosis : StartError → String
  | settings error => s!"ERROR: configuration invalid: {error.report.line}\n" ++ error.report.block
  | error => error.report.block

end StartError

/-- The program once it has started. -/
structure Running where
  service : Service
  socket : Net.Socket
  /-- With an identity the service speaks TLS only. -/
  identity : Option Tls.Identity
  filter : Log.Filter

namespace Running

/-- The version of the program. -/
def version : String := "0.1.0"

/-- The event that opens the log. -/
def startingEvent (suite : Suite) (key : Key) (secure : Bool) : Log.Event :=
  ⟨.info, "sealbox_server", "sealbox-server starting",
    [("version", .text version), ("suite", .text suite.name), ("key_bits", .number key.bits),
      ("tls", .flag secure)]⟩

/-- The event that says where the program listens. -/
def listeningEvent (socket : Net.Socket) : Log.Event :=
  ⟨.info, "sealbox_server", "listening", [("addr", .text socket.render)]⟩

/-- The log filter. The variable for it goes first, if it holds a filter at all. -/
def chooseFilter (env : Environment) (settings : Settings) : Except StartError Log.Filter :=
  match (env.exactly? "RUST_LOG").map Log.Filter.parse with
  | some (.ok filter) => .ok filter
  | _ => (Log.Filter.parse settings.logLevel).mapError (.filter settings.logLevel)

/-- The identity for TLS, if the settings ask for one. -/
def loadIdentity (files : Tls.Files) (settings : Settings) :
    Except StartError (Option Tls.Identity) :=
  match settings.tlsPaths with
  | none => .ok none
  | some (certificatePath, keyPath) =>
    ((Tls.Identity.load files certificatePath keyPath).map some).mapError .tls

/-- A step of starting up: it may stop the program, and leaves events in the log. -/
abbrev Start (α : Type) := ExceptT StartError (StateM Ledger) α

/-- Logs an event that the filter shows. -/
def announce (filter : Log.Filter) (event : Log.Event) : StateM Ledger Unit :=
  if filter.shows event then Ledger.note event else pure ()

/-- Starts the program. -/
def start (machine : Machine) (env : Environment) (walks : Walks := {}) : Start Running := do
  let settings ← ((Settings.ofEnvironment env walks).mapError .settings : Except StartError _)
  let filter ← chooseFilter env settings
  let suite ← (settings.suite.mapError .unusable : Except StartError _)
  let key ← (settings.key.mapError .unusable : Except StartError _)
  announce filter (startingEvent suite key settings.tlsPaths.isSome)
  let socket ← (settings.socket.mapError .unusable : Except StartError _)
  ((machine.network.bind socket).mapError (.bind socket) : Except StartError _)
  announce filter (listeningEvent socket)
  let identity ← loadIdentity machine.files settings
  pure ⟨⟨suite.sealer, key, settings.maxBodyBytes.toNat⟩, socket, identity, filter⟩

end Running

end Sealing
