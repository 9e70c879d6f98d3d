import Sealing.Listener
import Sealing.Log.Line
import Std.Async.Signal
import Std.Async.TCP
import Std.Http
import Std.Time

/-!
# The program

Reads the environment and the files it names, starts the service, and answers requests over plain
HTTP until it is interrupted. The log goes to the output stream, a diagnosis to the error stream.
There is no transport for TLS here: a service with an identity is refused.
-/

namespace Sealing.Program

/-- Writes an event to the output stream. -/
def write (event : Log.Event) : IO Unit := do
  let time ← Std.Time.Timestamp.now
  IO.println (event.line (Std.Time.DateTime.ofTimestamp time .UTC).toISO8601String)

/-- The name and the value of a variable. An equals sign in front is part of the name. -/
def nameAndValue? : Bytes → Option (Bytes × Bytes)
  | [] => none
  | first :: rest =>
    match rest.span (· ≠ '='.toUInt8) with
    | (name, _ :: value) => some (first :: name, value)
    | _ => none

/-- The environment of this process, or nothing if some variable in it is not Unicode. -/
def environment : IO (Option Environment) := do
  let block ← IO.FS.readBinFile "/proc/self/environ"
  pure (((block.toList.splitOn 0).filterMap nameAndValue?).mapM fun (name, value) => do
    pure (← Utf8.decode? name, ← Utf8.decode? value))

/-- The files that the settings name. -/
def files (env : Environment) : IO Tls.Files := do
  let paths := match (Settings.ofEnvironment env).toOption.bind Settings.tlsPaths with
    | some (certificate, key) => [certificate, key]
    | none => []
  let contents ← paths.mapM fun (path : String) => do
    match ← (IO.FS.readBinFile path).toBaseIO with
    | .ok content => pure (path, Except.ok content.toList)
    | .error e => pure (path, Except.error (toString e))
  pure fun path => (contents.lookup path).getD (.error "file not read")

/-- A socket as the system takes it. -/
def systemSocket (s : Net.Socket) : Std.Net.SocketAddress :=
  match s.address with
  | .v4 a => .v4 ⟨⟨a⟩, s.port⟩
  | .v6 a => .v6 ⟨⟨a⟩, s.port⟩

/-- Whether the socket in the settings can be bound. -/
def network (env : Environment) : IO Net.Network := do
  let tried ← match (Settings.ofEnvironment env).bind Settings.socket with
    | .error _ => pure (.ok ())
    | .ok s => do
      let attempt : IO Unit := do (← Std.Async.TCP.Socket.Server.mk).bind (systemSocket s)
      match ← attempt.toBaseIO with
      | .ok () => pure (.ok ())
      | .error e => pure (.error (toString e))
  pure ⟨fun _ => tried, fun _ => .error "not a client"⟩

/-- A request as the service takes it. Codings of the body are not offered, so the client's wishes
for one are left out. -/
def requestOf (head : Std.Http.Request.Head) (body : Bytes) : Http.Request :=
  let headers := head.headers.toList.map fun field => (field.1.value, field.2.value)
  ⟨toString head.method, toString head.uri,
    headers.filter fun field => field.1 ≠ "accept-encoding", body⟩

/-- Answers a request with fresh random bytes, and logs what the filter shows. -/
def answer (running : Running) (request : Http.Request) : IO Http.Response := do
  let drawn ← (IO.getRandomBytes 16).toBaseIO
  let entropy : Entropy := match drawn with
    | .ok bytes => ⟨bytes.toList, none⟩
    | .error e => ⟨[], some (toString e)⟩
  let (response, ledger) := (running.service.answer request).run ⟨entropy, [], []⟩
  for event in ledger.events do
    if running.filter.shows event then write event
  pure response

/-- A response as it is sent. -/
def responseOf (response : Http.Response) :
    Std.Async.Async (Std.Http.Response Std.Http.Body.Full) := do
  let code := UInt16.ofNat response.status
  let status := (Std.Http.Status.ofCode none code).getD .internalServerError
  let builder := response.headers.foldl (fun b field => (b.header? field.1 field.2).getD b)
    (Std.Http.Response.withStatus status)
  builder.fromBytes ⟨response.body.toArray⟩

/-- The service over plain HTTP. -/
instance : Std.Http.Server.Handler Running where
  ResponseBody := Std.Http.Body.Full
  onRequest running request := do
    let body : ByteArray ← request.body.readAll
    responseOf (← answer running (requestOf request.line body.toList))

/-- Serves until the interrupt, and completes what is under way. -/
def serve (running : Running) : IO Unit := do
  let interrupt ← Std.Async.Signal.Waiter.mk .sigint false
  let socket := systemSocket running.socket
  let server ← (Std.Http.Server.serve socket running { serverName := none }).block
  discard (Std.Async.Async.ofAsyncTask (← interrupt.wait)).block
  if running.filter.shows Listener.interruptEvent then write Listener.interruptEvent
  server.shutdownAndWait.block

end Sealing.Program

open Sealing in
/-- Runs the program. It does not put up with an environment that is not Unicode. -/
def main : IO UInt32 := do
  let some env ← Program.environment
    | do
      IO.eprintln "an environment variable is not Unicode"
      pure 101
  let machine : Machine := ⟨← Program.files env, ← Program.network env⟩
  let (outcome, ledger) := (Running.start machine env).run ⟨⟨[], none⟩, [], []⟩
  ledger.events.forM Program.write
  match outcome with
  | .error e =>
    IO.eprint e.diagnosis
    pure 1
  | .ok running =>
    if running.identity.isSome then
      IO.eprintln "Error: no transport for TLS is available"
      pure 1
    else
      Program.serve running
      pure 0
