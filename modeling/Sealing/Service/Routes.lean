import Sealing.Http.Coding
import Sealing.Http.Target
import Sealing.Key
import Sealing.Service.Body
import Sealing.Suite

/-!
# Routes of the service

The service seals and opens request bodies under its key, and says how it is. A request is judged
in a fixed order: its path, its method, the size of its body, and only then what the body says.
Failures are logged with their cause and answered without it.
-/

namespace Sealing

/-- A running service. -/
structure Service where
  sealer : Sealer
  key : Key
  /-- The size of the largest body that is read. -/
  bodyLimit : Nat

namespace Service

open Http (Request Response)

/-- What the service can be asked for. -/
inductive Route where
  | encrypt | decrypt | health
deriving DecidableEq, Repr

namespace Route

/-- Every route. -/
def all : List Route := [encrypt, decrypt, health]

/-- The path of a route. -/
def path : Route → String
  | encrypt => "/crypto/encrypt"
  | decrypt => "/crypto/decrypt"
  | health => "/health"

/-- The methods of a route. -/
def methods : Route → List String
  | encrypt | decrypt => ["POST"]
  | health => ["GET", "HEAD"]

/-- The route of a path. -/
def ofPath? (path : String) : Option Route := all.find? (·.path == path)

/-- No two routes share a path. -/
theorem ofPath?_path (r : Route) : ofPath? r.path = some r := by
  cases r <;> decide

end Route

/-- A response with a JSON body. -/
def jsonResponse (status : Nat) (text : String) : Response :=
  ⟨status, [("content-type", "application/json")], Utf8.encode text⟩

/-- The response that reports a failure. -/
def failed (f : Failure) : Response := jsonResponse f.status (ErrorBody.ofFailure f).render

/-- The response to a request for an unknown path. -/
def notFound : Response :=
  jsonResponse 404 (ErrorBody.render ⟨"not_found", "the requested resource does not exist"⟩)

/-- The response to a request whose method the route does not have. -/
def methodNotAllowed (route : Route) : Response :=
  ⟨405, [("allow", String.intercalate "," route.methods)], []⟩

/-- The response to a request whose body is too large. -/
def tooLarge : Response :=
  ⟨413, [("content-type", "text/plain; charset=utf-8")],
    Utf8.encode "Failed to buffer the request body: length limit exceeded"⟩

/-- The event that records why a body could not be sealed or opened. It shows the size of the body
and no byte of it. -/
def failureEvent (message : String) (cause : SealError) (body : Bytes) : Log.Event :=
  ⟨.warn, "sealbox_server::server::handlers", message,
    [("error", .text cause.message), ("body_len", .number body.length)]⟩

/-- What a client is told when a body cannot be opened. -/
def openingFailure (cause : SealError) : Failure :=
  if cause.isRejection then .rejected else .internal "decryption failed"

/-- Seals a body. -/
def sealBody (s : Service) (body : Bytes) : StateM Ledger Response := do
  match ← ExceptT.run (s.sealer.encode s.key.bytes body) with
  | .ok envelope => pure (jsonResponse 200 envelope)
  | .error cause =>
    Ledger.note (failureEvent "encryption failed" cause body)
    pure (failed (.internal "encryption failed"))

/-- Opens a body. -/
def openBody (s : Service) (body : Bytes) : StateM Ledger Response := do
  match ← ExceptT.run (s.sealer.decodeBytes s.key.bytes body) with
  | .ok plaintext => pure ⟨200, [("content-type", "application/octet-stream")], plaintext⟩
  | .error cause =>
    Ledger.note (failureEvent "decryption failed" cause body)
    pure (failed (openingFailure cause))

/-- Says that the service is alive and which suite it uses. -/
def healthResponse (s : Service) : Response :=
  jsonResponse 200 (Health.render ⟨"ok", s.sealer.suite, UInt64.ofNat s.sealer.tagLength⟩)

/-- The response of a route to one of its methods, before any content coding. -/
def perform (s : Service) (route : Route) (body : Bytes) : StateM Ledger Response :=
  match route with
  | .encrypt => if s.bodyLimit < body.length then pure tooLarge else s.sealBody body
  | .decrypt => if s.bodyLimit < body.length then pure tooLarge else s.openBody body
  | .health => pure s.healthResponse

/-- The response to a request whose path has a route. A `HEAD` request gets the header fields of
the whole response. -/
def dispatch (s : Service) (route : Route) (request : Request) : StateM Ledger Response := do
  if request.method ∈ route.methods then
    let response := (← s.perform route request.body).negotiated request
    pure (if request.method = "HEAD" then { response with body := [] } else response)
  else pure ((methodNotAllowed route).negotiated request)

/-- The response to a request that has arrived. What the service answers to a client that is too slow
with its body, or breaks off in it, is not part of this. -/
def answer (s : Service) (request : Request) : StateM Ledger Response :=
  match Route.ofPath? (Http.Target.path request.target) with
  | none => pure (notFound.negotiated request)
  | some route => s.dispatch route request

end Service

end Sealing
