import Sealing.Startup
import Sealing.Tls.AcceptLoop
import Sealing.Tls.Handshake

/-!
# Listening

A client opens connections to a running program and sends requests over them, each in one piece or
in two. The program answers a request when all of it has arrived. On an interrupt it takes no more
connections, closes those that are idle, and completes the requests that are under way. Whatever the
client does, its connections are tasks of an accept loop that follows its rules.
-/

namespace Sealing

open Tls (AcceptLoop LoopEvent)

/-- A connection that the client holds. -/
structure Connection where
  /-- The number of its task in the accept loop. -/
  task : Nat
  /-- The request of which the client has not yet sent all. -/
  pending : Option Http.Request := none

/-- Where the body of a request comes from. -/
inductive BodySource where
  | given (body : Bytes)
  /-- The body of an earlier response, counted from zero. -/
  | received (index : Nat)
deriving DecidableEq, Repr

/-- What the client does next. It names connections by number. -/
inductive ClientAction where
  /-- Opens a connection, over TLS if there is something to offer. -/
  | connect (id : Nat) (hello : Option Tls.ClientHello)
  | request (id : Nat) (method target : String) (body : BodySource)
  /-- Sends a request but for the end of its body. -/
  | begin (id : Nat) (method target : String) (body : BodySource)
  /-- Sends the end of the body. -/
  | finish (id : Nat)
  /-- Sends some bytes over a connection of its own and waits until it is closed. -/
  | raw (data : Bytes)
  | drop (id : Nat)
  /-- Interrupts the program. -/
  | interrupt
  /-- Waits for the program to close a connection, and gives the connection up. -/
  | awaitClose (id : Nat)
deriving DecidableEq, Repr

/-- What the client sees. -/
inductive Outcome where
  | connected
  | secured (connection : Tls.Secured)
  | handshakeFailed
  | response (response : Http.Response)
  | done
  | closed (byProgram : Bool)
deriving DecidableEq, Repr

/-- Why the client cannot do what it wants. -/
inductive Obstacle where
  | network (reason : String)
  | noConnection (id : Nat)
  | noResponse (index : Nat)
  | noRequest (id : Nat)
deriving DecidableEq, Repr

namespace Obstacle

/-- The text of an obstacle. -/
def message : Obstacle → String
  | network reason => reason
  | noConnection id => s!"no connection {id}"
  | noResponse index => s!"no response {index}"
  | noRequest id => s!"no request on connection {id}"

end Obstacle

/-- A running program and the client that talks to it. -/
structure Listener where
  running : Running
  network : Net.Network
  ledger : Ledger
  loop : AcceptLoop := .initial
  loop_reachable : loop.Reachable := by exact .initial
  connections : List (Nat × Connection) := []
  /-- The bodies of the responses so far. -/
  received : List Bytes := []

namespace Listener

/-- Something that the client does or that happens to it. -/
abbrev Act (α : Type) := ExceptT Obstacle (StateM Listener) α

/-- The event that records an interrupt. -/
def interruptEvent : Log.Event :=
  ⟨.info, "sealbox_server::server", "shutdown signal received", []⟩

/-- The event that records the end of accepting connections over TLS. -/
def drainingEvent (openConnections : Nat) : Log.Event :=
  ⟨.info, "sealbox_server::server::tls", "TLS listener stopped, draining",
    [("open_connections", .number openConnections)]⟩

/-- Logs an event. -/
def note (l : Listener) (event : Log.Event) : Listener :=
  { l with ledger := { l.ledger with events := l.ledger.events ++ [event] } }

/-- Lets events happen in the accept loop. -/
def happen (l : Listener) (events : List LoopEvent) : Listener :=
  { l with
    loop := l.loop.advanceAll events
    loop_reachable := l.loop_reachable.advanceAll events }

/-- The program closes a connection, and the loop takes note of the end of its task. -/
def closing (task : Nat) : List LoopEvent := [.connectionEnd task, .reaping task]

/-- The client leaves a connection, perhaps before its handshake is done. -/
def leaving (task : Nat) : List LoopEvent := .handshakeFailure task :: closing task

/-- Whether the program still takes connections. -/
def isAccepting (l : Listener) : Bool := l.loop.mode = .accepting

/-- Replaces a connection. -/
def setConnection (l : Listener) (id : Nat) (c : Connection) : Listener :=
  { l with connections := (id, c) :: l.connections.filter (·.1 ≠ id) }

/-- Takes a connection off the client's hands. -/
def removeConnection (l : Listener) (id : Nat) : Listener :=
  { l with connections := l.connections.filter (·.1 ≠ id) }

/-- The client gives a connection up. -/
def abandon (l : Listener) (id : Nat) (c : Connection) : Listener :=
  (l.happen (leaving c.task)).removeConnection id

/-- The events that close a connection at a stop, unless a request is under way on it. -/
def stopping (c : Connection) : List LoopEvent :=
  .stopSeen c.task :: if c.pending.isNone then closing c.task else []

/-- An interrupt. Only the first one counts. -/
def interrupt (l : Listener) : Listener :=
  if l.isAccepting then
    let l := (l.note interruptEvent).happen [.signal]
    let l := if l.running.identity.isSome then l.note (drainingEvent l.loop.openConnections) else l
    l.happen (.stopSending :: l.connections.flatMap (stopping ·.2))
  else l

/-- The client leaves all connections, and so the loop comes to its end. -/
def drain (l : Listener) : Listener :=
  l.happen ((List.range l.loop.tasks.length).flatMap leaving ++ [.drained])

/-- The connection of a number. -/
def connection (id : Nat) : Act Connection := do
  match (← get).connections.lookup id with
  | some c => pure c
  | none => throw (.noConnection id)

/-- The connection of a number, while the program keeps it open. -/
def openConnection (id : Nat) : Act Connection := do
  let c ← connection id
  match (← get).loop.tasks[c.task]? with
  | some ⟨.serving, _⟩ => pure c
  | _ => throw (.noConnection id)

/-- The bytes of a body. -/
def bodyBytes : BodySource → Act Bytes
  | .given body => pure body
  | .received index => do
    match (← get).received[index]? with
    | some body => pure body
    | none => throw (.noResponse index)

/-- Reaches the program over the network. -/
def reach : Act Unit := do
  let l ← get
  match l.network.connect l.running.socket with
  | .error reason => throw (.network reason)
  | .ok () =>
    if l.isAccepting then pure () else throw (.network "Connection refused (os error 111)")

/-- Starts a task for a connection that has arrived, and lets events happen to it. -/
def arrive (after : Nat → List LoopEvent) : Act Nat := do
  reach
  let task := (← get).loop.tasks.length
  modify (·.happen (.arrival :: after task))
  pure task

/-- Opens a connection. Without an identity no handshake is needed; with one, a client that offers
nothing never completes it. -/
def connect (id : Nat) (hello : Option Tls.ClientHello) : Act Outcome := do
  let identity := (← get).running.identity
  match hello with
  | none =>
    let task ← arrive fun task => if identity.isSome then [] else [.handshakeDone task]
    modify (·.setConnection id ⟨task, none⟩)
    pure .connected
  | some hello =>
    match identity.bind (·.accept? hello) with
    | none =>
      discard (arrive leaving)
      pure .handshakeFailed
    | some secured =>
      let task ← arrive fun task => [.handshakeDone task]
      modify (·.setConnection id ⟨task, none⟩)
      pure (.secured secured)

/-- The program answers a request. A connection that was to close is closed after the answer. -/
def answer (id : Nat) (c : Connection) (request : Http.Request) : Act Outcome := do
  let l ← get
  let (response, ledger) := (l.running.service.answer request).run l.ledger
  let l := { l with ledger := ledger, received := l.received ++ [response.body] }
  let l := l.setConnection id { c with pending := none }
  set (if l.loop.stopSent then l.happen (closing c.task) else l)
  pure (.response response)

/-- Carries out an action. -/
def act : ClientAction → Act Outcome
  | .connect id hello => connect id hello
  | .request id method target body => do
    let c ← openConnection id
    answer id c ⟨method, target, [], ← bodyBytes body⟩
  | .begin id method target body => do
    let c ← openConnection id
    let request := ⟨method, target, [], ← bodyBytes body⟩
    modify (·.setConnection id { c with pending := some request })
    pure .done
  | .finish id => do
    let c ← openConnection id
    match c.pending with
    | some request => answer id c request
    | none => throw (.noRequest id)
  | .raw _ => do
    let secure := (← get).running.identity.isSome
    discard (arrive fun task =>
      if secure then leaving task else .handshakeDone task :: closing task)
    pure (.closed true)
  | .drop id => do
    let c ← connection id
    modify (·.abandon id c)
    pure .done
  | .interrupt => do
    modify interrupt
    pure .done
  | .awaitClose id => do
    let c ← connection id
    let byProgram := ((← get).loop.tasks[c.task]?).any (·.phase = .finished)
    modify (·.abandon id c)
    pure (.closed byProgram)

/-- Carries out actions one after another, whether they succeed or not. -/
def perform : List ClientAction → StateM Listener (List (Except Obstacle Outcome))
  | [] => pure []
  | action :: actions => do
    let outcome ← (act action).run
    pure (outcome :: (← perform actions))

end Listener

end Sealing
