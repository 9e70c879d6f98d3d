import Sealing.Listener

/-!
# Runs

A run starts the program, lets a client act, and ends with an interrupt. A program that does not
start leaves a diagnosis behind and meets no client.
-/

namespace Sealing

/-- What a run leaves behind. -/
structure Run where
  /-- What the client has met, action by action. -/
  outcomes : List (Except Obstacle Outcome)
  exitCode : Nat
  /-- The text on the error stream. -/
  diagnosis : String
  /-- The events that the log shows. -/
  log : List Log.Event

namespace Run

/-- Runs the program with a client and a random source. -/
def perform (machine : Machine) (env : Environment) (entropy : Entropy)
    (actions : List ClientAction) (walks : Walks := {}) : Run :=
  match (Running.start machine env walks).run ⟨entropy, [], []⟩ with
  | (.error e, ledger) => ⟨[], 1, e.diagnosis, ledger.events⟩
  | (.ok running, ledger) =>
    let (outcomes, listener) :=
      (Listener.perform actions).run { running, network := machine.network, ledger }
    ⟨outcomes, 0, "", listener.interrupt.drain.ledger.events.filter running.filter.shows⟩

end Run

end Sealing
