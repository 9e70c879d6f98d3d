import Sealing.Entropy
import Sealing.Failure
import Sealing.Log.Event

/-!
# What an operation uses and leaves behind

Sealing draws on a random source, calls primitives and emits log events. The ledger holds the
source and the record of both, in order, and survives a failure: what was drawn or called before
the failure stays drawn and called.
-/

namespace Sealing

/-- One call of a cipher or MAC primitive, with its operands. -/
inductive PrimitiveCall where
  | validateKey (key : Bytes)
  | encrypt (key vector data : Bytes)
  | decrypt (key vector data : Bytes)
  | mac (key message : Bytes)
deriving DecidableEq, Repr

/-- The random source, and what has happened so far. -/
structure Ledger where
  entropy : Entropy
  calls : List PrimitiveCall := []
  events : List Log.Event := []

/-- An operation that uses a ledger and may fail. -/
abbrev Op (α : Type) := ExceptT SealError (StateM Ledger) α

/-- Emits a log event. -/
def Ledger.note (event : Log.Event) : StateM Ledger Unit :=
  modify fun ledger => { ledger with events := ledger.events ++ [event] }

namespace Op

/-- Runs an operation on a ledger. -/
def run {α : Type} (op : Op α) (ledger : Ledger) : Except SealError α × Ledger :=
  StateT.run (ExceptT.run op) ledger

/-- Records a primitive call. -/
def record (call : PrimitiveCall) : Op Unit :=
  modify fun ledger => { ledger with calls := ledger.calls ++ [call] }

/-- Emits a log event. -/
def emit (event : Log.Event) : Op Unit := ExceptT.lift (Ledger.note event)

/-- Draws from the random source. -/
def draw (count : Nat) : Op Bytes := do
  let (drawn, rest) := (← get).entropy.draw count
  modify fun ledger => { ledger with entropy := rest }
  match drawn with
  | .ok bytes => pure bytes
  | .error text => throw (.randomSource text)

/-- The result of an operation as a value, which never fails. -/
def attempt {α : Type} (op : Op α) : Op (Except SealError α) :=
  fun ledger =>
    let (result, after) := op ledger
    (.ok result, after)

end Op

end Sealing
