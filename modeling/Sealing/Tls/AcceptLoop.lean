/-!
# The accept loop

For every connection that arrives the loop starts a task. A task completes a handshake, serves its
connection, and ends when the connection does. On the signal to stop the loop accepts no more,
sends a stop value to all tasks, and returns when every task has ended or its patience runs out. A
task looks for the stop value only while it serves; a value that was sent earlier, while the task
was in its handshake, waits for it. Main statement: the function that computes steps agrees with the
rules.
-/

namespace Sealing.Tls

/-- What the loop is doing. -/
inductive LoopMode where
  | accepting
  /-- Waiting for the tasks after the signal to stop. -/
  | draining
  | returned
deriving DecidableEq, Repr

/-- Where a task is. -/
inductive TaskPhase where
  | handshake
  | serving
  | finished
deriving DecidableEq, Repr

/-- The task of one connection. -/
structure ConnectionTask where
  phase : TaskPhase
  /-- Whether the task has seen the stop value, and so asked its connection to close. -/
  stopped : Bool
deriving DecidableEq, Repr

/-- The loop, its tasks, and what of the tasks it has taken note of. -/
structure AcceptLoop where
  mode : LoopMode
  /-- Every task ever started, in order. -/
  tasks : List ConnectionTask
  /-- The tasks whose end the loop has taken note of, by number. -/
  reaped : List Nat
  /-- Whether the stop value has been sent. -/
  stopSent : Bool
  /-- Whether the loop returned because its patience ran out. -/
  expired : Bool
deriving DecidableEq, Repr

/-- What can happen next. Tasks are known by number. -/
inductive LoopEvent where
  /-- A connection arrives. -/
  | arrival
  /-- Taking a connection fails before there is one. -/
  | arrivalFailure
  | handshakeDone (task : Nat)
  /-- A handshake fails, or takes too long. -/
  | handshakeFailure (task : Nat)
  /-- A connection ends, in good order or with an error. -/
  | connectionEnd (task : Nat)
  /-- A task sees the stop value and asks its connection to close once its requests are answered. -/
  | stopSeen (task : Nat)
  /-- The loop takes note that a task has ended. -/
  | reaping (task : Nat)
  /-- The signal to stop: no more connections are taken. -/
  | signal
  /-- The stop value is sent to all tasks. -/
  | stopSending
  /-- Nothing is left to wait for. -/
  | drained
  /-- The patience of the loop runs out. -/
  | expiry
deriving DecidableEq, Repr

namespace AcceptLoop

/-- A loop that has just begun. -/
def initial : AcceptLoop := ⟨.accepting, [], [], false, false⟩

/-- Replaces a task. -/
def setTask (l : AcceptLoop) (i : Nat) (t : ConnectionTask) : AcceptLoop :=
  { l with tasks := l.tasks.set i t }

/-- Whether the loop has taken note of the end of every task. -/
def allReaped (l : AcceptLoop) : Bool := (List.range l.tasks.length).all (· ∈ l.reaped)

/-- Whether the loop is in a place where it takes note of tasks that have ended. -/
def isJoining (l : AcceptLoop) : Bool :=
  match l.mode with
  | .accepting => true
  | .draining => l.stopSent
  | .returned => false

/-- The loop after an event, if the event can happen. Tasks that are still there when the patience
of the loop runs out are ended by force. -/
def step? (l : AcceptLoop) : LoopEvent → Option AcceptLoop
  | .arrival =>
    if l.mode = .accepting then some { l with tasks := l.tasks ++ [⟨.handshake, false⟩] } else none
  | .arrivalFailure => if l.mode = .accepting then some l else none
  | .handshakeDone i =>
    match l.tasks[i]? with
    | some ⟨.handshake, stopped⟩ => some (l.setTask i ⟨.serving, stopped⟩)
    | _ => none
  | .handshakeFailure i =>
    match l.tasks[i]? with
    | some ⟨.handshake, stopped⟩ => some (l.setTask i ⟨.finished, stopped⟩)
    | _ => none
  | .connectionEnd i =>
    match l.tasks[i]? with
    | some ⟨.serving, stopped⟩ => some (l.setTask i ⟨.finished, stopped⟩)
    | _ => none
  | .stopSeen i =>
    match l.tasks[i]? with
    | some ⟨.serving, false⟩ => if l.stopSent then some (l.setTask i ⟨.serving, true⟩) else none
    | _ => none
  | .reaping i =>
    match l.tasks[i]? with
    | some ⟨.finished, _⟩ =>
      if l.isJoining ∧ i ∉ l.reaped then some { l with reaped := i :: l.reaped } else none
    | _ => none
  | .signal => if l.mode = .accepting then some { l with mode := .draining } else none
  | .stopSending =>
    if l.mode = .draining ∧ l.stopSent = false then some { l with stopSent := true } else none
  | .drained =>
    if l.mode = .draining ∧ l.stopSent ∧ l.allReaped then some { l with mode := .returned }
    else none
  | .expiry =>
    if l.mode = .draining ∧ l.stopSent then
      some { l with
        mode := .returned
        expired := true
        tasks := l.tasks.map fun t => { t with phase := .finished } }
    else none

/-- The loop after some events, if they can happen in this order. -/
def run? (l : AcceptLoop) : List LoopEvent → Option AcceptLoop
  | [] => some l
  | e :: es => (l.step? e).bind (·.run? es)

/-- The loop after an event. One that cannot happen changes nothing. -/
def advance (l : AcceptLoop) (e : LoopEvent) : AcceptLoop := (l.step? e).getD l

/-- The loop after some events. -/
def advanceAll (l : AcceptLoop) (events : List LoopEvent) : AcceptLoop := events.foldl advance l

/-- The number of connections that the loop still knows of. -/
def openConnections (l : AcceptLoop) : Nat :=
  ((List.range l.tasks.length).filter (· ∉ l.reaped)).length

/-- The steps of the loop, one rule for each event. -/
inductive Step : AcceptLoop → LoopEvent → AcceptLoop → Prop
  | arrival {l} : l.mode = .accepting →
    Step l .arrival { l with tasks := l.tasks ++ [⟨.handshake, false⟩] }
  | arrivalFailure {l} : l.mode = .accepting → Step l .arrivalFailure l
  | handshakeDone {l i stopped} : l.tasks[i]? = some ⟨.handshake, stopped⟩ →
    Step l (.handshakeDone i) (l.setTask i ⟨.serving, stopped⟩)
  | handshakeFailure {l i stopped} : l.tasks[i]? = some ⟨.handshake, stopped⟩ →
    Step l (.handshakeFailure i) (l.setTask i ⟨.finished, stopped⟩)
  | connectionEnd {l i stopped} : l.tasks[i]? = some ⟨.serving, stopped⟩ →
    Step l (.connectionEnd i) (l.setTask i ⟨.finished, stopped⟩)
  | stopSeen {l i} : l.tasks[i]? = some ⟨.serving, false⟩ → l.stopSent = true →
    Step l (.stopSeen i) (l.setTask i ⟨.serving, true⟩)
  | reaping {l i stopped} : l.tasks[i]? = some ⟨.finished, stopped⟩ → l.isJoining = true →
    i ∉ l.reaped → Step l (.reaping i) { l with reaped := i :: l.reaped }
  | signal {l} : l.mode = .accepting → Step l .signal { l with mode := .draining }
  | stopSending {l} : l.mode = .draining → l.stopSent = false →
    Step l .stopSending { l with stopSent := true }
  | drained {l} : l.mode = .draining → l.stopSent = true → l.allReaped = true →
    Step l .drained { l with mode := .returned }
  | expiry {l} : l.mode = .draining → l.stopSent = true →
    Step l .expiry { l with
      mode := .returned
      expired := true
      tasks := l.tasks.map fun t => { t with phase := .finished } }

/-- The function and the rules agree. -/
theorem step?_eq_some_iff {l l' : AcceptLoop} {e : LoopEvent} :
    l.step? e = some l' ↔ Step l e l' := by
  constructor
  · intro h
    cases e <;> simp only [step?] at h <;> split at h <;> try split at h
    all_goals first | contradiction | skip
    all_goals cases h
    · exact .arrival ‹_›
    · exact .arrivalFailure ‹_›
    · exact .handshakeDone ‹_›
    · exact .handshakeFailure ‹_›
    · exact .connectionEnd ‹_›
    · exact .stopSeen ‹_› ‹_›
    · rename_i i stopped finished joining
      exact .reaping finished joining.1 joining.2
    · exact .signal ‹_›
    · rename_i ready
      exact .stopSending ready.1 ready.2
    · rename_i ready
      exact .drained ready.1 ready.2.1 ready.2.2
    · rename_i ready
      exact .expiry ready.1 ready.2
  · intro h
    cases h <;> simp_all [step?]

/-- A state that the loop can reach from its beginning. -/
inductive Reachable : AcceptLoop → Prop
  | initial : Reachable initial
  | step {l l' : AcceptLoop} {e : LoopEvent} : Reachable l → Step l e l' → Reachable l'

/-- What can be reached stays within reach. -/
theorem Reachable.advance {l : AcceptLoop} (h : Reachable l) (e : LoopEvent) :
    Reachable (l.advance e) := by
  unfold AcceptLoop.advance
  cases hs : l.step? e with
  | none => exact h
  | some l' => exact .step h (step?_eq_some_iff.1 hs)

/-- No list of events leads out of reach. -/
theorem Reachable.advanceAll {l : AcceptLoop} (h : Reachable l) (events : List LoopEvent) :
    Reachable (l.advanceAll events) := by
  induction events generalizing l with
  | nil => exact h
  | cons e es ih => exact ih (h.advance e)

end AcceptLoop

end Sealing.Tls
