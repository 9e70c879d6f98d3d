import Sealing.Ledger

/-!
# Runs of operations

An operation that leaves the random source alone has one outcome on every ledger: a result, and
the calls and events that it adds. `Op.Performs` names that outcome, and the structural rules give
the outcome of a whole operation from those of its steps. What draws is described by its run.
-/

namespace Sealing

/-- The ledger after further calls and events. -/
def Ledger.extend (l : Ledger) (calls : List PrimitiveCall) (events : List Log.Event) : Ledger :=
  { l with calls := l.calls ++ calls, events := l.events ++ events }

namespace Ledger

@[simp] theorem entropy_extend (l : Ledger) (calls : List PrimitiveCall)
    (events : List Log.Event) : (l.extend calls events).entropy = l.entropy := rfl

@[simp] theorem calls_extend (l : Ledger) (calls : List PrimitiveCall)
    (events : List Log.Event) : (l.extend calls events).calls = l.calls ++ calls := rfl

@[simp] theorem extend_nil (l : Ledger) : l.extend [] [] = l := by
  simp only [extend, List.append_nil]

@[simp] theorem extend_extend (l : Ledger) (calls calls' : List PrimitiveCall)
    (events events' : List Log.Event) :
    (l.extend calls events).extend calls' events' =
      l.extend (calls ++ calls') (events ++ events') := by
  simp only [extend, List.append_assoc]

end Ledger

namespace Op

variable {α β : Type}

/-- A step that succeeds hands its value and its ledger to the next one. -/
theorem run_bind_ok {op : Op α} {l l' : Ledger} {a : α} (h : op.run l = (.ok a, l'))
    (f : α → Op β) : (op >>= f).run l = (f a).run l' := by
  simp only [run, ExceptT.run, StateT.run, bind, ExceptT.bind, ExceptT.mk, StateT.bind] at h ⊢
  rw [h]
  rfl

/-- A step that fails is the last one. -/
theorem run_bind_error {op : Op α} {l l' : Ledger} {e : SealError} (h : op.run l = (.error e, l'))
    (f : α → Op β) : (op >>= f).run l = (.error e, l') := by
  simp only [run, ExceptT.run, StateT.run, bind, ExceptT.bind, ExceptT.mk, StateT.bind] at h ⊢
  rw [h]
  rfl

private theorem run_draw_eq (count : Nat) (l : Ledger) :
    (draw count).run l =
      (match (l.entropy.draw count).1 with
        | .ok bytes => (pure bytes : Op Bytes)
        | .error text => throw (SealError.randomSource text)).run
        { l with entropy := (l.entropy.draw count).2 } := rfl

/-- A draw succeeds if the source does, and takes its bytes out of the ledger. -/
theorem run_draw_ok {count : Nat} {l : Ledger} {taken : Bytes} {rest : Entropy}
    (h : l.entropy.draw count = (.ok taken, rest)) :
    (draw count).run l = (.ok taken, { l with entropy := rest }) := by
  rw [run_draw_eq, h]
  rfl

/-- A draw that fails takes nothing. -/
theorem run_draw_error {count : Nat} {l : Ledger} {text : String} {rest : Entropy}
    (h : l.entropy.draw count = (.error text, rest)) :
    (draw count).run l = (.error (.randomSource text), l) := by
  obtain rfl := Entropy.draw_error h
  rw [run_draw_eq, h]
  rfl

/-- The outcome of an operation on every ledger: a result, and what it adds to the record. -/
def Performs (op : Op α) (result : Except SealError α) (calls : List PrimitiveCall)
    (events : List Log.Event) : Prop :=
  ∀ l, op.run l = (result, l.extend calls events)

/-- A value performs nothing. -/
theorem performs_pure (a : α) : (pure a : Op α).Performs (.ok a) [] [] := by
  intro l
  rw [l.extend_nil]
  rfl

/-- An error performs nothing. -/
theorem performs_throw (e : SealError) : (throw e : Op α).Performs (.error e) [] [] := by
  intro l
  rw [l.extend_nil]
  rfl

/-- A call is recorded. -/
theorem performs_record (c : PrimitiveCall) : (record c).Performs (.ok ()) [c] [] := by
  intro l
  simp only [Ledger.extend, List.append_nil]
  rfl

/-- An event is logged. -/
theorem performs_emit (e : Log.Event) : (emit e).Performs (.ok ()) [] [e] := by
  intro l
  simp only [Ledger.extend, List.append_nil]
  rfl

/-- A result that is known already changes nothing. -/
theorem performs_ofExcept (r : Except SealError α) :
    (MonadExcept.ofExcept r : Op α).Performs r [] [] := by
  intro l
  rw [l.extend_nil]
  cases r <;> rfl

namespace Performs

variable {op : Op α} {calls calls' : List PrimitiveCall} {events events' : List Log.Event}

/-- Operations in a row perform in a row. -/
theorem bind_ok {f : α → Op β} {a : α} {result : Except SealError β}
    (h : op.Performs (.ok a) calls events) (hf : (f a).Performs result calls' events') :
    (op >>= f).Performs result (calls ++ calls') (events ++ events') := by
  intro l
  rw [run_bind_ok (h l), hf, Ledger.extend_extend]

/-- Behind an error nothing is performed. -/
theorem bind_error {f : α → Op β} {e : SealError} (h : op.Performs (.error e) calls events) :
    (op >>= f).Performs (.error e) calls events :=
  fun l => run_bind_error (h l) f

/-- The result becomes a value, and the record keeps what was added. -/
theorem attempt {result : Except SealError α} (h : op.Performs result calls events) :
    op.attempt.Performs (.ok result) calls events := by
  intro l
  have hl : op.attempt.run l = (.ok (op.run l).1, (op.run l).2) := rfl
  rw [hl, h l]

/-- The result on one ledger is the result on every other. -/
theorem fst_run {result : Except SealError α} (h : op.Performs result calls events)
    (l : Ledger) : (op.run l).1 = result :=
  congrArg Prod.fst (h l)

end Performs

end Op

end Sealing
