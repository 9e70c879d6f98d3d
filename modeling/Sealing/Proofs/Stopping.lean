import Mathlib.Tactic.ByContra
import Sealing.Proofs.ConnectionTasks

/-!
# Stopping without loss

At every moment after the signal to stop, a task that was there at the signal has asked its
connection to close, or the stop value waits for it, or it has ended by itself. Nothing takes the
value away, so where the loop gets to send it, a handshake comes to an end and a task that serves
gets to look, the task asks its connection to close, unless it has ended by itself or has been cut
off before.
-/

namespace Sealing.Tls.AcceptLoop

variable {l l' l₀ : AcceptLoop} {e : LoopEvent} {es later : List LoopEvent} {i n : Nat}
  {t u : ConnectionTask}

/-! ## After the signal -/

/-- What has become of a task that was there at the signal, by the events since then. -/
inductive Stops (l : AcceptLoop) (i : Nat) (since : List LoopEvent) : Prop
  /-- Its handshake is not over. -/
  | shaking : l.tasks[i]? = some ⟨.handshake, false⟩ → Stops l i since
  /-- It serves, and the value is about to be sent. -/
  | unsent {m} : l.tasks[i]? = some ⟨.serving, false⟩ → Step l .stopSending m → Stops l i since
  /-- It serves, and the value waits for it. -/
  | waiting {m} : l.tasks[i]? = some ⟨.serving, false⟩ → Step l (.stopSeen i) m → Stops l i since
  /-- It has asked its connection to close. -/
  | asked {phase} : l.tasks[i]? = some ⟨phase, true⟩ → .stopSeen i ∈ since → Stops l i since
  | handshakeFailed : l.tasks[i]? = some ⟨.finished, false⟩ → .handshakeFailure i ∈ since →
    Stops l i since
  /-- Its connection has ended by itself. -/
  | connectionEnded : l.tasks[i]? = some ⟨.finished, false⟩ → .connectionEnd i ∈ since →
    Stops l i since
  /-- It has been cut off. -/
  | expired : l.tasks[i]? = some ⟨.finished, false⟩ → .expiry ∈ since → Stops l i since

/-- The signal makes an accepting loop drain. -/
theorem Step.of_signal (h : Step l .signal l') : l.mode = .accepting ∧ l'.mode = .draining := by
  cases h with
  | signal haccepting => exact ⟨haccepting, rfl⟩

/-- Once sent, the value to stop is there. -/
theorem Step.of_stopSending (h : Step l .stopSending l') : l'.stopSent = true := by
  cases h
  rfl

/-- While a task is there after the signal, the loop drains. -/
theorem Sound.draining (hl : l.Sound) (hmode : l.mode ≠ .accepting) (ht : l.tasks[i]? = some t)
    (hphase : t.phase ≠ .finished) : l.mode = .draining := by
  cases h : l.mode with
  | accepting => exact absurd h hmode
  | draining => rfl
  | returned => exact absurd (hl.returned h i t ht) hphase

/-- A task that serves and has not seen the stop value can see it, or the value can be sent. -/
theorem Sound.stops_of_serving (hl : l.Sound) (hmode : l.mode ≠ .accepting)
    (ht : l.tasks[i]? = some ⟨.serving, false⟩) (since : List LoopEvent) : l.Stops i since := by
  cases hsent : l.stopSent with
  | true => exact .waiting ht (.stopSeen ht hsent)
  | false => exact .unsent ht (.stopSending (hl.draining hmode ht nofun) hsent)

/-- A task that is there before the signal has not been stopped. -/
theorem Sound.unstopped (hl : l.Sound) (hmode : l.mode = .accepting)
    (ht : l.tasks[i]? = some t) : t.stopped = false := by
  cases hstopped : t.stopped with
  | false => rfl
  | true =>
    have hsent := hl.stopped i t ht hstopped
    rw [hl.sent hmode] at hsent
    cases hsent

/-- No task that is there at the signal is lost, nor is the stop value for it. -/
theorem stops_of_run? (hl₀ : Reachable l₀) (h : l₀.run? (.signal :: later) = some l)
    (ht : l₀.tasks[i]? = some t) (hphase : t.phase ≠ .finished) : l.Stops i later := by
  obtain ⟨m, hsignal, hrun⟩ := run?_cons_eq_some_iff.mp h
  have hsound := (hl₀.run? h).sound
  obtain ⟨haccepting, hdraining⟩ := hsignal.of_signal
  have hmode : l.mode ≠ .accepting := by
    apply (not_accepting_of_run? hrun _).1
    rw [hdraining]
    nofun
  obtain ⟨⟨phase, stopped⟩, hu, hsteps⟩ := task_of_run? h ht
  have hstopped := hsteps.stopped_iff
  simp only [hl₀.sound.unstopped haccepting ht, Bool.false_eq_true, false_or, List.mem_cons,
    reduceCtorEq] at hstopped
  cases stopped with
  | true => exact .asked hu (hstopped.mp rfl)
  | false =>
    cases phase with
    | handshake => exact .shaking hu
    | serving => exact hsound.stops_of_serving hmode hu later
    | finished =>
      obtain ⟨e, he, hends⟩ := hsteps.exists_mem_ends hphase rfl
      have hlater (hsignal : e ≠ .signal) : e ∈ later := (List.mem_cons.mp he).resolve_left hsignal
      rcases ConnectionTask.mem_ends_iff.mp hends with rfl | rfl | rfl
      · exact .handshakeFailed hu (hlater (by simp))
      · exact .connectionEnded hu (hlater (by simp))
      · exact .expired hu (hlater (by simp))

/-! ## Executions without an end -/

/-- All that ever happens to a loop. At some times nothing happens. -/
structure Execution where
  state : Nat → AcceptLoop
  event : Nat → Option LoopEvent
  start : state 0 = initial
  step : ∀ n e, event n = some e → Step (state n) e (state (n + 1))
  stay : ∀ n, event n = none → state (n + 1) = state n

namespace Execution

variable {x : Execution}

/-- If one or another of some events can always happen, from some time on, then one of them does. -/
def Fair (x : Execution) (es : List LoopEvent) : Prop :=
  ∀ n, (∀ m, n ≤ m → ∃ e ∈ es, ∃ l, Step (x.state m) e l) →
    ∃ m, n ≤ m ∧ ∃ e ∈ es, x.event m = some e

/-- How the wait of a task for the stop value comes to its end. -/
inductive Answers (x : Execution) (i n : Nat) : Prop
  /-- The task sees the value and asks its connection to close. -/
  | asked : x.event n = some (.stopSeen i) → Answers x i n
  | handshakeFailed : x.event n = some (.handshakeFailure i) → Answers x i n
  /-- Its connection ends by itself. -/
  | connectionEnded : x.event n = some (.connectionEnd i) →
    (x.state n).tasks[i]? = some ⟨.serving, false⟩ → Answers x i n
  /-- The task is cut off. -/
  | expired : x.event n = some .expiry → Answers x i n

/-- Every state of an execution is reachable. -/
theorem reachable (x : Execution) (n : Nat) : Reachable (x.state n) := by
  induction n with
  | zero =>
    rw [x.start]
    exact .initial
  | succ n ih =>
    cases h : x.event n with
    | none => rwa [x.stay n h]
    | some e => exact ih.step (x.step n e h)

/-- What every step preserves holds from then on. -/
theorem preserved {P : AcceptLoop → Prop} (hP : ∀ l e l', Step l e l' → P l → P l')
    (h : P (x.state n)) {m : Nat} (hm : n ≤ m) : P (x.state m) := by
  induction hm with
  | refl => exact h
  | @step m _ ih =>
    cases he : x.event m with
    | none => rwa [x.stay m he]
    | some e => exact hP _ e _ (x.step m e he) ih

/-- While its wait lasts a task stays as it is, or its handshake is done. -/
theorem waits {phase : TaskPhase} (hwait : ¬x.Answers i n) (hphase : phase ≠ .finished)
    (h : (x.state n).tasks[i]? = some ⟨phase, false⟩) :
    (x.state (n + 1)).tasks[i]? = some ⟨phase, false⟩ ∨
      phase = .handshake ∧ (x.state (n + 1)).tasks[i]? = some ⟨.serving, false⟩ := by
  cases he : x.event n with
  | none => exact .inl (by rwa [x.stay n he])
  | some e =>
    obtain ⟨u, hu, hstep⟩ := (x.step n e he).task h
    cases hstep with
    | handshakeDone => exact .inr ⟨rfl, hu⟩
    | handshakeFailure => exact absurd (.handshakeFailed he) hwait
    | connectionEnd => exact absurd (.connectionEnded he h) hwait
    | stopSeen => exact absurd (.asked he) hwait
    | expiry => exact absurd (.expired he) hwait
    | still => exact .inl hu

/-- A task that serves goes on serving while its wait lasts. -/
theorem serving (hwait : ∀ m, n ≤ m → ¬x.Answers i m)
    (h : (x.state n).tasks[i]? = some ⟨.serving, false⟩) {m : Nat} (hm : n ≤ m) :
    (x.state m).tasks[i]? = some ⟨.serving, false⟩ := by
  induction hm with
  | refl => exact h
  | @step m hm ih =>
    rcases waits (hwait m hm) (by simp) ih with hsame | ⟨hphase, -⟩
    · exact hsame
    · cases hphase

/-- While its wait lasts a task is there and unstopped. -/
theorem unstopped (hwait : ∀ m, n ≤ m → ¬x.Answers i m) {phase : TaskPhase}
    (hphase : phase ≠ .finished) (h : (x.state n).tasks[i]? = some ⟨phase, false⟩) {m : Nat}
    (hm : n ≤ m) : ∃ phase, phase ≠ .finished ∧ (x.state m).tasks[i]? = some ⟨phase, false⟩ := by
  induction hm with
  | refl => exact ⟨phase, hphase, h⟩
  | @step m hm ih =>
    obtain ⟨phase, hphase, ht⟩ := ih
    rcases waits (hwait m hm) hphase ht with hsame | ⟨-, hserving⟩
    · exact ⟨phase, hphase, hsame⟩
    · exact ⟨.serving, nofun, hserving⟩

/-- The stop value is sent if the loop drains for long enough. -/
theorem eventually_sent (hfair : x.Fair [.stopSending])
    (hdraining : ∀ m, n ≤ m → (x.state m).mode = .draining) :
    ∃ m, n ≤ m ∧ (x.state m).stopSent = true := by
  by_cases hsent : ∃ m, n ≤ m ∧ (x.state m).stopSent = true
  · exact hsent
  · have hready (m : Nat) (hm : n ≤ m) :
        ∃ e ∈ [LoopEvent.stopSending], ∃ l, Step (x.state m) e l := by
      have hunsent : (x.state m).stopSent = false :=
        Bool.eq_false_iff.mpr fun h => hsent ⟨m, hm, h⟩
      exact ⟨_, List.mem_singleton_self _, _, .stopSending (hdraining m hm) hunsent⟩
    obtain ⟨m, hm, e, he, hevent⟩ := hfair n hready
    obtain rfl := List.mem_singleton.mp he
    exact ⟨m + 1, Nat.le_succ_of_le hm, (x.step m _ hevent).of_stopSending⟩

/-- A handshake comes to its end. -/
theorem eventually_serving (hfair : x.Fair [.handshakeDone i, .handshakeFailure i])
    (hwait : ∀ m, n ≤ m → ¬x.Answers i m) {phase : TaskPhase} (hphase : phase ≠ .finished)
    (h : (x.state n).tasks[i]? = some ⟨phase, false⟩) :
    ∃ m, n ≤ m ∧ (x.state m).tasks[i]? = some ⟨.serving, false⟩ := by
  by_cases hserving : ∃ m, n ≤ m ∧ (x.state m).tasks[i]? = some ⟨.serving, false⟩
  · exact hserving
  · have hshaking (m : Nat) (hm : n ≤ m) :
        (x.state m).tasks[i]? = some ⟨.handshake, false⟩ := by
      obtain ⟨phase, hphase, ht⟩ := unstopped hwait hphase h hm
      cases phase with
      | handshake => exact ht
      | serving => exact absurd ⟨m, hm, ht⟩ hserving
      | finished => exact absurd rfl hphase
    obtain ⟨m, hm, e, he, hevent⟩ := hfair n fun m hm =>
      ⟨_, List.mem_cons_self, _, .handshakeDone (hshaking m hm)⟩
    simp only [List.mem_cons, List.not_mem_nil, or_false] at he
    rcases he with rfl | rfl
    · have hstep := x.step m _ hevent
      obtain ⟨u, hu, htask⟩ := hstep.task (hshaking m hm)
      cases htask with
      | handshakeDone => exact ⟨m + 1, Nat.le_succ_of_le hm, hu⟩
      | still he => exact absurd (by simp [ConnectionTask.moves]) he
    · exact absurd (.handshakeFailed hevent) (hwait m hm)

/-- A task that is there at the signal comes to see the stop value, if its handshake does not fail
and its connection does not end by itself, and nothing cuts it off. -/
theorem eventually_answers (hsend : x.Fair [.stopSending]) (hsee : x.Fair [.stopSeen i])
    (hshake : x.Fair [.handshakeDone i, .handshakeFailure i]) (hsignal : x.event n = some .signal)
    (ht : (x.state n).tasks[i]? = some t) (hphase : t.phase ≠ .finished) :
    ∃ m, n ≤ m ∧ x.Answers i m := by
  by_contra hnone
  have hwait (m : Nat) (hm : n ≤ m) : ¬x.Answers i m := fun h => hnone ⟨m, hm, h⟩
  obtain ⟨haccepting, hnext⟩ := (x.step n _ hsignal).of_signal
  obtain ⟨phase, stopped⟩ := t
  obtain rfl : stopped = false := (x.reachable n).sound.unstopped haccepting ht
  have hdraining (m : Nat) (hm : n + 1 ≤ m) : (x.state m).mode = .draining := by
    have hmode : (x.state m).mode ≠ .accepting := by
      apply preserved (fun _ _ _ h hl => (h.not_accepting hl).1) _ hm
      rw [hnext]
      nofun
    obtain ⟨_, hthere, htask⟩ := unstopped hwait hphase ht (Nat.le_of_succ_le hm)
    exact (x.reachable m).sound.draining hmode htask hthere
  obtain ⟨a, ha, hsent⟩ := eventually_sent hsend hdraining
  have hna : n ≤ a := Nat.le_of_succ_le ha
  obtain ⟨_, hthere, htask⟩ := unstopped hwait hphase ht hna
  obtain ⟨b, hb, hserving⟩ :=
    eventually_serving hshake (fun m hm => hwait m (Nat.le_trans hna hm)) hthere htask
  have hnb : n ≤ b := Nat.le_trans hna hb
  have hready (m : Nat) (hm : b ≤ m) :
      ∃ e ∈ [LoopEvent.stopSeen i], ∃ l, Step (x.state m) e l := by
    have hstill := serving (fun m hm => hwait m (Nat.le_trans hnb hm)) hserving hm
    have hsent' : (x.state m).stopSent = true :=
      preserved (fun _ _ _ h hl => h.stopSent_mono hl) hsent (Nat.le_trans hb hm)
    exact ⟨_, List.mem_singleton_self _, _, .stopSeen hstill hsent'⟩
  obtain ⟨m, hm, e, he, hevent⟩ := hsee b hready
  obtain rfl := List.mem_singleton.mp he
  exact hwait m (Nat.le_trans hnb hm) (.asked hevent)

end Execution

/-! ## Runs as executions -/

private theorem advance_of_step (h : Step l e l') : l.advance e = l' := by
  rw [advance, step?_eq_some_iff.mpr h, Option.getD_some]

/-- In a run every event happens in the state that the events before it lead to. -/
theorem step_of_run? (h : l.run? es = some l') (he : es[n]? = some e) :
    Step (l.advanceAll (es.take n)) e (l.advanceAll (es.take (n + 1))) := by
  induction es generalizing l n with
  | nil => cases he
  | cons f es ih =>
    obtain ⟨m, hm, hrun⟩ := run?_cons_eq_some_iff.mp h
    have hadvance (events : List LoopEvent) :
        l.advanceAll (f :: events) = m.advanceAll events := by
      rw [advanceAll, List.foldl_cons, advance_of_step hm, advanceAll]
    cases n with
    | zero =>
      obtain rfl := Option.some.inj he
      rw [List.take_succ_cons, hadvance]
      exact hm
    | succ n =>
      rw [List.take_succ_cons, List.take_succ_cons, hadvance, hadvance]
      exact ih hrun he

/-- A run leads to where it ends. -/
theorem advanceAll_of_run? (h : l.run? es = some l') : l.advanceAll es = l' := by
  induction es generalizing l with
  | nil => exact run?_nil_eq_some_iff.mp h
  | cons e es ih =>
    obtain ⟨m, hm, hrun⟩ := run?_cons_eq_some_iff.mp h
    rw [advanceAll, List.foldl_cons, advance_of_step hm]
    exact ih hrun

namespace Execution

/-- A run, after which nothing happens any more. -/
def ofRun (h : initial.run? es = some l) : Execution where
  state n := initial.advanceAll (es.take n)
  event n := es[n]?
  start := rfl
  step _ _ he := step_of_run? h he
  stay n he := by
    have hn := List.getElem?_eq_none_iff.mp he
    rw [List.take_of_length_le hn, List.take_of_length_le (Nat.le_succ_of_le hn)]

/-- A run as an execution shows the states of its fronts. -/
theorem state_ofRun (h : initial.run? es = some l) (n : Nat) :
    (ofRun h).state n = initial.advanceAll (es.take n) := rfl

/-- A run that leaves no chance for some events is fair to them. -/
theorem fair_ofRun {missed : List LoopEvent} (h : initial.run? es = some l)
    (hrest : ∀ e ∈ missed, l.step? e = none) : (ofRun h).Fair missed := by
  intro n hready
  obtain ⟨e, he, m, hstep⟩ := hready (n + es.length) (Nat.le_add_right n es.length)
  have hlast : (ofRun h).state (n + es.length) = l := by
    rw [state_ofRun, List.take_of_length_le (Nat.le_add_left es.length n), advanceAll_of_run? h]
  rw [hlast, ← step?_eq_some_iff, hrest e he] at hstep
  cases hstep

end Execution

/-! ## What is kept -/

/-- A step that finishes one task and leaves all else as it was. -/
structure FinishesOnly (l l' : AcceptLoop) (i : Nat) : Prop where
  task : ∃ t, l'.tasks[i]? = some t ∧ t.phase = .finished
  others : ∀ j, j ≠ i → l'.tasks[j]? = l.tasks[j]?
  rest : l' = { l with tasks := l'.tasks }
  /-- What could happen before still can, but for events about the task. -/
  possible : ∀ f m, f.task? ≠ some i → Step l f m → ∃ m, Step l' f m

/-- To set a task to finished finishes it and nothing else. -/
theorem finishesOnly_setTask (ht : l.tasks[i]? = some t) (hu : u.phase = .finished) :
    l.FinishesOnly (l.setTask i u) i where
  task := ⟨u, task_setTask_self ht, hu⟩
  others _ hj := task_setTask_ne hj.symm
  rest := rfl
  possible _ _ hf hstep := hstep.setTask hf

/-- A handshake that fails, like a connection that ends, finishes its task and nothing else. -/
theorem Step.finishesOnly (h : Step l e l') (he : e = .handshakeFailure i ∨ e = .connectionEnd i) :
    l.FinishesOnly l' i := by
  rcases he with rfl | rfl
  · cases h with
    | handshakeFailure ht => exact finishesOnly_setTask ht rfl
  · cases h with
    | connectionEnd ht => exact finishesOnly_setTask ht rfl

/-- When the loop has returned without running out of patience, every task was finished by an event
about it. -/
theorem finished_of_returned {history : List LoopEvent} (h : initial.run? history = some l)
    (hmode : l.mode = .returned) (hexpiry : .expiry ∉ history) (ht : l.tasks[i]? = some t) :
    t.phase = .finished ∧ (.handshakeFailure i ∈ history ∨ .connectionEnd i ∈ history) := by
  have hfinished := (Reachable.initial.run? h).sound.returned hmode i t ht
  refine ⟨hfinished, ?_⟩
  obtain ⟨later, hlater, hruns⟩ := task_new_of_run? h List.getElem?_nil ht
  obtain ⟨e, he, hends⟩ := hruns.exists_mem_ends nofun hfinished
  have hmem := hlater.subset he
  rcases ConnectionTask.mem_ends_iff.mp hends with rfl | rfl | rfl
  · exact .inl hmem
  · exact .inr hmem
  · exact absurd hmem hexpiry

/-- The accept loop loses neither a task nor the stop value, in whatever order things happen. A
handshake that fails and a connection that ends finish their own task and leave the loop and all
other tasks as they were. After the signal no task is started, and a task that was there at the
signal has its handshake before it, or the value waits for it, or it has seen the value and asked
its connection to close, unless it has ended by itself or patience has run out. In the long run it
does see the value, also if its handshake is over only later, if the loop gets to send the value,
the handshake comes to an end, and the task gets to look. Every connection that ever arrived has
its task, and each of them has ended by itself when the loop returns, unless patience has run
out. -/
theorem loses_no_task_and_no_stop :
    (∀ l l' e i, e = .handshakeFailure i ∨ e = .connectionEnd i → Step l e l' →
      l.FinishesOnly l' i) ∧
    (∀ before since l₀ l, initial.run? before = some l₀ →
      l₀.run? (.signal :: since) = some l →
      .arrival ∉ since ∧ l.tasks.length = l₀.tasks.length ∧
      ∀ i t, l₀.tasks[i]? = some t → t.phase ≠ .finished → l.Stops i since) ∧
    (∀ (x : Execution) (n i : Nat) (t : ConnectionTask), x.Fair [.stopSending] →
      x.Fair [.stopSeen i] → x.Fair [.handshakeDone i, .handshakeFailure i] →
      x.event n = some .signal → (x.state n).tasks[i]? = some t → t.phase ≠ .finished →
      ∃ m, n ≤ m ∧ x.Answers i m) ∧
    ∀ history l, initial.run? history = some l →
      l.tasks.length = history.count .arrival ∧
      (l.mode = .returned → .expiry ∉ history → ∀ i t, l.tasks[i]? = some t →
        t.phase = .finished ∧ (.handshakeFailure i ∈ history ∨ .connectionEnd i ∈ history)) := by
  refine ⟨?_, ?_, ?_, ?_⟩
  · intro l l' e i he h
    exact h.finishesOnly he
  · intro before since l₀ l hbefore h
    obtain ⟨m, hsignal, hrun⟩ := run?_cons_eq_some_iff.mp h
    have hsince : .arrival ∉ since := by
      apply (not_accepting_of_run? hrun _).2
      rw [hsignal.of_signal.2]
      nofun
    refine ⟨hsince, ?_, ?_⟩
    · rw [length_tasks_of_run? h, List.count_eq_zero.mpr (by simpa using hsince), Nat.add_zero]
    · intro i t ht hphase
      exact stops_of_run? (Reachable.initial.run? hbefore) h ht hphase
  · intro x n i t hsend hsee hshake hsignal ht hphase
    exact Execution.eventually_answers hsend hsee hshake hsignal ht hphase
  · intro history l h
    constructor
    · rw [length_tasks_of_run? h]
      exact Nat.zero_add _
    · intro hmode hexpiry i t ht
      exact finished_of_returned h hmode hexpiry ht

/-- One client is served and another has its handshake before it when the signal comes. -/
def lateHandshake : List LoopEvent :=
  [.arrival, .arrival, .handshakeDone 0, .signal, .stopSending, .handshakeDone 1, .stopSeen 0,
    .stopSeen 1, .connectionEnd 0, .reaping 0, .connectionEnd 1, .reaping 1, .drained]

/-- A run with a late handshake ends with both tasks stopped and finished. -/
theorem run?_lateHandshake : initial.run? lateHandshake =
    some ⟨.returned, [⟨.finished, true⟩, ⟨.finished, true⟩], [1, 0], true, false⟩ := by
  decide

/-- The late client is stopped all the same, and the loop returns when both have ended. -/
theorem loses_no_task_and_no_stop_late :
    FinishesOnly ⟨.draining, [⟨.serving, true⟩, ⟨.handshake, false⟩], [], true, false⟩
      ⟨.draining, [⟨.serving, true⟩, ⟨.finished, false⟩], [], true, false⟩ 1 ∧
    Stops ⟨.draining, [⟨.serving, false⟩, ⟨.serving, false⟩], [], true, false⟩ 1
      [.stopSending, .handshakeDone 1] ∧
    (∃ m, 3 ≤ m ∧ (Execution.ofRun run?_lateHandshake).Answers 1 m) ∧
    ∀ i t, [ConnectionTask.mk .finished true, ⟨.finished, true⟩][i]? = some t →
      t.phase = .finished ∧
        (.handshakeFailure i ∈ lateHandshake ∨ .connectionEnd i ∈ lateHandshake) := by
  refine ⟨?_, ?_, ?_, ?_⟩
  · apply loses_no_task_and_no_stop.1 _ _ (.handshakeFailure 1) 1 (.inl rfl)
    exact step?_eq_some_iff.mp (by decide)
  · have hbefore : initial.run? [.arrival, .arrival, .handshakeDone 0] =
        some ⟨.accepting, [⟨.serving, false⟩, ⟨.handshake, false⟩], [], false, false⟩ := by decide
    have hsince : run? ⟨.accepting, [⟨.serving, false⟩, ⟨.handshake, false⟩], [], false, false⟩
        [.signal, .stopSending, .handshakeDone 1] =
          some ⟨.draining, [⟨.serving, false⟩, ⟨.serving, false⟩], [], true, false⟩ := by decide
    exact (loses_no_task_and_no_stop.2.1 _ _ _ _ hbefore hsince).2.2 1 _ rfl nofun
  · exact loses_no_task_and_no_stop.2.2.1 (.ofRun run?_lateHandshake) 3 1 ⟨.handshake, false⟩
      (Execution.fair_ofRun _ (by decide)) (Execution.fair_ofRun _ (by decide))
      (Execution.fair_ofRun _ (by decide)) (by decide) (by decide) (by decide)
  · exact (loses_no_task_and_no_stop.2.2.2 lateHandshake _ run?_lateHandshake).2 rfl (by decide)

end Sealing.Tls.AcceptLoop
