import Sealing.Tls.AcceptLoop

/-!
# The tasks of the accept loop

A task goes its own way: it moves by the events about it and by the expiry that ends all tasks, no
event about another task touches it, and no step takes it away. So a failure stays with its task,
after the signal to stop the tasks are those that there were, and the loop does not return before
each of them has finished or has been made to. A stop value that was sent waits for every task that
has not looked for it yet.
-/

namespace Sealing.Tls

/-- The task that an event is about. -/
def LoopEvent.task? : LoopEvent → Option Nat
  | handshakeDone i | handshakeFailure i | connectionEnd i | stopSeen i | reaping i => some i
  | _ => none

/-! ## One task -/

namespace ConnectionTask

/-- The events that finish the task of a number. -/
def ends (i : Nat) : List LoopEvent := [.handshakeFailure i, .connectionEnd i, .expiry]

/-- The events that move the task of a number. -/
def moves (i : Nat) : List LoopEvent := .handshakeDone i :: .stopSeen i :: ends i

/-- How the task of a number moves, one rule for each event that moves it. -/
inductive Step (i : Nat) : ConnectionTask → LoopEvent → ConnectionTask → Prop
  | handshakeDone {stopped} : Step i ⟨.handshake, stopped⟩ (.handshakeDone i) ⟨.serving, stopped⟩
  | handshakeFailure {stopped} :
    Step i ⟨.handshake, stopped⟩ (.handshakeFailure i) ⟨.finished, stopped⟩
  | connectionEnd {stopped} : Step i ⟨.serving, stopped⟩ (.connectionEnd i) ⟨.finished, stopped⟩
  | stopSeen : Step i ⟨.serving, false⟩ (.stopSeen i) ⟨.serving, true⟩
  | expiry {t} : Step i t .expiry { t with phase := .finished }
  | still {t e} : e ∉ moves i → Step i t e t

/-- How it moves along some events. -/
inductive Run (i : Nat) : ConnectionTask → List LoopEvent → ConnectionTask → Prop
  | nil {t} : Run i t [] t
  | cons {t u v e es} : Step i t e u → Run i u es v → Run i t (e :: es) v

variable {i : Nat} {t u : ConnectionTask} {e : LoopEvent} {es : List LoopEvent}

/-- A task is ended by a failed handshake, the end of its connection, or the expiry of its time. -/
theorem mem_ends_iff :
    e ∈ ends i ↔ e = .handshakeFailure i ∨ e = .connectionEnd i ∨ e = .expiry := by
  simp only [ends, List.mem_cons, List.not_mem_nil, or_false]

/-- A task is told to stop once, and stays told. -/
theorem Step.stopped_iff (h : Step i t e u) :
    u.stopped = true ↔ t.stopped = true ∨ e = .stopSeen i := by
  cases h with
  | still he =>
    have hne : e ≠ .stopSeen i := by
      rintro rfl
      exact he (by simp [moves])
    simp [hne]
  | _ => simp

/-- A task has been stopped if and only if it has seen the stop value. -/
theorem Run.stopped_iff (h : Run i t es u) :
    u.stopped = true ↔ t.stopped = true ∨ .stopSeen i ∈ es := by
  induction h with
  | nil => simp
  | @cons t u v e es hstep _ ih =>
    rw [ih, hstep.stopped_iff, List.mem_cons, or_assoc, @eq_comm _ e]

/-- A task that has finished stays so. -/
theorem Step.finished (h : Step i t e u) (ht : t.phase = .finished) : u.phase = .finished := by
  cases h with
  | expiry => rfl
  | still => exact ht
  | _ => cases ht

/-- Only an end takes a task to where it has finished. -/
theorem Step.mem_ends (h : Step i t e u) (ht : t.phase ≠ .finished) (hu : u.phase = .finished) :
    e ∈ ends i := by
  cases h with
  | handshakeDone => cases hu
  | handshakeFailure => simp [ends]
  | connectionEnd => simp [ends]
  | stopSeen => cases hu
  | expiry => simp [ends]
  | still => exact absurd hu ht

/-- A task that has finished was finished by an event. -/
theorem Run.exists_mem_ends (h : Run i t es u) (ht : t.phase ≠ .finished)
    (hu : u.phase = .finished) : ∃ e ∈ es, e ∈ ends i := by
  induction h with
  | nil => exact absurd hu ht
  | @cons t m u e es hstep _ ih =>
    by_cases hm : m.phase = .finished
    · exact ⟨e, List.mem_cons_self, hstep.mem_ends ht hm⟩
    · obtain ⟨f, hf, hends⟩ := ih hm hu
      exact ⟨f, List.mem_cons_of_mem e hf, hends⟩

end ConnectionTask

namespace AcceptLoop

variable {l l' : AcceptLoop} {e : LoopEvent} {es es' : List LoopEvent} {i j : Nat}
  {t u : ConnectionTask}

/-! ## Replacing a task -/

private theorem length_setTask : (l.setTask i t).tasks.length = l.tasks.length := List.length_set

private theorem allReaped_setTask : (l.setTask i t).allReaped = l.allReaped := by
  rw [allReaped, allReaped, length_setTask]
  rfl

/-- A changed task is found in its place. -/
theorem task_setTask_self (h : l.tasks[i]? = some u) : (l.setTask i t).tasks[i]? = some t := by
  obtain ⟨hi, -⟩ := List.getElem?_eq_some_iff.mp h
  rw [setTask, List.getElem?_set_self hi]

/-- A changed task is not found in any other place. -/
theorem task_setTask_ne (h : i ≠ j) : (l.setTask i t).tasks[j]? = l.tasks[j]? :=
  List.getElem?_set_ne h

/-- What becomes of one task prevents nothing but events about it. -/
theorem Step.setTask (h : Step l e l') (he : e.task? ≠ some i) :
    ∃ m, Step (l.setTask i t) e m := by
  have hother {j : Nat} (hj : i ≠ j) {u : ConnectionTask} (hu : l.tasks[j]? = some u) :
      (l.setTask i t).tasks[j]? = some u := (task_setTask_ne hj).trans hu
  cases h with
  | arrival haccepting => exact ⟨_, .arrival haccepting⟩
  | arrivalFailure haccepting => exact ⟨_, .arrivalFailure haccepting⟩
  | handshakeDone hu => exact ⟨_, .handshakeDone (hother (by rintro rfl; exact he rfl) hu)⟩
  | handshakeFailure hu => exact ⟨_, .handshakeFailure (hother (by rintro rfl; exact he rfl) hu)⟩
  | connectionEnd hu => exact ⟨_, .connectionEnd (hother (by rintro rfl; exact he rfl) hu)⟩
  | stopSeen hu hsent => exact ⟨_, .stopSeen (hother (by rintro rfl; exact he rfl) hu) hsent⟩
  | reaping hu hjoining hnew =>
    exact ⟨_, .reaping (hother (by rintro rfl; exact he rfl) hu) hjoining hnew⟩
  | signal haccepting => exact ⟨_, .signal haccepting⟩
  | stopSending hdraining hsent => exact ⟨_, .stopSending hdraining hsent⟩
  | drained hdraining hsent hall =>
    exact ⟨_, .drained hdraining hsent (allReaped_setTask.trans hall)⟩
  | expiry hdraining hsent => exact ⟨_, .expiry hdraining hsent⟩

/-! ## Steps -/

/-- In a step of the loop each task goes its own way. -/
theorem Step.task (h : Step l e l') (ht : l.tasks[i]? = some t) :
    ∃ u, l'.tasks[i]? = some u ∧ ConnectionTask.Step i t e u := by
  have hset {j : Nat} {v w : ConnectionTask} (hv : l.tasks[j]? = some v)
      (hself : ConnectionTask.Step j v e w) (hother : j ≠ i → e ∉ ConnectionTask.moves i) :
      ∃ u, (l.setTask j w).tasks[i]? = some u ∧ ConnectionTask.Step i t e u := by
    by_cases hj : j = i
    · subst hj
      obtain rfl := Option.some.inj (ht.symm.trans hv)
      exact ⟨w, task_setTask_self hv, hself⟩
    · exact ⟨t, (task_setTask_ne hj).trans ht, .still (hother hj)⟩
  have hstill (he : e ∉ ConnectionTask.moves i) : ConnectionTask.Step i t e t := .still he
  unfold ConnectionTask.moves ConnectionTask.ends at hset hstill
  cases h with
  | arrival =>
    have hi := (List.getElem?_eq_some_iff.mp ht).1
    exact ⟨t, (List.getElem?_append_left hi).trans ht, hstill (by simp)⟩
  | handshakeDone hv => exact hset hv .handshakeDone (by simp)
  | handshakeFailure hv => exact hset hv .handshakeFailure (by simp)
  | connectionEnd hv => exact hset hv .connectionEnd (by simp)
  | stopSeen hv => exact hset hv .stopSeen (by simp)
  | expiry => exact ⟨_, by rw [List.getElem?_map, ht]; rfl, .expiry⟩
  | _ => exact ⟨t, ht, hstill (by simp)⟩

/-- An arrival starts a task, and nothing else does. -/
theorem Step.length_tasks (h : Step l e l') :
    l'.tasks.length = l.tasks.length + [e].count .arrival := by
  cases h with
  | arrival => exact List.length_append
  | handshakeDone => exact length_setTask
  | handshakeFailure => exact length_setTask
  | connectionEnd => exact length_setTask
  | stopSeen => exact length_setTask
  | expiry => exact List.length_map _
  | _ => rfl

/-- A task that is there after a step was there before, or has just been started. -/
theorem Step.task_back (h : Step l e l') (hu : l'.tasks[i]? = some u) :
    (∃ t, l.tasks[i]? = some t ∧ ConnectionTask.Step i t e u) ∨
      e = .arrival ∧ l.tasks[i]? = none ∧ u = ⟨.handshake, false⟩ := by
  cases ht : l.tasks[i]? with
  | some t =>
    obtain ⟨v, hv, hstep⟩ := h.task ht
    obtain rfl := Option.some.inj (hu.symm.trans hv)
    exact .inl ⟨t, rfl, hstep⟩
  | none =>
    have hi := List.getElem?_eq_none_iff.mp ht
    by_cases he : e = .arrival
    · subst he
      cases h with
      | arrival =>
        rw [List.getElem?_append_right hi] at hu
        exact .inr ⟨rfl, rfl, List.mem_singleton.mp (List.mem_of_getElem? hu)⟩
    · have hlength := h.length_tasks
      have hi' := (List.getElem?_eq_some_iff.mp hu).1
      rw [List.count_eq_zero.mpr (by simpa using Ne.symm he)] at hlength
      omega

/-- Only the signal and the two ends of draining change what the loop is doing. -/
theorem Step.mode (h : Step l e l') :
    l'.mode = l.mode ∨ (e = .signal ∧ l'.mode = .draining) ∨
      (e = .drained ∨ e = .expiry) ∧ l'.mode = .returned := by
  cases h with
  | signal => exact .inr (.inl ⟨rfl, rfl⟩)
  | drained => exact .inr (.inr ⟨.inl rfl, rfl⟩)
  | expiry => exact .inr (.inr ⟨.inr rfl, rfl⟩)
  | _ => exact .inl rfl

/-- A loop that has stopped accepting does not start again. -/
theorem Step.not_accepting (h : Step l e l') (hl : l.mode ≠ .accepting) :
    l'.mode ≠ .accepting ∧ e ≠ .arrival := by
  constructor
  · rcases h.mode with hmode | ⟨-, hmode⟩ | ⟨-, hmode⟩
    · rwa [hmode]
    · simp [hmode]
    · simp [hmode]
  · rintro rfl
    cases h with
    | arrival haccepting => exact hl haccepting

/-! ## Runs -/

/-- A run without events stays where it is. -/
theorem run?_nil_eq_some_iff : l.run? [] = some l' ↔ l = l' := by
  rw [run?, Option.some.injEq]

/-- A run takes one step and goes on from there. -/
theorem run?_cons_eq_some_iff :
    l.run? (e :: es) = some l' ↔ ∃ m, Step l e m ∧ m.run? es = some l' := by
  rw [run?, Option.bind_eq_some_iff]
  simp only [step?_eq_some_iff]

/-- In a run of the loop each task goes its own way. -/
theorem task_of_run? (h : l.run? es = some l') (ht : l.tasks[i]? = some t) :
    ∃ u, l'.tasks[i]? = some u ∧ ConnectionTask.Run i t es u := by
  induction es generalizing l t with
  | nil =>
    obtain rfl := run?_nil_eq_some_iff.mp h
    exact ⟨t, ht, .nil⟩
  | cons e es ih =>
    obtain ⟨m, hm, hrun⟩ := run?_cons_eq_some_iff.mp h
    obtain ⟨u, hu, hstep⟩ := hm.task ht
    obtain ⟨v, hv, hsteps⟩ := ih hrun hu
    exact ⟨v, hv, .cons hstep hsteps⟩

/-- Every arrival has its task, for good. -/
theorem length_tasks_of_run? (h : l.run? es = some l') :
    l'.tasks.length = l.tasks.length + es.count .arrival := by
  induction es generalizing l with
  | nil =>
    obtain rfl := run?_nil_eq_some_iff.mp h
    rfl
  | cons e es ih =>
    obtain ⟨m, hm, hrun⟩ := run?_cons_eq_some_iff.mp h
    rw [ih hrun, hm.length_tasks, Nat.add_assoc, ← List.count_append]
    rfl

/-- A task that a run starts goes its way from its handshake on. -/
theorem task_new_of_run? (h : l.run? es = some l') (hold : l.tasks[i]? = none)
    (hnew : l'.tasks[i]? = some t) :
    ∃ later, later <:+ es ∧ ConnectionTask.Run i ⟨.handshake, false⟩ later t := by
  induction es generalizing l with
  | nil =>
    obtain rfl := run?_nil_eq_some_iff.mp h
    rw [hold] at hnew
    cases hnew
  | cons e es ih =>
    obtain ⟨m, hm, hrun⟩ := run?_cons_eq_some_iff.mp h
    cases hu : m.tasks[i]? with
    | none =>
      obtain ⟨later, hlater, hruns⟩ := ih hrun hu
      exact ⟨later, hlater.trans (List.suffix_cons e es), hruns⟩
    | some u =>
      obtain ⟨v, hv, hruns⟩ := task_of_run? hrun hu
      obtain rfl := Option.some.inj (hnew.symm.trans hv)
      rcases hm.task_back hu with ⟨w, hw, -⟩ | ⟨-, -, rfl⟩
      · rw [hold] at hw
        cases hw
      · exact ⟨es, List.suffix_cons e es, hruns⟩

/-- After the loop has stopped accepting no task is started. -/
theorem not_accepting_of_run? (h : l.run? es = some l') (hl : l.mode ≠ .accepting) :
    l'.mode ≠ .accepting ∧ .arrival ∉ es := by
  induction es generalizing l with
  | nil =>
    obtain rfl := run?_nil_eq_some_iff.mp h
    exact ⟨hl, List.not_mem_nil⟩
  | cons e es ih =>
    obtain ⟨m, hm, hrun⟩ := run?_cons_eq_some_iff.mp h
    have hstep := hm.not_accepting hl
    have hrest := ih hrun hstep.1
    refine ⟨hrest.1, ?_⟩
    rw [List.mem_cons, not_or]
    exact ⟨hstep.2.symm, hrest.2⟩

/-! ## What holds at all times -/

/-- What is true of a loop in whatever order things have happened. -/
structure Sound (l : AcceptLoop) : Prop where
  /-- The stop value is not sent before the signal. -/
  sent : l.mode = .accepting → l.stopSent = false
  /-- No task has seen a stop value that was not sent. -/
  stopped : ∀ (i : Nat) (t : ConnectionTask), l.tasks[i]? = some t →
    t.stopped = true → l.stopSent = true
  /-- The loop takes note of the end of a task only if it has ended. -/
  reaped : ∀ i ∈ l.reaped, ∃ t : ConnectionTask, l.tasks[i]? = some t ∧ t.phase = .finished
  /-- When the loop returns every task has finished. -/
  returned : l.mode = .returned →
    ∀ (i : Nat) (t : ConnectionTask), l.tasks[i]? = some t → t.phase = .finished

/-- The loop is sound at the start. -/
theorem sound_initial : initial.Sound where
  sent _ := rfl
  stopped := nofun
  reaped := nofun
  returned := nofun

/-- If the loop has noted the end of every task, every task has ended. -/
theorem Sound.finished_of_allReaped (hl : l.Sound) (h : l.allReaped = true)
    (ht : l.tasks[i]? = some t) : t.phase = .finished := by
  have hrange : i ∈ List.range l.tasks.length :=
    List.mem_range.mpr (List.getElem?_eq_some_iff.mp ht).1
  have hreaped := of_decide_eq_true (List.all_eq_true.mp h i hrange)
  obtain ⟨u, hu, hfinished⟩ := hl.reaped i hreaped
  rwa [Option.some.inj (ht.symm.trans hu)]

/-- The value is sent while draining, and stays sent. -/
theorem Step.stopSent (h : Step l e l') :
    l'.stopSent = l.stopSent ∨ e = .stopSending ∧ l.mode = .draining ∧ l'.stopSent = true := by
  cases h with
  | stopSending hdraining => exact .inr ⟨rfl, hdraining, rfl⟩
  | _ => exact .inl rfl

/-- The signal to stop is not taken back. -/
theorem Step.stopSent_mono (h : Step l e l') (hl : l.stopSent = true) : l'.stopSent = true := by
  rcases h.stopSent with hsame | ⟨-, -, hsent⟩
  · rwa [hsame]
  · exact hsent

/-- The end of a task is noted when the task has ended. -/
theorem Step.mem_reaped (h : Step l e l') (hi : i ∈ l'.reaped) :
    i ∈ l.reaped ∨ ∃ t, l.tasks[i]? = some t ∧ t.phase = .finished := by
  cases h with
  | reaping hfinished =>
    rcases List.mem_cons.mp hi with rfl | hi
    · exact .inr ⟨_, hfinished, rfl⟩
    · exact .inl hi
  | _ => exact .inl hi

/-- Every step keeps the loop sound. -/
theorem Sound.step (hl : l.Sound) (h : Step l e l') : l'.Sound where
  sent hmode := by
    rcases h.mode with hsame | ⟨-, hdraining⟩ | ⟨-, hreturned⟩
    · rcases h.stopSent with hsent | ⟨-, hdraining, -⟩
      · rw [hsent]
        exact hl.sent (hsame.symm.trans hmode)
      · rw [hsame, hdraining] at hmode
        cases hmode
    · rw [hdraining] at hmode
      cases hmode
    · rw [hreturned] at hmode
      cases hmode
  stopped i u hu hstopped := by
    rcases h.task_back hu with ⟨t, ht, hstep⟩ | ⟨-, -, rfl⟩
    · rcases hstep.stopped_iff.mp hstopped with hstopped | rfl
      · exact h.stopSent_mono (hl.stopped i t ht hstopped)
      · cases h with
        | stopSeen _ hsent => exact hsent
    · cases hstopped
  reaped i hi := by
    have hfinished : ∃ t, l.tasks[i]? = some t ∧ t.phase = .finished := by
      rcases h.mem_reaped hi with hi | hfinished
      · exact hl.reaped i hi
      · exact hfinished
    obtain ⟨t, ht, hphase⟩ := hfinished
    obtain ⟨u, hu, hstep⟩ := h.task ht
    exact ⟨u, hu, hstep.finished hphase⟩
  returned hmode i u hu := by
    rcases h.task_back hu with ⟨t, ht, hstep⟩ | ⟨rfl, -⟩
    · rcases h.mode with hsame | ⟨-, hdraining⟩ | ⟨rfl | rfl, -⟩
      · exact hstep.finished (hl.returned (hsame.symm.trans hmode) i t ht)
      · rw [hdraining] at hmode
        cases hmode
      · cases h with
        | drained _ _ hall => exact hstep.finished (hl.finished_of_allReaped hall ht)
      · cases hstep with
        | expiry => rfl
        | still he => exact absurd (by simp [ConnectionTask.moves, ConnectionTask.ends]) he
    · cases h with
      | arrival haccepting =>
        rw [haccepting] at hmode
        cases hmode

/-- Every loop within reach is sound. -/
theorem Reachable.sound (h : Reachable l) : l.Sound := by
  induction h with
  | initial => exact sound_initial
  | step _ hstep ih => exact ih.step hstep

/-- What runs on from a reachable loop is reachable. -/
theorem Reachable.run? (h : Reachable l) (hrun : l.run? es = some l') : Reachable l' := by
  induction es generalizing l with
  | nil => rwa [← run?_nil_eq_some_iff.mp hrun]
  | cons e es ih =>
    obtain ⟨m, hm, hrun⟩ := run?_cons_eq_some_iff.mp hrun
    exact ih (h.step hm) hrun

end AcceptLoop

end Sealing.Tls
