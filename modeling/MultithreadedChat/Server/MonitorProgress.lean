import MultithreadedChat.Server.MonitorCounters

/-! # Sleepers of the reader-writer monitor

A sleeping writer always has somebody who will wake it: a thread inside, or a
woken writer that has not run yet. A sleeping reader is only promised a positive
`AW + WW` (`MultithreadedChat.monitor_sleepers_attended`). Since `writer_checkin`
raises `WW` before every wait and no routine lowers it, `WW` stays positive once a
writer has returned from its wait, and a reader that arrives after the last
writer has left sleeps forever (`MultithreadedChat.monitor_reader_stranded`).

As long as no writer returns from its wait, `WW` is the number of waiting writers
and the monitor never gets stuck (`MultithreadedChat.monitor_never_stuck`).
-/

namespace MultithreadedChat

open ConditionVariable

variable {ι : Type*} [DecidableEq ι]

/-- Inside a check-in or a check-out. -/
def MonitorLoc.inCall : MonitorLoc → Bool
  | .outside | .reading | .writing => false
  | _ => true

/-- Nobody is inside, nobody can run inside a check-in or a check-out, and
somebody sleeps. -/
def MonitorState.Stuck (state : MonitorState ℤ ι) : Prop :=
  state.shared.AR = 0 ∧ state.shared.AW = 0 ∧
    (∀ thread loc, state.threads thread = .awake loc → loc.inCall = false) ∧
    ∃ thread cond loc, state.threads thread = .asleep cond loc

/-- The location a sleeper of a condition variable resumes at. -/
def MonitorCond.resume : MonitorCond → MonitorLoc
  | .condRead => .readerResume
  | .condWrite => .writerResume

/-- Sleepers resume where their condition variable says. -/
def SleepersPlaced (state : MonitorState ℤ ι) : Prop :=
  ∀ thread cond loc, state.threads thread = .asleep cond loc → loc = cond.resume

/-- A sleeping reader sees an active or a waiting writer in the counters. -/
def ReadersAttended (state : MonitorState ℤ ι) : Prop :=
  ∀ thread loc, state.threads thread = .asleep .condRead loc →
    0 < state.shared.AW + state.shared.WW

/-- A sleeping writer sees somebody inside, or a writer that was woken and has
not run yet. -/
def WritersAttended (state : MonitorState ℤ ι) : Prop :=
  ∀ thread loc, state.threads thread = .asleep .condWrite loc →
    0 < state.shared.AR + state.shared.AW ∨
      ∃ woken, state.threads woken = .awake .writerResume

/-- Another thread's step leaves a woken writer woken. -/
private theorem writer_stays_woken {threads : ι → Thread MonitorCond MonitorLoc} {thread : ι}
    (other : threads thread ≠ .awake .writerResume) (status : Thread MonitorCond MonitorLoc)
    (attended : ∃ woken, threads woken = .awake .writerResume) :
    ∃ woken, Function.update threads thread status woken = .awake .writerResume := by
  obtain ⟨woken, ready⟩ := attended
  have different : woken ≠ thread := fun same => other (same ▸ ready)
  exact ⟨woken, by rwa [Function.update_of_ne different]⟩

private theorem wait_section {loc resume : MonitorLoc} {monitor after : Monitor ℤ}
    {cond : MonitorCond}
    (ran : monitorProgram.critical loc monitor = some (.wait after cond resume)) :
    resume = cond.resume := by
  cases monitorSection_of_critical ran <;> rfl

theorem SleepersPlaced.step {before after : MonitorState ℤ ι} {label : ι × Action}
    (moved : Step monitorProgram before label after) (placed : SleepersPlaced before) :
    SleepersPlaced after := by
  intro sleeper cond loc sleeping
  cases moved with
  | move | spurious => exact placed sleeper cond loc (asleep_of_update_awake sleeping)
  | leave _ _ _ woken =>
      exact placed sleeper cond loc (asleep_of_update_awake (woken.asleep_before sleeping))
  | @wait thread _ _ _ _ _ ran =>
      by_cases same : sleeper = thread
      · subst same
        simp only [Function.update_self, Thread.asleep.injEq] at sleeping
        obtain ⟨rfl, rfl⟩ := sleeping
        exact wait_section ran
      · simp only [Function.update_of_ne same] at sleeping
        exact placed sleeper cond loc sleeping

variable [Fintype ι]

omit [DecidableEq ι] in
/-- A sleeping reader is counted by `WR`. -/
theorem MonitorCounts.sleeping_reader {state : MonitorState ℤ ι}
    (counts : MonitorCounts state.shared state.locs) (placed : SleepersPlaced state)
    {sleeper : ι} {loc : MonitorLoc} (sleeping : state.threads sleeper = .asleep .condRead loc) :
    0 < state.shared.WR := by
  have itself := ite_le_count state.locs MonitorLoc.inReaderWait sleeper
  rw [State.locs, sleeping, placed sleeper _ loc sleeping] at itself
  simp only [Thread.loc_asleep, MonitorCond.resume, MonitorLoc.inReaderWait, ↓reduceIte] at itself
  have := counts.waitingReaders
  omega

omit [DecidableEq ι] in
/-- A sleeping writer is counted by `WW`. -/
theorem MonitorCounts.sleeping_writer {state : MonitorState ℤ ι}
    (counts : MonitorCounts state.shared state.locs) (placed : SleepersPlaced state)
    {sleeper : ι} {loc : MonitorLoc} (sleeping : state.threads sleeper = .asleep .condWrite loc) :
    0 < state.shared.WW := by
  have itself := ite_le_count state.locs MonitorLoc.inWriterWait sleeper
  rw [State.locs, sleeping, placed sleeper _ loc sleeping] at itself
  simp only [Thread.loc_asleep, MonitorCond.resume, MonitorLoc.inWriterWait, ↓reduceIte] at itself
  have := counts.waitingWriters
  omega

omit [DecidableEq ι] in
/-- A thread inside is counted by `AR` or by `AW`. -/
theorem MonitorCounts.inside {state : MonitorState ℤ ι}
    (counts : MonitorCounts state.shared state.locs) {thread : ι} {loc : MonitorLoc}
    (running : state.threads thread = .awake loc) :
    (if loc.inReader then 1 else 0) ≤ state.shared.AR ∧
      (if loc.inWriter then 1 else 0) ≤ state.shared.AW := by
  have reader := ite_le_count state.locs MonitorLoc.inReader thread
  have writer := ite_le_count state.locs MonitorLoc.inWriter thread
  have here : state.locs thread = loc := by rw [State.locs, running, Thread.loc_awake]
  rw [here] at reader writer
  exact ⟨counts.readers ▸ reader, counts.writers ▸ writer⟩

omit [DecidableEq ι] in
/-- No counter is ever negative. -/
theorem MonitorCounts.nonneg {state : MonitorState ℤ ι}
    (counts : MonitorCounts state.shared state.locs) :
    0 ≤ state.shared.AR ∧ 0 ≤ state.shared.WR ∧ 0 ≤ state.shared.AW ∧ 0 ≤ state.shared.WW :=
  ⟨counts.readers ▸ count_nonneg .., counts.waitingReaders ▸ count_nonneg ..,
    counts.writers ▸ count_nonneg .., (count_nonneg ..).trans counts.waitingWriters⟩

theorem ReadersAttended.step {before after : MonitorState ℤ ι} {label : ι × Action}
    (moved : Step monitorProgram before label after)
    (counts : MonitorCounts before.shared before.locs) (placed : SleepersPlaced before)
    (attended : ReadersAttended before) : ReadersAttended after := by
  intro sleeper loc sleeping
  obtain ⟨activeReaders, waitingReaders, activeWriters, waitingWriters⟩ := counts.nonneg
  cases moved with
  | move | spurious => exact attended sleeper loc (asleep_of_update_awake sleeping)
  | @wait thread from_loc shared cond resume running ran =>
      cases monitorSection_of_critical ran with
      | readerWaits | readerWaitsAgain | writerWaits | writerWaitsAgain =>
          simp only
          omega
  | @leave thread from_loc shared next wake threads running ran woken =>
      have asleep := asleep_of_update_awake (woken.asleep_before sleeping)
      have busy := attended sleeper loc asleep
      have waiting := counts.sleeping_reader placed asleep
      have inside := (counts.inside running).2
      cases monitorSection_of_critical ran with
      | readerEnters free | readerResumes free => exact (free busy).elim
      | readerLeaves => exact busy
      | writerEnters | writerResumes =>
          simp only
          omega
      | writerLeaves =>
          simp only [MonitorLoc.inWriter, ↓reduceIte] at inside
          by_cases queued : before.shared.WW > 0
          · simp only
            omega
          · -- the last writer found nobody in `WW`, so it broadcast to the readers
            simp only [queued, waiting, ↓reduceIte] at woken
            exact (woken.broadcast_wakes sleeper loc sleeping).elim

theorem WritersAttended.step {before after : MonitorState ℤ ι} {label : ι × Action}
    (moved : Step monitorProgram before label after)
    (counts : MonitorCounts before.shared before.locs) (placed : SleepersPlaced before)
    (attended : WritersAttended before) : WritersAttended after := by
  intro sleeper loc sleeping
  obtain ⟨activeReaders, waitingReaders, activeWriters, waitingWriters⟩ := counts.nonneg
  cases moved with
  | @move thread from_loc next running call =>
      refine (attended sleeper loc (asleep_of_update_awake sleeping)).imp_right
        (writer_stays_woken ?_ _)
      intro ready
      rw [running] at ready
      cases ready
      cases call
  | @spurious thread cond from_loc asleep =>
      refine (attended sleeper loc (asleep_of_update_awake sleeping)).imp_right
        (writer_stays_woken ?_ _)
      intro ready
      rw [asleep] at ready
      cases ready
  | @wait thread from_loc shared cond resume running ran =>
      cases monitorSection_of_critical ran with
      | writerWaits | writerWaitsAgain =>
          left
          simp only
          omega
      | readerWaits | readerWaitsAgain =>
          have different : sleeper ≠ thread := by
            rintro rfl
            simp at sleeping
          simp only [Function.update_of_ne different] at sleeping
          refine (attended sleeper loc sleeping).imp_right (writer_stays_woken ?_ _)
          intro ready
          rw [running] at ready
          cases ready
  | @leave thread from_loc shared next wake threads running ran woken =>
      have asleep := asleep_of_update_awake (woken.asleep_before sleeping)
      have waiting := counts.sleeping_writer placed asleep
      have inside := counts.inside running
      have roused : wake = some (.signal .condWrite) →
          ∃ other, threads other = .awake .writerResume := by
        rintro rfl
        obtain ⟨other, resume, before_asleep, ready⟩ :=
          woken.signal_wakes (woken.asleep_before sleeping)
        have place := placed other _ resume (asleep_of_update_awake before_asleep)
        subst place
        exact ⟨other, ready⟩
      cases monitorSection_of_critical ran with
      | readerLeaves =>
          simp only [MonitorLoc.inReader, ↓reduceIte] at inside
          by_cases last : before.shared.AR - 1 = 0
          · exact .inr (roused (by simp [last, waiting]))
          · left
            simp only
            omega
      | writerLeaves => exact .inr (roused (by simp [waiting]))
      | readerEnters | readerResumes | writerEnters | writerResumes =>
          left
          simp only
          omega

/-- **Sleepers are attended.** In every reachable state a sleeping writer has a
thread inside or a woken writer to let it in, and a sleeping reader has a positive
`AW + WW`. -/
theorem monitor_sleepers_attended {state : MonitorState ℤ ι}
    (reachable : (monitorSystem ℤ ι).Reachable state) :
    SleepersPlaced state ∧ ReadersAttended state ∧ WritersAttended state := by
  have all : MonitorCounts state.shared state.locs ∧ SleepersPlaced state ∧
      ReadersAttended state ∧ WritersAttended state := by
    refine reachable.invariant (I := fun state => MonitorCounts state.shared state.locs ∧
      SleepersPlaced state ∧ ReadersAttended state ∧ WritersAttended state) ?_ ?_
    · rintro state rfl
      refine ⟨monitorCounts_of_reachable (.start rfl), ?_, ?_, ?_⟩
      · intro thread cond loc sleeping
        cases sleeping
      · intro thread loc sleeping
        cases sleeping
      · intro thread loc sleeping
        cases sleeping
    · rintro before label after ⟨counts, placed, readers, writers⟩ moved
      exact ⟨moved.locs_invariant (fun _ _ _ _ call => MonitorCounts.move call)
          (fun _ _ _ _ ran => MonitorCounts.critical ran) counts,
        placed.step moved, readers.step moved counts placed, writers.step moved counts placed⟩
  exact all.2

/-- A step in which no writer returns from its wait in `writer_checkin`. -/
def NoWriterResumes {Count : Type} (state : MonitorState Count ι) (label : ι × Action) : Prop :=
  label.2 = .critical → state.threads label.1 ≠ .awake .writerResume

/-- As long as no writer returns from its wait, `WW` counts the waiting writers. -/
theorem waitingWriters_exact {trace : List (MonitorState ℤ ι × (ι × Action))}
    {state : MonitorState ℤ ι} (execution : (monitorSystem ℤ ι).Execution trace state)
    (unresumed : ∀ visit ∈ trace, NoWriterResumes visit.1 visit.2) :
    state.shared.WW = count state.locs MonitorLoc.inWriterWait := by
  refine execution.guarded_invariant (G := NoWriterResumes)
    (I := fun state => state.shared.WW = count state.locs MonitorLoc.inWriterWait) ?_ ?_ unresumed
  · rintro state rfl
    symm
    apply Finset.sum_eq_zero
    intro thread _
    rfl
  · rintro before ⟨thread, action⟩ after counted unresumed moved
    obtain ⟨next, -, -, call, shared, locs⟩ | ⟨outcome, rfl, running, ran, shared, locs⟩ |
      ⟨-, shared, locs⟩ := moved.locs_cases
    · have kinds := (monitorCall_kinds call).2.2.2
      rw [shared, locs, count_update, kinds]
      omega
    · have elsewhere : before.locs thread ≠ .writerResume := by
        intro here
        exact unresumed rfl (here ▸ running)
      rw [shared, locs, count_update]
      generalize before.locs thread = loc at ran elsewhere
      cases monitorSection_of_critical ran with
      | writerWaitsAgain | writerResumes => exact (elsewhere rfl).elim
      | _ =>
          simp only [Outcome.shared, Outcome.next, MonitorLoc.inWriterWait, ↓reduceIte,
            Bool.false_eq_true]
          omega
    · rw [shared, locs]
      exact counted

/-- While no writer returns from its wait, no state is stuck. -/
theorem not_stuck_of_unresumed {trace : List (MonitorState ℤ ι × (ι × Action))}
    {state : MonitorState ℤ ι} (execution : (monitorSystem ℤ ι).Execution trace state)
    (unresumed : ∀ visit ∈ trace, NoWriterResumes visit.1 visit.2) : ¬ state.Stuck := by
  have reachable : (monitorSystem ℤ ι).Reachable state := ⟨trace, execution⟩
  have counts := monitorCounts_of_reachable reachable
  have waiting := waitingWriters_exact execution unresumed
  obtain ⟨placed, readers, writers⟩ := monitor_sleepers_attended reachable
  rintro ⟨noReaders, noWriters, idle, sleeper, cond, loc, sleeping⟩
  have noneWoken : ∀ thread, state.threads thread ≠ .awake .writerResume := by
    intro thread woken
    cases idle thread _ woken
  have noneAsleep : ∀ thread loc, state.threads thread ≠ .asleep .condWrite loc := by
    intro thread loc asleep
    rcases writers thread loc asleep with busy | ⟨woken, ready⟩
    · omega
    · exact noneWoken woken ready
  cases cond with
  | condWrite => exact noneAsleep sleeper loc sleeping
  | condRead =>
      have busy := readers sleeper loc sleeping
      obtain ⟨writer, waits⟩ := exists_of_count_pos
        (show 0 < count state.locs MonitorLoc.inWriterWait by omega)
      -- a waiting writer is asleep or just woken, and neither is left
      rw [State.locs] at waits
      cases status : state.threads writer with
      | awake loc =>
          rw [status] at waits
          cases loc <;> simp only [Thread.loc, MonitorLoc.inWriterWait, reduceCtorEq] at waits
          exact noneWoken writer status
      | asleep cond loc =>
          have place := placed writer cond loc status
          cases cond with
          | condWrite => exact noneAsleep writer loc status
          | condRead =>
              rw [status, place] at waits
              cases waits

/-- **The monitor never gets stuck while no writer returns from its wait.** In
such a run no reachable state is stuck, and a reader that arrives when no writer
is inside or waiting gets in without sleeping. -/
theorem monitor_never_stuck {trace : List (MonitorState ℤ ι × (ι × Action))}
    {state : MonitorState ℤ ι} (execution : (monitorSystem ℤ ι).Execution trace state)
    (unresumed : ∀ visit ∈ trace, NoWriterResumes visit.1 visit.2) :
    ¬ state.Stuck ∧
      ((∀ thread, (state.locs thread).inWriter = false ∧
          (state.locs thread).inWriterWait = false) →
        state.shared.readerCheckin =
          .leave { state.shared with AR := state.shared.AR + 1 } .reading none) := by
  have counts := monitorCounts_of_reachable ⟨trace, execution⟩
  have waiting := waitingWriters_exact execution unresumed
  refine ⟨not_stuck_of_unresumed execution unresumed, ?_⟩
  intro gone
  have noneInside : count state.locs MonitorLoc.inWriter = 0 := by
    apply Finset.sum_eq_zero
    intro thread _
    simp [(gone thread).1]
  have noneWaiting : count state.locs MonitorLoc.inWriterWait = 0 := by
    apply Finset.sum_eq_zero
    intro thread _
    simp [(gone thread).2]
  have quiet : ¬ state.shared.AW + state.shared.WW > 0 := by
    rw [counts.writers, waiting, noneInside, noneWaiting]
    decide
  rw [Monitor.readerCheckin, ite_eq_right_iff.mpr fun busy => (quiet busy).elim]

/-- With the counters of the program the monitor never gets stuck either, as long as the
waits of writers fit. -/
theorem monitor_never_stuck_toInt (few : Fintype.card ι < 2 ^ 31)
    {trace : List (MonitorState Int32 ι × (ι × Action))} {state : MonitorState Int32 ι}
    (execution : (monitorSystem Int32 ι).Execution trace state)
    (waited : writerWaits trace < 2 ^ 31 - 1)
    (unresumed : ∀ visit ∈ trace, NoWriterResumes visit.1 visit.2) : ¬ state.toInt.Stuck := by
  refine not_stuck_of_unresumed (monitor_toInt few execution waited).1 ?_
  intro visit member
  obtain ⟨earlier, old, rfl⟩ := List.mem_map.mp member
  exact unresumed earlier old

/-- A reader is inside, and a writer that arrived meanwhile sleeps; then the
reader leaves and wakes it. No writer has returned from its wait yet. -/
theorem monitor_never_stuck_contended :
    ∃ state : MonitorState ℤ (Fin 2), (∃ loc, state.threads 1 = .awake loc ∧ loc = .writerResume) ∧
      ¬ state.Stuck := by
  have start : (monitorSystem ℤ (Fin 2)).Execution [] MonitorState.start := .start rfl
  have readerInside := (start.step (.move 0 rfl .readerCheckin)).step
    (.leave 0 rfl rfl (.none _))
  have writerAsleep := (readerInside.step (.move 1 rfl .writerCheckin)).step (.wait 1 rfl rfl)
  have writerWoken := (writerAsleep.step (.move 0 rfl .readerCheckout)).step
    (.leave 0 rfl rfl (.one 1 rfl))
  refine ⟨_, ⟨_, rfl, rfl⟩, (monitor_never_stuck writerWoken ?_).1⟩
  simp only [List.nil_append, List.cons_append, List.mem_cons, List.not_mem_nil, or_false]
  rintro visit (rfl | rfl | rfl | rfl | rfl | rfl) critical resumes <;> cases resumes

/-- **A reader is stranded.** After one writer had to wait for a reader and has
come and gone, `WW` stays at one, and the next reader sleeps with nobody inside,
nobody waiting for the monitor and no wake-up pending. -/
theorem monitor_reader_stranded :
    ∃ state : MonitorState ℤ (Fin 2), (monitorSystem ℤ (Fin 2)).Reachable state ∧ state.Stuck := by
  have start : (monitorSystem ℤ (Fin 2)).Reachable MonitorState.start := .start rfl
  have readerInside := (start.step (.move 0 rfl .readerCheckin)).step
    (.leave 0 rfl rfl (.none _))
  have writerAsleep := (readerInside.step (.move 1 rfl .writerCheckin)).step (.wait 1 rfl rfl)
  have writerWoken := (writerAsleep.step (.move 0 rfl .readerCheckout)).step
    (.leave 0 rfl rfl (.one 1 rfl))
  have writerInside := writerWoken.step (.leave 1 rfl rfl (.none _))
  have writerGone := (writerInside.step (.move 1 rfl .writerCheckout)).step
    (.leave 1 rfl rfl (.lost (Fin.forall_fin_two.mpr ⟨nofun, nofun⟩)))
  have readerAsleep := (writerGone.step (.move 0 rfl .readerCheckin)).step (.wait 0 rfl rfl)
  refine ⟨_, readerAsleep, rfl, rfl, Fin.forall_fin_two.mpr ⟨nofun, ?_⟩, 0, _, _, rfl⟩
  intro loc running
  cases running
  rfl

end MultithreadedChat
