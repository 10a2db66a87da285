import MultithreadedChat.Foundation.ConditionVariable

/-! # The reader-writer monitor

The four check-in and check-out routines that guard the client list, as sections
under the monitor's mutex. A thread repeats reader pairs and writer pairs in any
order (`MultithreadedChat.monitorProgram`).

The routines are given for any type of counters. With integers the counters are in step
with the threads in every run (`MultithreadedChat.monitorCounts_of_reachable`), so readers
and writers exclude each other. The program counts in `int`s, which
`MultithreadedChat.Server.MonitorCounters` is about.
-/

namespace MultithreadedChat

open ConditionVariable

/-- `Monitor_t`: active and waiting readers, active and waiting writers. The program counts
in `Int32`. -/
structure Monitor (Count : Type) where
  AR : Count
  WR : Count
  AW : Count
  WW : Count
  deriving DecidableEq, Repr

variable {Count : Type} [Add Count] [Sub Count] [OfNat Count 0] [OfNat Count 1] [LT Count]
  [DecidableLT Count] [DecidableEq Count]

omit [Add Count] [Sub Count] [OfNat Count 1] [LT Count] [DecidableLT Count] [DecidableEq Count] in
/-- `monitor_init`. -/
def monitorInit : Monitor Count := ⟨0, 0, 0, 0⟩

/-- The two condition variables of the monitor. -/
inductive MonitorCond
  | condRead
  | condWrite
  deriving DecidableEq, Repr

/-- Where a thread stands with respect to the monitor. The `Resume` locations are
the returns from `pthread_cond_wait`. -/
inductive MonitorLoc
  | outside
  | readerCheckin
  | readerResume
  | reading
  | readerCheckout
  | writerCheckin
  | writerResume
  | writing
  | writerCheckout
  deriving DecidableEq, Repr

namespace Monitor

variable (monitor : Monitor Count)

/-- One round of the `while` loop of `reader_checkin`, and the check-in after it. -/
def readerCheckin : Outcome (Monitor Count) MonitorCond MonitorLoc :=
  if monitor.AW + monitor.WW > 0 then
    .wait { monitor with WR := monitor.WR + 1 } .condRead .readerResume
  else .leave { monitor with AR := monitor.AR + 1 } .reading none

/-- `reader_checkin` from the return of its `pthread_cond_wait`. -/
def readerResume : Outcome (Monitor Count) MonitorCond MonitorLoc :=
  readerCheckin { monitor with WR := monitor.WR - 1 }

/-- `reader_checkout`. -/
def readerCheckout : Outcome (Monitor Count) MonitorCond MonitorLoc :=
  let left := { monitor with AR := monitor.AR - 1 }
  .leave left .outside (if left.AR = 0 ∧ left.WW > 0 then some (.signal .condWrite) else none)

/-- One round of the `while` loop of `writer_checkin`, and the check-in after it. -/
def writerCheckin : Outcome (Monitor Count) MonitorCond MonitorLoc :=
  if monitor.AW + monitor.AR > 0 then
    .wait { monitor with WW := monitor.WW + 1 } .condWrite .writerResume
  else .leave { monitor with AW := monitor.AW + 1 } .writing none

/-- `writer_checkin` from the return of its `pthread_cond_wait`. -/
def writerResume : Outcome (Monitor Count) MonitorCond MonitorLoc := monitor.writerCheckin

/-- `writer_checkout`. -/
def writerCheckout : Outcome (Monitor Count) MonitorCond MonitorLoc :=
  let left := { monitor with AW := monitor.AW - 1 }
  .leave left .outside (if left.WW > 0 then some (.signal .condWrite)
    else if left.WR > 0 then some (.broadcast .condRead) else none)

end Monitor

/-- Entering a call of one of the four routines. -/
inductive MonitorCall : MonitorLoc → MonitorLoc → Prop
  | readerCheckin : MonitorCall .outside .readerCheckin
  | readerCheckout : MonitorCall .reading .readerCheckout
  | writerCheckin : MonitorCall .outside .writerCheckin
  | writerCheckout : MonitorCall .writing .writerCheckout

/-- A thread that repeats reader pairs and writer pairs. -/
def monitorProgram : Program (Monitor Count) MonitorCond MonitorLoc where
  move := MonitorCall
  critical
    | .readerCheckin, monitor => some monitor.readerCheckin
    | .readerResume, monitor => some monitor.readerResume
    | .readerCheckout, monitor => some monitor.readerCheckout
    | .writerCheckin, monitor => some monitor.writerCheckin
    | .writerResume, monitor => some monitor.writerResume
    | .writerCheckout, monitor => some monitor.writerCheckout
    | .outside, _ | .reading, _ | .writing, _ => none

variable {ι : Type*}

/-- The monitor and the threads that use it. -/
abbrev MonitorState (Count : Type) (ι : Type*) := State ι (Monitor Count) MonitorCond MonitorLoc

/-- Nobody has used the monitor yet. -/
def MonitorState.start : MonitorState Count ι := ⟨monitorInit, fun _ => .awake .outside⟩

variable [DecidableEq ι]

variable (Count ι) in
/-- All runs of the monitor with the threads `ι`. -/
def monitorSystem : TransitionSystem (MonitorState Count ι) (ι × Action) :=
  monitorProgram.system fun state => state = MonitorState.start

/-- What a section does, and on which counters it does it. A check-in that resumes has
taken its reader off `WR` first, but no writer off `WW`. -/
inductive MonitorSection (monitor : Monitor Count) :
    MonitorLoc → Outcome (Monitor Count) MonitorCond MonitorLoc → Prop
  | readerWaits (busy : 0 < monitor.AW + monitor.WW) :
      MonitorSection monitor .readerCheckin
        (.wait { monitor with WR := monitor.WR + 1 } .condRead .readerResume)
  | readerEnters (free : ¬ 0 < monitor.AW + monitor.WW) :
      MonitorSection monitor .readerCheckin
        (.leave { monitor with AR := monitor.AR + 1 } .reading none)
  | readerWaitsAgain (busy : 0 < monitor.AW + monitor.WW) :
      MonitorSection monitor .readerResume
        (.wait { monitor with WR := monitor.WR - 1 + 1 } .condRead .readerResume)
  | readerResumes (free : ¬ 0 < monitor.AW + monitor.WW) :
      MonitorSection monitor .readerResume
        (.leave { monitor with AR := monitor.AR + 1, WR := monitor.WR - 1 } .reading none)
  | readerLeaves :
      MonitorSection monitor .readerCheckout
        (.leave { monitor with AR := monitor.AR - 1 } .outside
          (if monitor.AR - 1 = 0 ∧ monitor.WW > 0 then some (.signal .condWrite) else none))
  | writerWaits (busy : 0 < monitor.AW + monitor.AR) :
      MonitorSection monitor .writerCheckin
        (.wait { monitor with WW := monitor.WW + 1 } .condWrite .writerResume)
  | writerEnters (free : ¬ 0 < monitor.AW + monitor.AR) :
      MonitorSection monitor .writerCheckin
        (.leave { monitor with AW := monitor.AW + 1 } .writing none)
  | writerWaitsAgain (busy : 0 < monitor.AW + monitor.AR) :
      MonitorSection monitor .writerResume
        (.wait { monitor with WW := monitor.WW + 1 } .condWrite .writerResume)
  | writerResumes (free : ¬ 0 < monitor.AW + monitor.AR) :
      MonitorSection monitor .writerResume
        (.leave { monitor with AW := monitor.AW + 1 } .writing none)
  | writerLeaves :
      MonitorSection monitor .writerCheckout
        (.leave { monitor with AW := monitor.AW - 1 } .outside
          (if monitor.WW > 0 then some (.signal .condWrite)
            else if monitor.WR > 0 then some (.broadcast .condRead) else none))

theorem monitorSection_of_critical {loc : MonitorLoc} {monitor : Monitor Count}
    {outcome : Outcome (Monitor Count) MonitorCond MonitorLoc}
    (ran : monitorProgram.critical loc monitor = some outcome) :
    MonitorSection monitor loc outcome := by
  cases loc with
  | outside | reading | writing => cases ran
  | readerCheckin =>
      obtain rfl := Option.some.inj ran
      unfold Monitor.readerCheckin
      split
      · exact .readerWaits ‹_›
      · exact .readerEnters ‹_›
  | readerResume =>
      obtain rfl := Option.some.inj ran
      unfold Monitor.readerResume Monitor.readerCheckin
      split
      · exact .readerWaitsAgain ‹_›
      · exact .readerResumes ‹_›
  | readerCheckout =>
      obtain rfl := Option.some.inj ran
      exact .readerLeaves
  | writerCheckin =>
      obtain rfl := Option.some.inj ran
      unfold Monitor.writerCheckin
      split
      · exact .writerWaits ‹_›
      · exact .writerEnters ‹_›
  | writerResume =>
      obtain rfl := Option.some.inj ran
      unfold Monitor.writerResume Monitor.writerCheckin
      split
      · exact .writerWaitsAgain ‹_›
      · exact .writerResumes ‹_›
  | writerCheckout =>
      obtain rfl := Option.some.inj ran
      exact .writerLeaves

/-- Inside as a reader, until `reader_checkout` has run. -/
def MonitorLoc.inReader : MonitorLoc → Bool
  | .reading | .readerCheckout => true
  | _ => false

/-- Inside as a writer, until `writer_checkout` has run. -/
def MonitorLoc.inWriter : MonitorLoc → Bool
  | .writing | .writerCheckout => true
  | _ => false

/-- In the wait of `reader_checkin`, asleep or just woken. -/
def MonitorLoc.inReaderWait : MonitorLoc → Bool
  | .readerResume => true
  | _ => false

/-- In the wait of `writer_checkin`, asleep or just woken. -/
def MonitorLoc.inWriterWait : MonitorLoc → Bool
  | .writerResume => true
  | _ => false

variable [Fintype ι]

/-- What the counters say about the threads. `WW` only bounds the waiting writers
from above, since no path lowers it. -/
structure MonitorCounts (monitor : Monitor ℤ) (locs : ι → MonitorLoc) : Prop where
  readers : monitor.AR = count locs MonitorLoc.inReader
  writers : monitor.AW = count locs MonitorLoc.inWriter
  waitingReaders : monitor.WR = count locs MonitorLoc.inReaderWait
  waitingWriters : count locs MonitorLoc.inWriterWait ≤ monitor.WW
  single : monitor.AW ≤ 1
  apart : 0 < monitor.AR → monitor.AW = 0

/-- Calling a routine moves a thread between locations no counter tells apart. -/
theorem monitorCall_kinds {loc next : MonitorLoc} (call : MonitorCall loc next) :
    next.inReader = loc.inReader ∧ next.inWriter = loc.inWriter ∧
      next.inReaderWait = loc.inReaderWait ∧ next.inWriterWait = loc.inWriterWait := by
  cases call <;> exact ⟨rfl, rfl, rfl, rfl⟩

theorem MonitorCounts.move {monitor : Monitor ℤ} {locs : ι → MonitorLoc} {thread : ι}
    {next : MonitorLoc} (call : MonitorCall (locs thread) next)
    (counts : MonitorCounts monitor locs) :
    MonitorCounts monitor (Function.update locs thread next) := by
  obtain ⟨readers, writers, readerWait, writerWait⟩ := monitorCall_kinds call
  obtain ⟨atReaders, atWriters, atReaderWait, atWriterWait, single, apart⟩ := counts
  constructor
  · rw [count_update, readers]
    omega
  · rw [count_update, writers]
    omega
  · rw [count_update, readerWait]
    omega
  · rw [count_update, writerWait]
    omega
  · exact single
  · exact apart

/-- Every section keeps the counters in step with the threads. -/
theorem MonitorCounts.critical {monitor : Monitor ℤ} {locs : ι → MonitorLoc} {thread : ι}
    {outcome : Outcome (Monitor ℤ) MonitorCond MonitorLoc}
    (ran : monitorProgram.critical (locs thread) monitor = some outcome)
    (counts : MonitorCounts monitor locs) :
    MonitorCounts outcome.shared (Function.update locs thread outcome.next) := by
  obtain ⟨readers, writers, readerWait, writerWait, single, apart⟩ := counts
  have noReaders := count_nonneg locs MonitorLoc.inReader
  have noWriters := count_nonneg locs MonitorLoc.inWriter
  have noWaiting := count_nonneg locs MonitorLoc.inWriterWait
  have itself := ite_le_count locs MonitorLoc.inWriter thread
  generalize here : locs thread = loc at ran itself
  cases monitorSection_of_critical ran
  all_goals
    simp only [MonitorLoc.inWriter, ↓reduceIte, Bool.false_eq_true] at itself
    constructor <;>
      simp only [Outcome.shared, Outcome.next, count_update, here, MonitorLoc.inReader,
        MonitorLoc.inWriter, MonitorLoc.inReaderWait, MonitorLoc.inWriterWait, ↓reduceIte,
        Bool.false_eq_true] <;> omega

/-- Integer counters are in step with the threads in every reachable state. -/
theorem monitorCounts_of_reachable {state : MonitorState ℤ ι}
    (reachable : (monitorSystem ℤ ι).Reachable state) : MonitorCounts state.shared state.locs := by
  refine reachable.invariant (I := fun state => MonitorCounts state.shared state.locs)
    ?_ ?_
  · rintro state rfl
    have none_inside : ∀ kind : MonitorLoc → Bool, kind .outside = false →
        count (MonitorState.start : MonitorState ℤ ι).locs kind = 0 := by
      intro kind absent
      apply Finset.sum_eq_zero
      intro thread _
      simp [State.locs, MonitorState.start, absent]
    constructor
    · exact (none_inside MonitorLoc.inReader rfl).symm
    · exact (none_inside MonitorLoc.inReader rfl).symm
    · exact (none_inside MonitorLoc.inReader rfl).symm
    · exact (none_inside MonitorLoc.inReader rfl).le
    · exact zero_le_one
    · intro _
      rfl
  · intro before label after counts moved
    exact moved.locs_invariant (fun _ _ _ _ call => MonitorCounts.move call)
      (fun _ _ _ _ ran => MonitorCounts.critical ran) counts

/-- Readers and writers exclude each other: `AR` and `AW` are the numbers of readers and
writers inside, there is at most one writer and none beside a reader, and no counter is
negative. -/
def Monitor.Excludes (monitor : Monitor ℤ) (locs : ι → MonitorLoc) : Prop :=
  monitor.AR = count locs MonitorLoc.inReader ∧ monitor.AW = count locs MonitorLoc.inWriter ∧
    monitor.AW ≤ 1 ∧ (0 < monitor.AR → monitor.AW = 0) ∧
    0 ≤ monitor.AR ∧ 0 ≤ monitor.WR ∧ 0 ≤ monitor.AW ∧ 0 ≤ monitor.WW

omit [DecidableEq ι] in
theorem MonitorCounts.excludes {monitor : Monitor ℤ} {locs : ι → MonitorLoc}
    (counts : MonitorCounts monitor locs) : monitor.Excludes locs :=
  ⟨counts.readers, counts.writers, counts.single, counts.apart,
    counts.readers ▸ count_nonneg .., counts.waitingReaders ▸ count_nonneg ..,
    counts.writers ▸ count_nonneg .., (count_nonneg ..).trans counts.waitingWriters⟩

end MultithreadedChat
