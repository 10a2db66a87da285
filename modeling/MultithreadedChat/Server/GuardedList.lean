import MultithreadedChat.Server.MonitorCounters
import MultithreadedChat.Server.WholeSections

/-! # The client list behind its monitor

Threads that check in, access the list field by field, and check out, while the activity
fields of any node may be written at any time. The monitor lets the sections run as if each
were one step (`MultithreadedChat.list_sections_serialize`), which is how the workers and the
connection manager run them elsewhere (`MultithreadedChat.concurrent_list_sections`).
-/

namespace MultithreadedChat

open LinkedList CriticalSections

/-! ## The monitor at work -/

/-- Where a task checks in, where its accesses are, and where it checks out. -/
def ListTask.checkin (task : ListTask) : MonitorLoc :=
  if task.writes then .writerCheckin else .readerCheckin

def ListTask.within (task : ListTask) : MonitorLoc :=
  if task.writes then .writing else .reading

def ListTask.checkout (task : ListTask) : MonitorLoc :=
  if task.writes then .writerCheckout else .readerCheckout

/-- Between a check-in and a check-out. -/
def MonitorLoc.within : MonitorLoc → Bool
  | .reading | .writing => true
  | _ => false

/-- The monitor, the list, and what every thread has to do, or still has to do, between its
check-in and its check-out. -/
structure GuardedList (Count : Type) (ι : Type*) where
  monitor : MonitorState Count ι
  list : ClientList
  jobs : ι → Option (ListTask × ListCode ListResult)

/-- What happens: a thread calls a check-in for a section, a section of the monitor or a
wake-up takes place, a thread inside makes an access, it calls the check-out with the result
of its section, or activity fields are written. -/
inductive GuardedLabel (ι : Type*)
  | checkin (thread : ι) (task : ListTask)
  | monitor (thread : ι) (action : ConditionVariable.Action)
  | access (thread : ι)
  | checkout (thread : ι) (task : ListTask) (result : ListResult)
  | stamp

/-- The section that a thread has come to the end of, unless it was the scan. -/
def GuardedLabel.finished {ι : Type*} : GuardedLabel ι → Option (ι × ListTask × ListResult)
  | .checkout thread task result => if task.blind then some (thread, task, result) else none
  | _ => none

variable {Count : Type} {ι : Type*}

/-- What a thread is at between its check-in and its check-out. -/
def GuardedList.inside (state : GuardedList Count ι) (thread : ι) :
    Option (ListTask × ListCode ListResult) :=
  if (state.monitor.locs thread).within then state.jobs thread else none

variable [DecidableEq ι]

section Steps

variable [Add Count] [Sub Count] [OfNat Count 0] [OfNat Count 1] [LT Count] [DecidableLT Count]
  [DecidableEq Count]

inductive GuardedStep :
    GuardedList Count ι → GuardedLabel ι → GuardedList Count ι → Prop
  | checkin {state : GuardedList Count ι} (thread : ι) (task : ListTask) :
      state.monitor.threads thread = .awake .outside →
        GuardedStep state (.checkin thread task)
          ⟨state.monitor.goto thread task.checkin, state.list,
            Function.update state.jobs thread (some (task, task.code))⟩
  | monitor {state : GuardedList Count ι} (thread : ι) {action : ConditionVariable.Action}
      {monitor : MonitorState Count ι} : action ≠ .move →
      ConditionVariable.Step monitorProgram state.monitor (thread, action) monitor →
        GuardedStep state (.monitor thread action) { state with monitor := monitor }
  | access {state : GuardedList Count ι} (thread : ι) {task : ListTask}
      {code code' : ListCode ListResult} {list : ClientList} :
      state.monitor.threads thread = .awake task.within →
      state.jobs thread = some (task, code) → code.Step state.list list code' →
        GuardedStep state (.access thread)
          ⟨state.monitor, list, Function.update state.jobs thread (some (task, code'))⟩
  | checkout {state : GuardedList Count ι} (thread : ι) {task : ListTask} {result : ListResult} :
      state.monitor.threads thread = .awake task.within →
      state.jobs thread = some (task, .done result) →
        GuardedStep state (.checkout thread task result)
          ⟨state.monitor.goto thread task.checkout, state.list,
            Function.update state.jobs thread none⟩
  | stamp {state : GuardedList Count ι} {node : Ptr} {f : Client → Client} {list : ClientList} :
      (∀ client, (f client).unstamped = client.unstamped) →
      state.list.write node f = .ok list →
        GuardedStep state .stamp { state with list := list }

variable (Count ι) in
/-- All runs of the threads `ι` on an empty list. -/
def guardedSystem : TransitionSystem (GuardedList Count ι) (GuardedLabel ι) where
  initial state := state = ⟨.start, .empty, fun _ => none⟩
  step := GuardedStep

/-- What a step does at the monitor. -/
def GuardedLabel.atMonitor {ι : Type*} :
    GuardedLabel ι → Option (ι × ConditionVariable.Action)
  | .checkin thread _ | .checkout thread _ _ => some (thread, .move)
  | .monitor thread action => some (thread, action)
  | .access _ | .stamp => none

/-- The check-ins and check-outs are a run of the monitor. -/
def guardedMonitor : (guardedSystem Count ι).Projection (monitorSystem Count ι) where
  state := GuardedList.monitor
  label := GuardedLabel.atMonitor
  initially := by
    rintro state rfl
    rfl
  hidden := by
    intro before event after moved unseen
    cases moved with
    | access | stamp => rfl
    | checkin | monitor | checkout => cases unseen
  matched := by
    intro before event after label moved seen
    cases moved with
    | access | stamp => cases seen
    | monitor thread notCall moved =>
        cases seen
        exact moved
    | checkin thread task running =>
        cases seen
        refine .move thread running ?_
        unfold ListTask.checkin
        cases task.writes with
        | true => exact .writerCheckin
        | false => exact .readerCheckin
    | checkout thread running here =>
        cases seen
        refine .move thread running ?_
        unfold ListTask.within ListTask.checkout
        split
        · exact .writerCheckout
        · exact .readerCheckout

end Steps

/-- What a thread has to do fits where it stands at the monitor. -/
inductive JobFits : MonitorLoc → Option (ListTask × ListCode ListResult) → Prop
  | outside : JobFits .outside none
  | readerCheckin {task : ListTask} (reads : task.writes = false) :
      JobFits .readerCheckin (some (task, task.code))
  | readerResume {task : ListTask} (reads : task.writes = false) :
      JobFits .readerResume (some (task, task.code))
  | reading {task : ListTask} (reads : task.writes = false) (code : ListCode ListResult) :
      JobFits .reading (some (task, code))
  | readerCheckout : JobFits .readerCheckout none
  | writerCheckin {task : ListTask} (writes : task.writes = true) :
      JobFits .writerCheckin (some (task, task.code))
  | writerResume {task : ListTask} (writes : task.writes = true) :
      JobFits .writerResume (some (task, task.code))
  | writing {task : ListTask} (writes : task.writes = true) (code : ListCode ListResult) :
      JobFits .writing (some (task, code))
  | writerCheckout : JobFits .writerCheckout none

namespace JobFits

variable {loc : MonitorLoc} {task : ListTask} {code : ListCode ListResult}

theorem of_checkin (task : ListTask) : JobFits task.checkin (some (task, task.code)) := by
  unfold ListTask.checkin
  cases writes : task.writes with
  | true => exact .writerCheckin writes
  | false => exact .readerCheckin writes

theorem of_within (task : ListTask) (code : ListCode ListResult) :
    JobFits task.within (some (task, code)) := by
  unfold ListTask.within
  cases writes : task.writes with
  | true => exact .writing writes code
  | false => exact .reading writes code

theorem of_checkout (task : ListTask) : JobFits task.checkout none := by
  unfold ListTask.checkout
  cases task.writes with
  | true => exact .writerCheckout
  | false => exact .readerCheckout

/-- A writer inside is at the location that `AW` counts, a reader at the one that `AR`
counts. -/
theorem inWriter (fits : JobFits loc (some (task, code))) (within : loc.within = true) :
    (task.writes = true → loc.inWriter = true) ∧ (task.writes = false → loc.inReader = true) := by
  cases fits with
  | reading reads | writing writes => simp_all [MonitorLoc.inWriter, MonitorLoc.inReader]
  | readerCheckin | readerResume | writerCheckin | writerResume => cases within

end JobFits

theorem ListTask.within_within (task : ListTask) : task.within.within = true := by
  unfold ListTask.within
  cases task.writes <;> rfl

theorem ListTask.checkin_within (task : ListTask) : task.checkin.within = false := by
  unfold ListTask.checkin
  cases task.writes <;> rfl

namespace GuardedList

omit [DecidableEq ι] in
/-- Whoever accesses the list is inside. -/
theorem inside_of_running (state : GuardedList Count ι) {thread : ι} {task : ListTask}
    {code : ListCode ListResult} (running : state.monitor.threads thread = .awake task.within)
    (here : state.jobs thread = some (task, code)) : state.inside thread = some (task, code) := by
  rw [inside, ConditionVariable.State.locs_of_awake running, task.within_within, here]
  rfl

/-- Inside after a change of one thread are those who were inside, but for that thread. -/
theorem inside_of_update {before after : GuardedList Count ι} {thread : ι} {loc : MonitorLoc}
    {job : Option (ListTask × ListCode ListResult)}
    (locs : after.monitor.locs = Function.update before.monitor.locs thread loc)
    (jobs : after.jobs = Function.update before.jobs thread job) :
    after.inside = Function.update before.inside thread (if loc.within then job else none) := by
  funext other
  by_cases same : other = thread
  · subst same
    simp [inside, locs, jobs]
  · simp [inside, locs, jobs, same]

/-- A thread that stays outside changes nobody inside. -/
theorem inside_of_outside {before after : GuardedList Count ι} {thread : ι} {loc : MonitorLoc}
    {job : Option (ListTask × ListCode ListResult)}
    (locs : after.monitor.locs = Function.update before.monitor.locs thread loc)
    (jobs : after.jobs = Function.update before.jobs thread job)
    (was : (before.monitor.locs thread).within = false) (stays : loc.within = false) :
    after.inside = before.inside := by
  have nobody : before.inside thread = none := by
    rw [inside, was]
    rfl
  rw [inside_of_update locs jobs, stays]
  exact Function.update_eq_self_iff.mpr nobody.symm

end GuardedList

/-- The monitor has been used as its four routines prescribe, and every thread has to do what
fits where it stands. -/
structure Disciplined (state : GuardedList ℤ ι) : Prop where
  reachable : (monitorSystem ℤ ι).Reachable state.monitor
  fits : ∀ thread, JobFits (state.monitor.locs thread) (state.jobs thread)

/-- No section of the monitor runs inside. -/
theorem within_of_critical {loc : MonitorLoc} {monitor : Monitor ℤ}
    {outcome : ConditionVariable.Outcome (Monitor ℤ) MonitorCond MonitorLoc}
    (ran : monitorProgram.critical loc monitor = some outcome) : loc.within = false := by
  cases loc with
  | reading | writing => cases ran
  | _ => rfl

/-- A section of the monitor takes a thread to where its job still fits. -/
theorem JobFits.critical {loc : MonitorLoc} {job : Option (ListTask × ListCode ListResult)}
    (fits : JobFits loc job) {monitor : Monitor ℤ}
    {outcome : ConditionVariable.Outcome (Monitor ℤ) MonitorCond MonitorLoc}
    (ran : MonitorSection monitor loc outcome) : JobFits outcome.next job := by
  cases ran with
  | readerWaits | readerWaitsAgain =>
      cases fits
      exact .readerResume ‹_›
  | readerEnters | readerResumes =>
      cases fits
      exact .reading ‹_› _
  | writerWaits | writerWaitsAgain =>
      cases fits
      exact .writerResume ‹_›
  | writerEnters | writerResumes =>
      cases fits
      exact .writing ‹_› _
  | readerLeaves | writerLeaves =>
      cases fits
      exact .outside

namespace Disciplined

variable {before after : GuardedList ℤ ι} (kept : Disciplined before) {thread : ι}
include kept

/-- The thread is at a location, has a job, and the others are as they were. -/
theorem update {loc : MonitorLoc} {job : Option (ListTask × ListCode ListResult)}
    (reachable : (monitorSystem ℤ ι).Reachable after.monitor) (fits : JobFits loc job)
    (locs : after.monitor.locs = Function.update before.monitor.locs thread loc)
    (jobs : after.jobs = Function.update before.jobs thread job) : Disciplined after := by
  refine ⟨reachable, fun other => ?_⟩
  rw [locs, jobs]
  by_cases same : other = thread
  · subst same
    simpa only [Function.update_self] using fits
  · simpa only [Function.update_of_ne same] using kept.fits other

theorem step {label : GuardedLabel ι} (moved : GuardedStep before label after) :
    Disciplined after := by
  have runs : ∀ event, label.atMonitor = some event →
      (monitorSystem ℤ ι).Reachable after.monitor := fun event seen =>
    kept.reachable.step (guardedMonitor.matched before label after event moved seen)
  cases moved with
  | checkin thread task running =>
      exact kept.update (runs _ rfl) (JobFits.of_checkin task)
        (ConditionVariable.State.locs_goto ..) rfl
  | checkout thread running here =>
      exact kept.update (runs _ rfl) (JobFits.of_checkout _)
        (ConditionVariable.State.locs_goto ..) rfl
  | @access thread task code code' list running here step =>
      have at_loc := ConditionVariable.State.locs_of_awake running
      exact kept.update kept.reachable (JobFits.of_within task code')
        (at_loc ▸ (Function.update_eq_self ..).symm) rfl
  | stamp => exact ⟨kept.reachable, kept.fits⟩
  | monitor thread notCall moved =>
      have reachable := runs _ rfl
      obtain ⟨_, called, -⟩ | ⟨outcome, -, -, ran, -, locs⟩ | ⟨-, -, locs⟩ := moved.locs_cases
      · exact (notCall called).elim
      · exact kept.update reachable
          ((kept.fits thread).critical (monitorSection_of_critical ran)) locs
          (Function.update_eq_self ..).symm
      · refine ⟨reachable, fun other => ?_⟩
        rw [locs]
        exact kept.fits other

end Disciplined

/-! ## Sections run whole -/

/-- The accesses, and nothing of the monitor. -/
def GuardedList.sections (state : GuardedList Count ι) :
    SectionState ι Fault ClientList ListTask ListResult :=
  ⟨state.list, state.inside⟩

/-- What a step is to the sections: a section of the monitor that takes a thread inside is
where its section begins. -/
def GuardedList.visible (state : GuardedList ℤ ι) :
    GuardedLabel ι → Option (SectionLabel ι ListTask ListResult)
  | .monitor thread .critical =>
    match monitorProgram.critical (state.monitor.locs thread) state.monitor.shared with
    | none => none
    | some outcome =>
      if outcome.next.within then (state.jobs thread).map fun job => .enter thread job.1 else none
  | .access thread => some (.access thread)
  | .checkout thread task result => some (.leave thread task result)
  | .stamp => some .disturb
  | .checkin .. | .monitor .. => none

/-- A section of the monitor that takes a thread inside finds a free list: nobody inside for a
writer, nobody but readers for a reader. -/
theorem Disciplined.admits [Fintype ι] {state : GuardedList ℤ ι} (kept : Disciplined state)
    {thread : ι} {outcome : ConditionVariable.Outcome (Monitor ℤ) MonitorCond MonitorLoc}
    (ran : MonitorSection state.monitor.shared (state.monitor.locs thread) outcome)
    (enters : outcome.next.within = true) :
    ∃ task, state.jobs thread = some (task, task.code) ∧ state.inside thread = none ∧
      listSections.Admits state.sections task := by
  have counts := monitorCounts_of_reachable kept.reachable
  have waiting := ConditionVariable.count_nonneg state.monitor.locs MonitorLoc.inWriterWait
  have atMost := counts.waitingWriters
  have active : ∀ other task code, state.inside other = some (task, code) →
      (task.writes = true → 1 ≤ state.monitor.shared.AW) ∧
        (task.writes = false → 1 ≤ state.monitor.shared.AR) := by
    intro other task code there
    simp only [GuardedList.inside] at there
    split at there
    · rename_i within
      have fits := kept.fits other
      rw [there] at fits
      have kinds := fits.inWriter within
      have readers := ConditionVariable.ite_le_count state.monitor.locs MonitorLoc.inReader other
      have writers := ConditionVariable.ite_le_count state.monitor.locs MonitorLoc.inWriter other
      rw [counts.readers, counts.writers]
      constructor
      · intro writes
        rwa [if_pos (kinds.1 writes)] at writers
      · intro reads
        rwa [if_pos (kinds.2 reads)] at readers
    · cases there
  have fits := kept.fits thread
  have outside : (state.monitor.locs thread).within = false →
      state.inside thread = none := fun out => by rw [GuardedList.inside, out]; rfl
  generalize here : state.monitor.locs thread = loc at ran fits outside
  generalize state.jobs thread = job at fits ⊢
  have reader : ∀ task : ListTask, task.writes = false →
      ¬ 0 < state.monitor.shared.AW + state.monitor.shared.WW →
        listSections.Admits state.sections task := by
    intro task reads free other task' code there
    refine ⟨reads, ?_⟩
    by_contra writes
    have busy := (active other task' code there).1 (eq_true_of_ne_false writes)
    omega
  have writer : ∀ task : ListTask, ¬ 0 < state.monitor.shared.AW + state.monitor.shared.AR →
      listSections.Admits state.sections task := by
    intro task free other task' code there
    have readersInside := ConditionVariable.count_nonneg state.monitor.locs MonitorLoc.inReader
    have writersInside := ConditionVariable.count_nonneg state.monitor.locs MonitorLoc.inWriter
    have readers := counts.readers
    have writers := counts.writers
    have busy := active other task' code there
    cases writes : task'.writes with
    | true =>
        have one := busy.1 writes
        omega
    | false =>
        have one := busy.2 writes
        omega
  cases ran with
  | readerEnters free | readerResumes free =>
      cases fits
      exact ⟨_, rfl, outside rfl, reader _ ‹_› free⟩
  | writerEnters free | writerResumes free =>
      cases fits
      exact ⟨_, rfl, outside rfl, writer _ free⟩
  | readerWaits | readerWaitsAgain | writerWaits | writerWaitsAgain | readerLeaves | writerLeaves =>
      cases enters

/-- The sections see the threads enter, access and leave one by one. -/
def guardedSimulation [Fintype ι] : (guardedSystem ℤ ι).StutteringSimulation
    (listSections.system ι fun list => list = .empty) where
  states state sections := Disciplined state ∧ sections = state.sections
  visible := GuardedList.visible
  initially := by
    rintro state rfl
    refine ⟨_, ⟨rfl, ?_⟩, ⟨.start rfl, fun _ => .outside⟩, rfl⟩
    rfl
  hidden := by
    rintro before label after _ ⟨kept, rfl⟩ moved unseen
    refine ⟨kept.step moved, ?_⟩
    cases moved with
    | checkin thread task running =>
        have at_loc := ConditionVariable.State.locs_of_awake running
        simp only [GuardedList.sections, SectionState.mk.injEq, true_and]
        exact (GuardedList.inside_of_outside (ConditionVariable.State.locs_goto ..) rfl
          (by rw [at_loc]; rfl) task.checkin_within).symm
    | @monitor thread action monitor notCall moved =>
        simp only [GuardedList.sections, SectionState.mk.injEq, true_and]
        obtain ⟨_, called, -⟩ | ⟨outcome, rfl, -, ran, -, locs⟩ | ⟨-, -, locs⟩ := moved.locs_cases
        · exact (notCall called).elim
        · have stays : outcome.next.within = false := by
            by_contra enters
            rw [Bool.not_eq_false] at enters
            obtain ⟨task, has, -⟩ := kept.admits (monitorSection_of_critical ran) enters
            simp only [GuardedList.visible, ran, enters, ↓reduceIte, has] at unseen
            cases unseen
          have same : GuardedList.inside ⟨monitor, before.list, before.jobs⟩ = before.inside :=
            GuardedList.inside_of_outside locs (Function.update_eq_self ..).symm
              (within_of_critical ran) stays
          exact same.symm
        · funext other
          simp only [GuardedList.inside, locs]
    | access | checkout | stamp => cases unseen
  matched := by
    rintro before label after _ label' ⟨kept, rfl⟩ moved seen
    refine ⟨after.sections, ?_, kept.step moved, rfl⟩
    cases moved with
    | checkin => cases seen
    | @monitor thread action monitor notCall moved =>
        obtain ⟨_, called, -⟩ | ⟨outcome, rfl, -, ran, -, locs⟩ | ⟨rfl, -, locs⟩ := moved.locs_cases
        · exact (notCall called).elim
        · simp only [GuardedList.visible, ran] at seen
          split at seen
          · rename_i enters
            obtain ⟨task, has, free, admits⟩ :=
              kept.admits (monitorSection_of_critical ran) enters
            rw [has] at seen
            cases seen
            have inside : GuardedList.inside ⟨monitor, before.list, before.jobs⟩ = _ :=
              GuardedList.inside_of_update locs (Function.update_eq_self ..).symm
            rw [if_pos enters, has] at inside
            simp only [GuardedList.sections, inside]
            exact .enter free admits
          · cases seen
        · cases seen
    | @access thread task code code' list running here step =>
        cases seen
        have was := before.inside_of_running running here
        have at_loc : before.monitor.locs =
            Function.update before.monitor.locs thread task.within := by
          rw [← ConditionVariable.State.locs_of_awake running, Function.update_eq_self]
        have inside : GuardedList.inside
            ⟨before.monitor, list, Function.update before.jobs thread (some (task, code'))⟩ = _ :=
          GuardedList.inside_of_update at_loc rfl
        rw [if_pos task.within_within] at inside
        simp only [GuardedList.sections, inside]
        exact .access was step
    | @checkout thread task result running here =>
        cases seen
        have was := before.inside_of_running running here
        have inside : GuardedList.inside ⟨before.monitor.goto thread task.checkout, before.list,
            Function.update before.jobs thread none⟩ = _ :=
          GuardedList.inside_of_update (ConditionVariable.State.locs_goto ..) rfl
        rw [ite_self] at inside
        simp only [GuardedList.sections, inside]
        exact .leave was
    | stamp stamps wrote =>
        cases seen
        exact .disturb (ClientList.write_unstamped stamps wrote)

/-- The sections of the library are the routines. -/
def wholeSimulation : (listSections.atomic ι fun list => list = .empty).Simulation
    (wholeSections ι) where
  states view list := list = view
  labels := Eq
  initially := by
    rintro view ⟨list, rfl, rfl⟩
    exact ⟨.empty, rfl, rfl⟩
  matched := by
    rintro before label after _ rfl ⟨blind, list, list', rfl, ran, rfl⟩
    have done : label.2.1.perform list = .ok (list', label.2.2) :=
      (label.2.1.run_eq list).symm.trans ran
    obtain ⟨left, performed, same⟩ := ListTask.perform_unstamped blind done
    exact ⟨label, _, ⟨left, performed, rfl⟩, rfl, same⟩

omit [DecidableEq ι] in
/-- The blind sections that the threads come to the end of are those that they leave. -/
theorem GuardedList.visible_left (state : GuardedList ℤ ι) (label : GuardedLabel ι) :
    (state.visible label).bind listSections.left = label.finished := by
  cases label with
  | checkin | access | checkout | stamp => rfl
  | monitor thread action =>
      cases action with
      | move | wakeUp => rfl
      | critical =>
          simp only [visible, GuardedLabel.finished]
          split
          · rfl
          · split
            · cases state.jobs thread <;> rfl
            · rfl

/-- The finished sections have found and done what they find and do as whole sections one
after the other; the list without its activity fields is the one that these leave, while no
writer is inside; and no thread inside meets a pointer that it cannot follow, unless its
section run whole would. -/
def GuardedList.Serialized (state : GuardedList Count ι)
    (finished : List (ι × ListTask × ListResult)) : Prop :=
  ∃ order list, (wholeSections ι).Execution order list ∧ list.WellFormed ∧
    order.map Prod.snd = finished ∧
    ((∀ thread, state.monitor.locs thread ≠ .writing) → state.list.unstamped = list) ∧
    ∀ thread task code, state.inside thread = some (task, code) → task.blind = true →
      (task.rooted = true ∨ ∃ left, task.perform list = .ok left) →
        (∃ result, code = .done result) ∨ ∃ list' code', code.Step state.list list' code'

/-- With integers for counters the sections are atomic in every run. -/
theorem list_sections_serialize_ideal [Fintype ι]
    {trace : List (GuardedList ℤ ι × GuardedLabel ι)} {state : GuardedList ℤ ι}
    (execution : (guardedSystem ℤ ι).Execution trace state) :
    state.Serialized (trace.filterMap fun visit => visit.2.finished) := by
  obtain ⟨accesses, _, run, ⟨disciplined, rfl⟩, labels⟩ := guardedSimulation.execution execution
  have starts : ∀ list : ClientList, list = .empty →
      ClientList.WellFormed (listSections.view list) := by
    rintro list rfl
    exact ClientList.empty_wellFormed.1
  have kept : ∀ task list left, listSections.blind task = true →
      ClientList.WellFormed (listSections.view list) →
        (listSections.code task).run list = .ok left →
          ClientList.WellFormed (listSections.view left.1) := by
    intro task list left _ formed ran
    have formed' := ListTask.perform_wellFormed (ClientList.wellFormed_of_unstamped formed)
      ((task.run_eq list).symm.trans ran)
    exact (ClientList.unstamped_nodes formed').1
  obtain ⟨whole, view, atomic, formed, left, pending⟩ := Sections.serialize starts kept run
  obtain ⟨order, _, executed, rfl, same⟩ := wholeSimulation.execution atomic
  refine ⟨order, _, executed, formed, ?_, ?_, ?_⟩
  · have labelled := List.forall₂_eq_eq_eq ▸ same
    rw [← labelled, left]
    calc accesses.filterMap (fun visit => listSections.left visit.2)
        = (accesses.map Prod.snd).filterMap listSections.left := by
          rw [List.filterMap_map]
          rfl
      _ = trace.filterMap fun visit => visit.2.finished := by
          rw [labels, List.filterMap_filterMap]
          exact List.filterMap_congr fun visit _ => visit.1.visible_left visit.2
  · intro nobody
    refine pending.quiet fun thread task code there => ?_
    change state.inside thread = some (task, code) at there
    simp only [GuardedList.inside] at there
    split at there
    · rename_i within
      have fits := disciplined.fits thread
      rw [there] at fits
      generalize here : state.monitor.locs thread = loc at fits within
      cases fits with
      | reading reads => exact reads
      | writing => exact (nobody thread here).elim
      | readerCheckin | readerResume | writerCheckin | writerResume => cases within
    · cases there
  · intro thread task code there blind sound
    obtain ⟨before, rfl⟩ := pending.seen
    obtain ⟨left, performed⟩ := sound.elim (fun rooted => task.perform_rooted rooted formed) id
    have twice : listSections.view (listSections.view before) = listSections.view before :=
      before.unstamped_unstamped
    exact pending.progress there blind twice ((task.run_eq _).trans performed)

/-- What the counters of the monitor stand for. -/
def GuardedList.toInt (state : GuardedList Int32 ι) : GuardedList ℤ ι :=
  ⟨state.monitor.toInt, state.list, state.jobs⟩

/-- As long as the waits of writers fit, a run is one with integers for counters. -/
theorem guarded_toInt [Fintype ι] (few : Fintype.card ι < 2 ^ 31)
    {trace : List (GuardedList Int32 ι × GuardedLabel ι)} {state : GuardedList Int32 ι}
    (execution : (guardedSystem Int32 ι).Execution trace state)
    (waited : writerWaits (guardedMonitor.trace trace) < 2 ^ 31 - 1) :
    (guardedSystem ℤ ι).Execution (trace.map fun visit => (visit.1.toInt, visit.2))
      state.toInt := by
  induction execution with
  | start initial =>
      subst initial
      exact .start rfl
  | @step trace before after label execution moved ih =>
      rw [guardedMonitor.trace_append] at waited
      have fewer : writerWaits (guardedMonitor.trace trace) < 2 ^ 31 - 1 := by
        rw [writerWaits_append] at waited
        omega
      obtain ⟨run, counted⟩ := monitor_toInt few (guardedMonitor.execution execution) fewer
      rw [List.map_append]
      refine (ih fewer).step ?_
      cases moved with
      | checkin thread task running => exact .checkin thread task running
      | access thread running here step => exact .access thread running here step
      | checkout thread running here => exact .checkout thread running here
      | stamp stamps wrote => exact .stamp stamps wrote
      | monitor thread notCall moved =>
          have counts := monitorCounts_of_reachable ⟨_, run⟩
          exact .monitor thread notCall (monitor_step_toInt few moved counts counted waited).1

/-- **The monitor makes the sections of the list atomic.** In every run of fewer than
`2 ^ 31` threads in which writers have waited fewer than `2 ^ 31 - 1` times, whatever the
threads do between check-ins and check-outs, and however activity fields are written
meanwhile, the sections that have been left but for the scans are whole sections, in the
order of their check-outs. -/
theorem list_sections_serialize [Fintype ι] (few : Fintype.card ι < 2 ^ 31)
    {trace : List (GuardedList Int32 ι × GuardedLabel ι)} {state : GuardedList Int32 ι}
    (execution : (guardedSystem Int32 ι).Execution trace state)
    (waited : writerWaits (guardedMonitor.trace trace) < 2 ^ 31 - 1) :
    state.Serialized (trace.filterMap fun visit => visit.2.finished) := by
  have ideal := list_sections_serialize_ideal (guarded_toInt few execution waited)
  rwa [List.filterMap_map] at ideal

/-- A thread inserts a client while another one waits to look for it. -/
theorem list_sections_serialize_insert :
    ∃ order list, (wholeSections (Fin 2)).Execution order list ∧
      order.map Prod.snd = [(0, .insert (sampleRequest .conn 1 "A") 5, .inserted)] := by
  have start : (guardedSystem Int32 (Fin 2)).Execution [] ⟨.start, .empty, fun _ => none⟩ :=
    .start rfl
  have inside := (start.step (.checkin 0 (.insert (sampleRequest .conn 1 "A") 5) rfl)).step
    (.monitor 0 (by decide) (.leave 0 rfl rfl (.none _)))
  have allocated := (inside.step (.access 0 rfl rfl (.write rfl))).step
    (.checkin 1 (.findSender (sampleRequest .conn 1 "A").fromAddr) rfl)
  have waiting := (allocated.step (.access 0 rfl rfl (.read rfl))).step
    (.monitor 1 (by decide) (.wait 1 rfl rfl))
  have linked := (waiting.step (.access 0 rfl rfl (.write rfl))).step
    (.access 0 rfl rfl (.write rfl))
  have left := linked.step (.checkout 0 rfl rfl)
  obtain ⟨order, list, whole, -, finished, -⟩ :=
    list_sections_serialize (by decide) left (by decide)
  exact ⟨order, list, whole, finished⟩

end MultithreadedChat
