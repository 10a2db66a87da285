import Mathlib.Algebra.Order.BigOperators.Group.Finset
import Mathlib.Data.Fintype.Basic
import MultithreadedChat.Foundation.TransitionSystem

/-! # Threads sharing one mutex and its condition variables

A program gives, for every location of a thread, the section the thread runs
under the mutex there. A section either goes to sleep on a condition variable,
releasing the mutex, or leaves, possibly signalling or broadcasting one
condition variable (`ConditionVariable.Outcome`). Sections are atomic; a signal
wakes one sleeper if there is one, a broadcast wakes all, and a sleeper may also
wake up spuriously (`ConditionVariable.Step`). A woken thread continues at the
location it went to sleep with, and any other thread may run before it does.

Waking never changes the location of a thread, so a property of the shared data
and the locations alone is an invariant as soon as the sections and the moves
between them keep it (`ConditionVariable.Step.locs_invariant`).
-/

namespace ConditionVariable

variable {ι Shared Cond Loc : Type*}

/-- What a section does to the sleepers when it leaves. -/
inductive Wake (Cond : Type*)
  | signal (cond : Cond)
  | broadcast (cond : Cond)

/-- How a section ends: asleep on a condition variable, to resume at a location,
or with the mutex released at a next location. -/
inductive Outcome (Shared Cond Loc : Type*)
  | wait (shared : Shared) (cond : Cond) (resume : Loc)
  | leave (shared : Shared) (next : Loc) (wake : Option (Wake Cond))

/-- The shared data a section leaves behind. -/
def Outcome.shared : Outcome Shared Cond Loc → Shared
  | .wait shared _ _ => shared
  | .leave shared _ _ => shared

/-- The location a thread is at after a section, asleep or not. -/
def Outcome.next : Outcome Shared Cond Loc → Loc
  | .wait _ _ resume => resume
  | .leave _ next _ => next

/-- The condition variable a section goes to sleep on. -/
def Outcome.sleepsOn : Outcome Shared Cond Loc → Option Cond
  | .wait _ cond _ => some cond
  | .leave .. => none

/-- The outcome on another representation of the shared data. -/
def Outcome.map {Shared' : Type*} (f : Shared → Shared') :
    Outcome Shared Cond Loc → Outcome Shared' Cond Loc
  | .wait shared cond resume => .wait (f shared) cond resume
  | .leave shared next wake => .leave (f shared) next wake

theorem Outcome.shared_map {Shared' : Type*} (f : Shared → Shared')
    (outcome : Outcome Shared Cond Loc) : (outcome.map f).shared = f outcome.shared := by
  cases outcome <;> rfl

theorem Outcome.sleepsOn_map {Shared' : Type*} (f : Shared → Shared')
    (outcome : Outcome Shared Cond Loc) : (outcome.map f).sleepsOn = outcome.sleepsOn := by
  cases outcome <;> rfl

/-- The moves a thread makes without the mutex, and the section at a location. -/
structure Program (Shared Cond Loc : Type*) where
  move : Loc → Loc → Prop
  critical : Loc → Shared → Option (Outcome Shared Cond Loc)

/-- A thread runs at a location or sleeps on a condition variable. -/
inductive Thread (Cond Loc : Type*)
  | awake (loc : Loc)
  | asleep (cond : Cond) (loc : Loc)

/-- The location a thread runs at or resumes at. -/
def Thread.loc : Thread Cond Loc → Loc
  | .awake loc => loc
  | .asleep _ loc => loc

@[simp] theorem Thread.loc_awake (loc : Loc) : (Thread.awake loc : Thread Cond Loc).loc = loc := rfl

@[simp] theorem Thread.loc_asleep (cond : Cond) (loc : Loc) :
    (Thread.asleep cond loc).loc = loc := rfl

/-- The shared data and every thread. -/
structure State (ι Shared Cond Loc : Type*) where
  shared : Shared
  threads : ι → Thread Cond Loc

/-- The state on another representation of the shared data. -/
def State.map {Shared' : Type*} (f : Shared → Shared') (state : State ι Shared Cond Loc) :
    State ι Shared' Cond Loc :=
  ⟨f state.shared, state.threads⟩

/-- The locations of all threads. -/
def State.locs (state : State ι Shared Cond Loc) (thread : ι) : Loc := (state.threads thread).loc

theorem State.locs_of_awake {state : State ι Shared Cond Loc} {thread : ι} {loc : Loc}
    (running : state.threads thread = .awake loc) : state.locs thread = loc := by
  rw [locs, running, Thread.loc_awake]

/-- What a thread does in one step. -/
inductive Action
  | move
  | critical
  | wakeUp
  deriving DecidableEq

variable [DecidableEq ι]

/-- Whoever sleeps after a change of one thread slept before or is that thread. -/
theorem asleep_of_update {threads : ι → Thread Cond Loc} {thread sleeper : ι}
    {next : Thread Cond Loc} {cond : Cond} {loc : Loc}
    (sleeping : Function.update threads thread next sleeper = .asleep cond loc) :
    next = .asleep cond loc ∨ threads sleeper = .asleep cond loc := by
  by_cases same : sleeper = thread
  · rw [same, Function.update_self] at sleeping
    exact .inl sleeping
  · rw [Function.update_of_ne same] at sleeping
    exact .inr sleeping

/-- A thread that has become awake is not among the sleepers. -/
theorem asleep_of_update_awake {threads : ι → Thread Cond Loc} {thread sleeper : ι}
    {next loc : Loc} {cond : Cond}
    (sleeping : Function.update threads thread (.awake next) sleeper = .asleep cond loc) :
    threads sleeper = .asleep cond loc := by
  rcases asleep_of_update sleeping with awake | asleep
  · cases awake
  · exact asleep

/-- The effect of a signal or a broadcast on the threads. -/
inductive Woken : Option (Wake Cond) → (ι → Thread Cond Loc) → (ι → Thread Cond Loc) → Prop
  | none (threads : ι → Thread Cond Loc) : Woken none threads threads
  | one {threads : ι → Thread Cond Loc} (sleeper : ι) {cond : Cond} {loc : Loc} :
      threads sleeper = .asleep cond loc →
        Woken (some (.signal cond)) threads (Function.update threads sleeper (.awake loc))
  | lost {threads : ι → Thread Cond Loc} {cond : Cond} :
      (∀ thread loc, threads thread ≠ .asleep cond loc) →
        Woken (some (.signal cond)) threads threads
  | all {threads woken : ι → Thread Cond Loc} {cond : Cond} :
      (∀ thread loc, threads thread = .asleep cond loc → woken thread = .awake loc) →
      (∀ thread, (∀ loc, threads thread ≠ .asleep cond loc) → woken thread = threads thread) →
        Woken (some (.broadcast cond)) threads woken

namespace Woken

variable {wake : Option (Wake Cond)} {before after : ι → Thread Cond Loc}

/-- Waking leaves every thread at its location. -/
theorem loc_eq (woken : Woken wake before after) (thread : ι) :
    (after thread).loc = (before thread).loc := by
  cases woken with
  | none | lost => rfl
  | @one _ sleeper cond loc sleeping =>
      by_cases same : thread = sleeper
      · subst same
        simp [sleeping]
      · rw [Function.update_of_ne same]
  | @all _ _ cond roused kept =>
      by_cases sleeping : ∃ loc, before thread = .asleep cond loc
      · obtain ⟨loc, sleeping⟩ := sleeping
        simp [roused thread loc sleeping, sleeping]
      · rw [kept thread fun loc same => sleeping ⟨loc, same⟩]

/-- A thread stays as it is, or is woken where it sleeps. -/
theorem thread_cases (woken : Woken wake before after) (thread : ι) :
    after thread = before thread ∨
      ∃ cond loc, before thread = .asleep cond loc ∧ after thread = .awake loc := by
  cases woken with
  | none | lost => exact .inl rfl
  | @one _ sleeper cond loc sleeping =>
      by_cases same : thread = sleeper
      · subst same
        exact .inr ⟨cond, loc, sleeping, Function.update_self ..⟩
      · exact .inl (Function.update_of_ne same ..)
  | @all _ _ cond roused kept =>
      by_cases sleeping : ∃ loc, before thread = .asleep cond loc
      · obtain ⟨loc, sleeping⟩ := sleeping
        exact .inr ⟨cond, loc, sleeping, roused thread loc sleeping⟩
      · exact .inl (kept thread fun loc same => sleeping ⟨loc, same⟩)

/-- Waking puts no thread to sleep. -/
theorem asleep_before (woken : Woken wake before after) {thread : ι} {cond : Cond} {loc : Loc}
    (sleeping : after thread = .asleep cond loc) : before thread = .asleep cond loc := by
  cases woken with
  | none | lost => exact sleeping
  | @one _ sleeper _ _ _ =>
      by_cases same : thread = sleeper
      · subst same
        simp at sleeping
      · rwa [Function.update_of_ne same] at sleeping
  | @all _ _ roused kept awoken =>
      by_cases asleep : ∃ loc, before thread = .asleep roused loc
      · obtain ⟨other, asleep⟩ := asleep
        rw [kept thread other asleep] at sleeping
        cases sleeping
      · rwa [awoken thread fun other same => asleep ⟨other, same⟩] at sleeping

/-- A signal to a condition variable with sleepers wakes one of them. -/
theorem signal_wakes {cond : Cond} (woken : Woken (some (.signal cond)) before after)
    {sleeper : ι} {loc : Loc} (sleeping : before sleeper = .asleep cond loc) :
    ∃ thread loc, before thread = .asleep cond loc ∧ after thread = .awake loc := by
  cases woken with
  | @one _ chosen _ other asleep => exact ⟨chosen, other, asleep, Function.update_self ..⟩
  | lost nobody => exact (nobody sleeper loc sleeping).elim

/-- After a broadcast nobody sleeps on its condition variable. -/
theorem broadcast_wakes {cond : Cond} (woken : Woken (some (.broadcast cond)) before after)
    (thread : ι) (loc : Loc) : after thread ≠ .asleep cond loc := by
  intro sleeping
  have asleep := woken.asleep_before sleeping
  cases woken with
  | all roused _ =>
      rw [roused thread loc asleep] at sleeping
      cases sleeping

/-- Any signal or broadcast has an effect. -/
theorem exists_after (wake : Option (Wake Cond)) (threads : ι → Thread Cond Loc) :
    ∃ woken, Woken wake threads woken := by
  classical
  match wake with
  | .none => exact ⟨threads, .none threads⟩
  | some (.signal cond) =>
      by_cases sleeping : ∃ sleeper loc, threads sleeper = .asleep cond loc
      · obtain ⟨sleeper, loc, sleeping⟩ := sleeping
        exact ⟨_, .one sleeper sleeping⟩
      · exact ⟨threads, .lost fun sleeper loc same => sleeping ⟨sleeper, loc, same⟩⟩
  | some (.broadcast cond) =>
      refine ⟨fun thread => if ∃ loc, threads thread = .asleep cond loc then
        .awake (threads thread).loc else threads thread, .all ?_ ?_⟩
      · intro thread loc sleeping
        simp [sleeping]
      · intro thread other
        rw [if_neg fun ⟨loc, same⟩ => other loc same]

end Woken

variable (program : Program Shared Cond Loc)

/-- One step of one thread. -/
inductive Step : State ι Shared Cond Loc → ι × Action → State ι Shared Cond Loc → Prop
  | move {state : State ι Shared Cond Loc} (thread : ι) {loc next : Loc} :
      state.threads thread = .awake loc → program.move loc next →
        Step state (thread, .move)
          { state with threads := Function.update state.threads thread (.awake next) }
  | wait {state : State ι Shared Cond Loc} (thread : ι) {loc : Loc} {shared : Shared}
      {cond : Cond} {resume : Loc} :
      state.threads thread = .awake loc →
      program.critical loc state.shared = some (.wait shared cond resume) →
        Step state (thread, .critical)
          ⟨shared, Function.update state.threads thread (.asleep cond resume)⟩
  | leave {state : State ι Shared Cond Loc} (thread : ι) {loc : Loc} {shared : Shared}
      {next : Loc} {wake : Option (Wake Cond)} {threads : ι → Thread Cond Loc} :
      state.threads thread = .awake loc →
      program.critical loc state.shared = some (.leave shared next wake) →
      Woken wake (Function.update state.threads thread (.awake next)) threads →
        Step state (thread, .critical) ⟨shared, threads⟩
  | spurious {state : State ι Shared Cond Loc} (thread : ι) {cond : Cond} {loc : Loc} :
      state.threads thread = .asleep cond loc →
        Step state (thread, .wakeUp)
          { state with threads := Function.update state.threads thread (.awake loc) }

/-- All runs of a program from given initial states. -/
def Program.system (initial : State ι Shared Cond Loc → Prop) :
    TransitionSystem (State ι Shared Cond Loc) (ι × Action) where
  initial := initial
  step := Step program

variable {program}

private theorem locs_update (threads : ι → Thread Cond Loc) (thread : ι)
    (next : Thread Cond Loc) :
    (fun other => (Function.update threads thread next other).loc) =
      Function.update (fun other => (threads other).loc) thread next.loc := by
  funext other
  by_cases same : other = thread
  · subst same
    simp
  · simp [same]

/-- A thread goes on at a location. -/
def State.goto (state : State ι Shared Cond Loc) (thread : ι) (loc : Loc) :
    State ι Shared Cond Loc :=
  ⟨state.shared, Function.update state.threads thread (.awake loc)⟩

theorem State.locs_goto (state : State ι Shared Cond Loc) (thread : ι) (loc : Loc) :
    (state.goto thread loc).locs = Function.update state.locs thread loc :=
  locs_update ..

/-- What a step does to the shared data and to the locations: a move, a section,
or, on a spurious wake-up, nothing. -/
theorem Step.locs_cases {before after : State ι Shared Cond Loc} {thread : ι} {action : Action}
    (moved : Step program before (thread, action) after) :
    (∃ next, action = .move ∧ before.threads thread = .awake (before.locs thread) ∧
        program.move (before.locs thread) next ∧ after.shared = before.shared ∧
        after.locs = Function.update before.locs thread next) ∨
      (∃ outcome, action = .critical ∧ before.threads thread = .awake (before.locs thread) ∧
        program.critical (before.locs thread) before.shared = some outcome ∧
        after.shared = outcome.shared ∧
        after.locs = Function.update before.locs thread outcome.next) ∨
      (action = .wakeUp ∧ after.shared = before.shared ∧ after.locs = before.locs) := by
  cases moved with
  | @move _ loc next running allowed =>
      have here : before.locs thread = loc := by simp [State.locs, running]
      exact .inl ⟨next, rfl, here ▸ running, here ▸ allowed, rfl, locs_update ..⟩
  | @wait _ loc shared cond resume running ran =>
      have here : before.locs thread = loc := by simp [State.locs, running]
      exact .inr (.inl ⟨_, rfl, here ▸ running, here ▸ ran, rfl, locs_update ..⟩)
  | @leave _ loc shared next wake threads running ran woken =>
      have here : before.locs thread = loc := by simp [State.locs, running]
      refine .inr (.inl ⟨_, rfl, here ▸ running, here ▸ ran, rfl, ?_⟩)
      funext other
      rw [State.locs, woken.loc_eq]
      exact congrFun (locs_update ..) other
  | @spurious _ cond loc sleeping =>
      refine .inr (.inr ⟨rfl, rfl, ?_⟩)
      have here : before.locs thread = loc := by simp [State.locs, sleeping]
      refine (locs_update ..).trans ?_
      rw [Thread.loc_awake, ← here]
      exact Function.update_eq_self ..

/-- A thread that is awake before a section can run it. -/
theorem Step.exists_critical {state : State ι Shared Cond Loc} {thread : ι} {loc : Loc}
    {outcome : Outcome Shared Cond Loc} (running : state.threads thread = .awake loc)
    (ran : program.critical loc state.shared = some outcome) :
    ∃ after, Step program state (thread, .critical) after := by
  cases outcome with
  | wait shared cond resume => exact ⟨_, .wait thread running ran⟩
  | leave shared next wake =>
      obtain ⟨woken, wakes⟩ := Woken.exists_after wake
        (Function.update state.threads thread (.awake next))
      exact ⟨_, .leave thread running ran wakes⟩

/-- A step is one of another program on another representation of the shared data, if its
section is one there. -/
theorem Step.map {Shared' : Type*} (f : Shared → Shared') (program' : Program Shared' Cond Loc)
    (moves : ∀ loc next, program.move loc next → program'.move loc next)
    {before after : State ι Shared Cond Loc} {label : ι × Action}
    (moved : Step program before label after)
    (sections : ∀ outcome, label.2 = .critical →
      program.critical (before.locs label.1) before.shared = some outcome →
        program'.critical (before.locs label.1) (f before.shared) = some (outcome.map f)) :
    Step program' (before.map f) label (after.map f) := by
  cases moved with
  | move thread running allowed => exact .move thread running (moves _ _ allowed)
  | wait thread running ran =>
      rw [State.locs_of_awake running] at sections
      exact .wait thread running (sections _ rfl ran)
  | leave thread running ran woken =>
      rw [State.locs_of_awake running] at sections
      exact .leave thread running (sections _ rfl ran) woken
  | spurious thread sleeping => exact .spurious thread sleeping

/-- Sections and moves are all that can break a property of the shared data and
the locations. -/
theorem Step.locs_invariant {I : Shared → (ι → Loc) → Prop}
    (moves : ∀ shared locs thread next, program.move (locs thread) next →
      I shared locs → I shared (Function.update locs thread next))
    (sections : ∀ shared locs thread outcome, program.critical (locs thread) shared = some outcome →
      I shared locs → I outcome.shared (Function.update locs thread outcome.next))
    {before after : State ι Shared Cond Loc} {label : ι × Action}
    (moved : Step program before label after) (holds : I before.shared before.locs) :
    I after.shared after.locs := by
  rcases moved.locs_cases with ⟨next, -, -, allowed, shared, locs⟩ |
    ⟨outcome, -, -, ran, shared, locs⟩ | ⟨-, shared, locs⟩
  · rw [shared, locs]
    exact moves _ _ _ _ allowed holds
  · rw [shared, locs]
    exact sections _ _ _ _ ran holds
  · rwa [shared, locs]

section Count

variable [Fintype ι]

/-- The number of threads at locations of a kind. -/
def count (locs : ι → Loc) (kind : Loc → Bool) : ℤ :=
  ∑ thread, if kind (locs thread) then 1 else 0

/-- When one thread moves, only its own contribution to a count changes. -/
theorem count_update (locs : ι → Loc) (kind : Loc → Bool) (thread : ι) (next : Loc) :
    count (Function.update locs thread next) kind =
      count locs kind - (if kind (locs thread) then 1 else 0) + (if kind next then 1 else 0) := by
  unfold count
  rw [← Finset.add_sum_erase _ _ (Finset.mem_univ thread),
    ← Finset.add_sum_erase _ (fun other => if kind (locs other) then (1 : ℤ) else 0)
      (Finset.mem_univ thread)]
  have others : ∑ other ∈ Finset.univ.erase thread,
        (if kind (Function.update locs thread next other) then (1 : ℤ) else 0) =
      ∑ other ∈ Finset.univ.erase thread, if kind (locs other) then 1 else 0 := by
    apply Finset.sum_congr rfl
    intro other member
    rw [Function.update_of_ne (Finset.ne_of_mem_erase member)]
  rw [others, Function.update_self]
  omega

omit [DecidableEq ι] in
theorem count_nonneg (locs : ι → Loc) (kind : Loc → Bool) : 0 ≤ count locs kind := by
  apply Finset.sum_nonneg
  intro thread _
  split <;> decide

omit [DecidableEq ι] in
theorem count_le_card (locs : ι → Loc) (kind : Loc → Bool) :
    count locs kind ≤ Fintype.card ι := by
  have each : count locs kind ≤ ∑ _thread : ι, (1 : ℤ) := by
    apply Finset.sum_le_sum
    intro thread _
    split <;> decide
  simpa using each

omit [DecidableEq ι] in
/-- A thread contributes to the count of its own location. -/
theorem ite_le_count (locs : ι → Loc) (kind : Loc → Bool) (thread : ι) :
    (if kind (locs thread) then 1 else 0) ≤ count locs kind := by
  apply Finset.single_le_sum (f := fun other => if kind (locs other) then (1 : ℤ) else 0)
    (fun other _ => ?_) (Finset.mem_univ thread)
  split <;> decide

omit [DecidableEq ι] in
/-- A positive count comes from some thread. -/
theorem exists_of_count_pos {locs : ι → Loc} {kind : Loc → Bool} (positive : 0 < count locs kind) :
    ∃ thread, kind (locs thread) = true := by
  by_contra nobody
  push Not at nobody
  have zero : count locs kind = 0 := by
    apply Finset.sum_eq_zero
    intro thread _
    simp [nobody thread]
  omega

end Count

end ConditionVariable
