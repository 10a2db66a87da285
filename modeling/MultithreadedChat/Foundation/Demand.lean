import MultithreadedChat.Foundation.ConditionVariable

/-! # Demand behind a condition variable

Threads that wait for work on a condition variable are woken one at a time, and a
woken one can find that another thread has taken its work. Work is never left to
sleepers alone if, whenever somebody sleeps, at least as many threads are awake
before their test as there is work (`ConditionVariable.Demand.Met`). A demand says
which work a condition variable stands for and how the sections change it; that is
enough for it to be met in every reachable state (`ConditionVariable.Demand.met`).
-/

namespace ConditionVariable

variable {ι Shared Cond Loc : Type*}

/-- Whether a thread runs at a location of a kind. -/
def Thread.awakeAt (kind : Loc → Bool) : Thread Cond Loc → Bool
  | .awake loc => kind loc
  | .asleep _ _ => false

@[simp] theorem Thread.awakeAt_awake (kind : Loc → Bool) (loc : Loc) :
    (Thread.awake loc : Thread Cond Loc).awakeAt kind = kind loc := rfl

@[simp] theorem Thread.awakeAt_asleep (kind : Loc → Bool) (cond : Cond) (loc : Loc) :
    (Thread.asleep cond loc).awakeAt kind = false := rfl

/-- The work that threads wait for on a condition variable, and the locations before
their test. A section sleeps there only when there is no work, and one that leaves
takes work, signals the work it adds, or wakes everybody. -/
structure Demand (program : Program Shared Cond Loc) (cond : Cond) where
  work : Shared → ℤ
  kind : Loc → Bool
  moves : ∀ {loc next}, program.move loc next → kind loc = true → kind next = true
  sleeps : ∀ {loc shared shared' resume},
    program.critical loc shared = some (.wait shared' cond resume) →
      kind resume = true ∧ work shared' ≤ 0
  elsewhere : ∀ {loc shared shared' other resume},
    program.critical loc shared = some (.wait shared' other resume) → other ≠ cond →
      work shared' + (if kind loc then 1 else 0) ≤ work shared
  leaves : ∀ {loc shared shared' next wake},
    program.critical loc shared = some (.leave shared' next wake) →
      work shared' + (if kind loc then 1 else 0) ≤ work shared + (if kind next then 1 else 0) ∨
        wake = some (.signal cond) ∧ work shared' + (if kind loc then 1 else 0) ≤
          work shared + (if kind next then 1 else 0) + 1 ∨
        wake = some (.broadcast cond)

section Counting

variable [DecidableEq ι] [Fintype ι] {before after : ι → Thread Cond Loc}
  {wake : Option (Wake Cond)}

/-- Waking takes nobody's turn away. -/
theorem Woken.count_le (woken : Woken wake before after) (kind : Loc → Bool) :
    count before (Thread.awakeAt kind) ≤ count after (Thread.awakeAt kind) := by
  cases woken with
  | none | lost => exact le_rfl
  | @one _ sleeper cond loc sleeping =>
      rw [count_update, sleeping, Thread.awakeAt_asleep, if_neg Bool.false_ne_true]
      split <;> omega
  | @all _ _ cond roused kept =>
      apply Finset.sum_le_sum
      intro thread _
      by_cases sleeping : ∃ loc, before thread = .asleep cond loc
      · obtain ⟨loc, sleeping⟩ := sleeping
        rw [sleeping, Thread.awakeAt_asleep, if_neg Bool.false_ne_true]
        split <;> omega
      · rw [kept thread fun loc same => sleeping ⟨loc, same⟩]

/-- A signal that finds a sleeper puts one more thread before its test. -/
theorem Woken.count_signal {cond : Cond} (woken : Woken (some (.signal cond)) before after)
    {kind : Loc → Bool} (waiting : ∀ thread loc, before thread = .asleep cond loc → kind loc = true)
    {sleeper : ι} {loc : Loc} (sleeping : before sleeper = .asleep cond loc) :
    count after (Thread.awakeAt kind) = count before (Thread.awakeAt kind) + 1 := by
  cases woken with
  | lost nobody => exact absurd sleeping (nobody sleeper loc)
  | @one _ chosen _ other asleep =>
      rw [count_update, asleep, Thread.awakeAt_asleep, Thread.awakeAt_awake,
        if_pos (waiting chosen other asleep), if_neg Bool.false_ne_true, sub_zero]

end Counting

namespace Demand

variable {program : Program Shared Cond Loc} {cond : Cond} (demand : Demand program cond)
variable [Fintype ι]

/-- Whoever sleeps will test again, and the awake threads before their test cover the
work. -/
def Met (shared : Shared) (threads : ι → Thread Cond Loc) : Prop :=
  ∀ sleeper loc, threads sleeper = .asleep cond loc →
    demand.kind loc = true ∧ demand.work shared ≤ count threads (Thread.awakeAt demand.kind)

variable {demand} {shared shared' : Shared} {threads woken : ι → Thread Cond Loc}

/-- While somebody sleeps and there is work, a thread is awake before its test. -/
theorem Met.exists_awake (holds : demand.Met shared threads) (work : 0 < demand.work shared)
    {sleeper : ι} {loc : Loc} (sleeping : threads sleeper = .asleep cond loc) :
    ∃ thread loc, threads thread = .awake loc ∧ demand.kind loc = true := by
  obtain ⟨thread, awake⟩ := exists_of_count_pos (work.trans_le (holds sleeper loc sleeping).2)
  cases here : threads thread with
  | awake loc =>
      rw [here] at awake
      exact ⟨thread, loc, here, awake⟩
  | asleep =>
      rw [here] at awake
      cases awake

variable [DecidableEq ι]

/-- A thread moves on, or wakes up, without taking work. -/
theorem Met.awake (holds : demand.Met shared threads) {thread : ι} {next : Loc}
    (ready : (threads thread).awakeAt demand.kind = true → demand.kind next = true) :
    demand.Met shared (Function.update threads thread (.awake next)) := by
  intro sleeper loc sleeping
  obtain ⟨waiting, covered⟩ := holds sleeper loc (asleep_of_update_awake sleeping)
  refine ⟨waiting, ?_⟩
  rw [count_update, Thread.awakeAt_awake]
  by_cases here : (threads thread).awakeAt demand.kind = true
  · rw [if_pos here, if_pos (ready here)]
    omega
  · rw [if_neg here]
    split <;> omega

/-- A section goes to sleep. -/
theorem Met.wait (holds : demand.Met shared threads) {thread : ι} {loc resume : Loc} {other : Cond}
    (running : threads thread = .awake loc)
    (ran : program.critical loc shared = some (.wait shared' other resume)) :
    demand.Met shared' (Function.update threads thread (.asleep other resume)) := by
  have counted := count_update threads (Thread.awakeAt demand.kind) thread (.asleep other resume)
  rw [running, Thread.awakeAt_awake, Thread.awakeAt_asleep, if_neg Bool.false_ne_true] at counted
  have positive := count_nonneg (Function.update threads thread (.asleep other resume))
    (Thread.awakeAt demand.kind)
  intro sleeper at_loc sleeping
  by_cases same : other = cond
  · subst same
    obtain ⟨waiting, idle⟩ := demand.sleeps ran
    refine ⟨?_, idle.trans positive⟩
    rcases asleep_of_update sleeping with itself | asleep
    · cases itself
      exact waiting
    · exact (holds sleeper at_loc asleep).1
  · rcases asleep_of_update sleeping with itself | asleep
    · cases itself
      exact absurd rfl same
    · obtain ⟨waiting, covered⟩ := holds sleeper at_loc asleep
      have less := demand.elsewhere ran same
      exact ⟨waiting, by omega⟩

/-- A section leaves, and wakes whom it wakes. -/
theorem Met.leave (holds : demand.Met shared threads) {thread : ι} {loc next : Loc}
    {wake : Option (Wake Cond)} (running : threads thread = .awake loc)
    (ran : program.critical loc shared = some (.leave shared' next wake))
    (wakes : Woken wake (Function.update threads thread (.awake next)) woken) :
    demand.Met shared' woken := by
  intro sleeper resume sleeping
  have asleep := wakes.asleep_before sleeping
  obtain ⟨waiting, covered⟩ := holds sleeper resume (asleep_of_update_awake asleep)
  refine ⟨waiting, ?_⟩
  have counted := count_update threads (Thread.awakeAt demand.kind) thread (.awake next)
  rw [running, Thread.awakeAt_awake, Thread.awakeAt_awake] at counted
  have more := wakes.count_le demand.kind
  rcases demand.leaves ran with less | ⟨rfl, added⟩ | rfl
  · omega
  · have signalled := wakes.count_signal
      (fun other loc slept => (holds other loc (asleep_of_update_awake slept)).1) asleep
    omega
  · exact absurd sleeping (wakes.broadcast_wakes sleeper resume)

/-- Every step keeps the demand met. -/
theorem Met.step {before after : State ι Shared Cond Loc} {label : ι × Action}
    (holds : demand.Met before.shared before.threads) (moved : Step program before label after) :
    demand.Met after.shared after.threads := by
  cases moved with
  | move thread running allowed =>
      refine holds.awake fun ready => demand.moves allowed ?_
      rwa [running] at ready
  | wait thread running ran => exact holds.wait running ran
  | leave thread running ran woken => exact holds.leave running ran woken
  | spurious thread asleep =>
      refine holds.awake fun ready => ?_
      rw [asleep] at ready
      cases ready

/-- **Met demand.** Started with nobody asleep, a demand is met in every reachable
state. -/
theorem met (demand : Demand program cond) {initial : State ι Shared Cond Loc → Prop}
    (rested : ∀ state, initial state → ∀ thread loc, state.threads thread ≠ .asleep cond loc)
    {state : State ι Shared Cond Loc} (reachable : (program.system initial).Reachable state) :
    demand.Met state.shared state.threads :=
  reachable.invariant (I := fun state => demand.Met state.shared state.threads)
    (fun state start thread loc asleep => absurd asleep (rested state start thread loc))
    fun _ _ _ holds moved => holds.step moved

end Demand

end ConditionVariable
