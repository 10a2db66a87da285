import MultithreadedChat.Foundation.ConditionVariable
import MultithreadedChat.Server.Sequential
import MultithreadedChat.Server.Workers

/-! # The limit on worker threads

The queue manager checks a worker in before it spawns the thread and checks it out
again right after, while the detached worker is still running. If every worker had ended
by then, the check-in would keep the workers to the limit
(`MultithreadedChat.workers_bounded`). As it is the counter is at most one
(`MultithreadedChat.activeWorker_eq`), no command ever waits at the limit
(`MultithreadedChat.checkin_passes`), and any number of workers can be alive
(`MultithreadedChat.exists_reachable_alive`).
-/

namespace MultithreadedChat

open ConditionVariable

abbrev maxThreads : ℕ := 128

/-- The part of `queue_manager_args_t` that `pool_lock` guards. -/
structure WorkerPool where
  activeWorker : ℤ
  deriving DecidableEq, Repr

/-- The condition variable `cond_worker`. -/
inductive PoolCond
  | worker

/-- Where the queue manager is in its loop. -/
inductive QueueManagerLoc
  | pop
  | checkin (request : Request)
  | spawn (request : Request)
  | checkout

/-- `worker_thread_checkin`. -/
def workerThreadCheckin (request : Request) (pool : WorkerPool) :
    Outcome WorkerPool PoolCond QueueManagerLoc :=
  if pool.activeWorker ≥ maxThreads then .wait pool .worker (.checkin request)
  else .leave { pool with activeWorker := pool.activeWorker + 1 } (.spawn request) none

/-- `worker_thread_checkout`. -/
def workerThreadCheckout (pool : WorkerPool) : Outcome WorkerPool PoolCond QueueManagerLoc :=
  .leave { pool with activeWorker := pool.activeWorker - 1 } .pop (some (.signal .worker))

/-- A command is popped, or the worker of a command is spawned. -/
inductive QueueManagerMove : QueueManagerLoc → QueueManagerLoc → Prop
  | pop (request : Request) : QueueManagerMove .pop (.checkin request)
  | spawn (request : Request) : QueueManagerMove (.spawn request) .checkout

/-- The loop of `queue_manager`. -/
def queueManager : Program WorkerPool PoolCond QueueManagerLoc where
  move := QueueManagerMove
  critical
    | .checkin request, pool => some (workerThreadCheckin request pool)
    | .checkout, pool => some (workerThreadCheckout pool)
    | .pop, _ | .spawn _, _ => none

/-- The queue manager, and the commands whose detached workers are alive. -/
structure PoolState where
  manager : State Unit WorkerPool PoolCond QueueManagerLoc
  alive : List Request

/-- A step of the queue manager, or the end of one of the workers. -/
inductive PoolLabel
  | manager (action : Action)
  | finish (worker : ℕ)

/-- The worker that a step of the queue manager spawns, if the command has one. -/
def PoolState.spawned (state : PoolState) : PoolLabel → List Request
  | .manager .move =>
    match state.manager.locs () with
    | .spawn request => if (WorkerLoc.start request).isSome then [request] else []
    | .pop | .checkin _ | .checkout => []
  | .manager .critical | .manager .wakeUp | .finish _ => []

/-- The queue manager and the workers take their steps in any order. -/
inductive PoolStep : PoolState → PoolLabel → PoolState → Prop
  | manager {before : PoolState} {action : Action}
      {after : State Unit WorkerPool PoolCond QueueManagerLoc} :
      Step queueManager before.manager ((), action) after →
        PoolStep before (.manager action) ⟨after, before.alive ++ before.spawned (.manager action)⟩
  | finish {before : PoolState} {worker : ℕ} :
      worker < before.alive.length →
        PoolStep before (.finish worker) { before with alive := before.alive.eraseIdx worker }

/-- The queue manager at a location. -/
def PoolState.at (activeWorker : ℤ) (loc : QueueManagerLoc) (alive : List Request) : PoolState :=
  ⟨⟨⟨activeWorker⟩, fun _ => .awake loc⟩, alive⟩

/-- All runs of the queue manager and its workers. -/
def poolSystem : TransitionSystem PoolState PoolLabel where
  initial state := state = .at 0 .pop []
  step := PoolStep

/-! ## The counter -/

/-- Whether the command that is being processed has been checked in. -/
def QueueManagerLoc.checkedIn : QueueManagerLoc → Bool
  | .pop | .checkin _ => false
  | .spawn _ | .checkout => true

/-- The counter counts the queue manager, and no worker. -/
theorem activeWorker_eq {state : PoolState} (reachable : poolSystem.Reachable state) :
    state.manager.shared.activeWorker = if (state.manager.locs ()).checkedIn then 1 else 0 := by
  refine reachable.invariant (I := fun state =>
    state.manager.shared.activeWorker = if (state.manager.locs ()).checkedIn then 1 else 0) ?_ ?_
  · rintro state rfl
    rfl
  · intro before label after counted moved
    cases moved with
    | finish => exact counted
    | manager moved =>
        refine moved.locs_invariant (I := fun pool locs =>
          pool.activeWorker = if (locs ()).checkedIn then 1 else 0) ?_ ?_ counted
        · intro pool locs thread next allowed counted
          rw [Function.update_self]
          cases here : locs thread with
          | pop | spawn =>
              rw [here] at allowed
              rw [here] at counted
              cases allowed
              exact counted
          | checkin | checkout =>
              rw [here] at allowed
              cases allowed
        · intro pool locs thread outcome ran counted
          rw [Function.update_self]
          cases here : locs thread with
          | pop | spawn =>
              rw [here] at ran
              cases ran
          | checkin =>
              rw [here] at ran
              rw [here] at counted
              obtain rfl := Option.some.inj ran
              have zero : pool.activeWorker = 0 := counted
              have passes : ¬ pool.activeWorker ≥ maxThreads := by
                rw [zero]
                decide
              rw [workerThreadCheckin, if_neg passes]
              exact congrArg (· + 1) zero
          | checkout =>
              rw [here] at ran
              rw [here] at counted
              obtain rfl := Option.some.inj ran
              exact congrArg (· - 1) counted

/-- No command waits at the limit. -/
theorem checkin_passes {state : PoolState} (reachable : poolSystem.Reachable state)
    {request : Request} (here : state.manager.locs () = .checkin request) :
    workerThreadCheckin request state.manager.shared = .leave ⟨1⟩ (.spawn request) none := by
  have counted := activeWorker_eq reachable
  rw [here] at counted
  have zero : state.manager.shared.activeWorker = 0 := counted
  rw [workerThreadCheckin, zero]
  rfl

/-! ## The workers alive -/

theorem PoolState.spawned_length_le (state : PoolState) (label : PoolLabel) :
    (state.spawned label).length ≤ 1 := by
  cases label with
  | finish => exact Nat.zero_le _
  | manager action =>
      cases action with
      | critical | wakeUp => exact Nat.zero_le _
      | move =>
          rw [PoolState.spawned]
          cases state.manager.locs () with
          | pop | checkin | checkout => exact Nat.zero_le _
          | spawn request =>
              dsimp only
              split
              · exact le_rfl
              · exact Nat.zero_le _

/-- What `active_worker` has to count at a location of the queue manager: the workers alive
and, from check-in to check-out, the worker of the command. -/
def QueueManagerLoc.toCount (alive : ℕ) : QueueManagerLoc → ℕ
  | .pop | .checkin _ => alive
  | .spawn _ => alive + 1
  | .checkout => max alive 1

/-- The counter counts all workers, and is at most `MAX_THREADS`. -/
structure PoolState.Accounted (state : PoolState) : Prop where
  counts : ((state.manager.locs ()).toCount state.alive.length : ℤ) ≤
    state.manager.shared.activeWorker
  limited : state.manager.shared.activeWorker ≤ maxThreads

/-- When a worker is checked out, every worker has ended. -/
def EndedAtCheckout (state : PoolState) (label : PoolLabel) : Prop :=
  label = .manager .critical → state.manager.locs () = .checkout → state.alive = []

theorem QueueManagerLoc.alive_le_toCount (alive : ℕ) (loc : QueueManagerLoc) :
    alive ≤ loc.toCount alive := by
  cases loc <;> simp [toCount]

theorem QueueManagerLoc.toCount_mono {alive alive' : ℕ} (fewer : alive' ≤ alive)
    (loc : QueueManagerLoc) : loc.toCount alive' ≤ loc.toCount alive := by
  cases loc with
  | pop | checkin => exact fewer
  | spawn => exact Nat.succ_le_succ fewer
  | checkout => exact max_le_max_right 1 fewer

/-- A worker that is checked in is counted, and the limit is kept. -/
theorem workerThreadCheckin_accounted {request : Request} {pool : WorkerPool} {alive : ℕ}
    (counts : (alive : ℤ) ≤ pool.activeWorker) (limited : pool.activeWorker ≤ maxThreads) :
    (((workerThreadCheckin request pool).next.toCount alive : ℕ) : ℤ) ≤
        (workerThreadCheckin request pool).shared.activeWorker ∧
      (workerThreadCheckin request pool).shared.activeWorker ≤ maxThreads := by
  unfold workerThreadCheckin
  split
  · exact ⟨counts, limited⟩
  · simp only [Outcome.next, Outcome.shared, QueueManagerLoc.toCount]
    omega

/-- A step keeps the workers counted, unless it checks out a worker beside one that runs. -/
theorem PoolStep.accounted {before after : PoolState} {label : PoolLabel}
    (moved : PoolStep before label after) (ended : EndedAtCheckout before label)
    (accounted : before.Accounted) : after.Accounted := by
  obtain ⟨counts, limited⟩ := accounted
  cases moved with
  | @finish worker =>
      have fewer := QueueManagerLoc.toCount_mono
        (List.eraseIdx_sublist before.alive worker).length_le (before.manager.locs ())
      exact ⟨(Int.ofNat_le.mpr fewer).trans counts, limited⟩
  | @manager action manager moved =>
      have single := before.spawned_length_le (.manager action)
      obtain ⟨next, rfl, -, allowed, shared, locs⟩ | ⟨outcome, rfl, -, ran, shared, locs⟩ |
        ⟨rfl, shared, locs⟩ := moved.locs_cases
      · constructor
        · simp only [shared, locs, Function.update_self, List.length_append]
          generalize here : before.manager.locs () = loc at allowed counts
          cases allowed with
          | pop =>
              simp only [PoolState.spawned, here, List.length_nil]
              exact counts
          | spawn =>
              simp only [QueueManagerLoc.toCount] at counts ⊢
              omega
        · exact shared ▸ limited
      · simp only [PoolState.spawned, List.append_nil]
        have here : manager.locs () = outcome.next := by rw [locs, Function.update_self]
        suffices kept : (outcome.next.toCount before.alive.length : ℤ) ≤
            outcome.shared.activeWorker ∧ outcome.shared.activeWorker ≤ maxThreads by
          refine ⟨?_, ?_⟩
          · rw [here, shared]
            exact kept.1
          · rw [shared]
            exact kept.2
        have checkedOut := ended rfl
        generalize before.manager.locs () = loc at ran counts checkedOut
        cases loc with
        | pop | spawn => cases ran
        | checkin request =>
            obtain rfl := Option.some.inj ran
            exact workerThreadCheckin_accounted counts limited
        | checkout =>
            obtain rfl := Option.some.inj ran
            rw [checkedOut rfl] at counts ⊢
            simp only [QueueManagerLoc.toCount, workerThreadCheckout, Outcome.next,
              Outcome.shared, List.length_nil] at counts ⊢
            omega
      · simp only [PoolState.spawned, List.append_nil]
        constructor
        · rw [locs, shared]
          exact counts
        · exact shared ▸ limited

/-- **The worker limit.** In a run in which every worker has ended when its command is
checked out, the counter counts all workers, so the check-in keeps them to `MAX_THREADS`. -/
theorem workers_bounded {trace : List (PoolState × PoolLabel)} {state : PoolState}
    (execution : poolSystem.Execution trace state)
    (ended : ∀ visit ∈ trace, EndedAtCheckout visit.1 visit.2) :
    state.alive.length ≤ maxThreads := by
  have accounted : state.Accounted := by
    refine execution.guarded_invariant (G := EndedAtCheckout) (I := PoolState.Accounted)
      ?_ ?_ ended
    · rintro state rfl
      exact ⟨le_rfl, Int.natCast_nonneg _⟩
    · intro before label after accounted ended moved
      exact moved.accounted ended accounted
  have counted := QueueManagerLoc.alive_le_toCount state.alive.length (state.manager.locs ())
  have bounded := accounted.counts.trans accounted.limited
  omega

/-! ## Workers without bound -/

/-- The queue manager moves on outside its sections. -/
theorem PoolStep.moves (activeWorker : ℤ) {loc next : QueueManagerLoc}
    (allowed : QueueManagerMove loc next)
    (alive : List Request) :
    PoolStep (.at activeWorker loc alive) (.manager .move)
      (.at activeWorker next
        (alive ++ (PoolState.at activeWorker loc alive).spawned (.manager .move))) := by
  have moved : Step queueManager (PoolState.at activeWorker loc alive).manager ((), .move) _ :=
    .move () rfl allowed
  have alone : Function.update (PoolState.at activeWorker loc alive).manager.threads ()
      (.awake next) = fun _ => .awake next := funext fun _ => Function.update_self ..
  rw [alone] at moved
  exact .manager moved

/-- The queue manager leaves a section. -/
theorem PoolStep.leaves {activeWorker activeWorker' : ℤ} {loc next : QueueManagerLoc}
    {wake : Option (Wake PoolCond)}
    (ran : queueManager.critical loc ⟨activeWorker⟩ = some (.leave ⟨activeWorker'⟩ next wake))
    (unheard : wake = none ∨ wake = some (.signal .worker)) (alive : List Request) :
    PoolStep (.at activeWorker loc alive) (.manager .critical) (.at activeWorker' next alive) := by
  have woken : Woken wake (fun _ : Unit => .awake next) fun _ => .awake next := by
    rcases unheard with rfl | rfl
    · exact .none _
    · exact .lost fun _ _ same => by cases same
  have alone : Function.update (PoolState.at activeWorker loc alive).manager.threads ()
      (.awake next) = fun _ => .awake next := funext fun _ => Function.update_self ..
  have left : Step queueManager (PoolState.at activeWorker loc alive).manager ((), .critical)
      (PoolState.at activeWorker' next alive).manager := .leave () rfl ran (by rwa [alone])
  have moved := PoolStep.manager left
  rwa [PoolState.spawned, List.append_nil] at moved

/-- The queue manager spawns another worker, whatever workers are alive. -/
theorem reachable_idle_append {alive : List Request}
    (reachable : poolSystem.Reachable (.at 0 .pop alive)) {request : Request}
    (spawns : (WorkerLoc.start request).isSome = true) :
    poolSystem.Reachable (.at 0 .pop (alive ++ [request])) := by
  have pop := PoolStep.moves 0 (.pop request) alive
  have checkin : PoolStep (.at 0 (.checkin request) alive) (.manager .critical)
      (.at 1 (.spawn request) alive) := .leaves rfl (.inl rfl) alive
  have spawn := PoolStep.moves 1 (.spawn request) alive
  have checkout : PoolStep (.at 1 .checkout (alive ++ [request])) (.manager .critical)
      (.at 0 .pop (alive ++ [request])) := .leaves rfl (.inr rfl) _
  have nobody : (PoolState.at 0 .pop alive).spawned (.manager .move) = [] := rfl
  have worker : (PoolState.at 1 (.spawn request) alive).spawned (.manager .move) = [request] :=
    if_pos spawns
  rw [nobody, List.append_nil] at pop
  rw [worker] at spawn
  exact (((reachable.step pop).step checkin).step spawn).step checkout

/-- Two says, the second of which comes when the first has been dealt with. -/
theorem workers_bounded_twice :
    ∃ trace state, poolSystem.Execution trace state ∧ state.alive.length = 1 ∧
      (trace.flatMap fun visit => visit.1.spawned visit.2).length = 2 ∧
      state.alive.length ≤ maxThreads := by
  let request := sampleRequest .say 1 "hello"
  have checkin : PoolStep (.at 0 (.checkin request) []) (.manager .critical)
      (.at 1 (.spawn request) []) := .leaves rfl (.inl rfl) []
  have ends : PoolStep (.at 1 .checkout [request]) (.finish 0) (.at 1 .checkout []) :=
    .finish Nat.one_pos
  have checkout : PoolStep (.at 1 .checkout []) (.manager .critical) (.at 0 .pop []) :=
    .leaves rfl (.inr rfl) []
  have started : poolSystem.Execution [] (.at 0 .pop []) := .start rfl
  have first := ((started.step (PoolStep.moves 0 (.pop request) [])).step checkin).step
    (PoolStep.moves 1 (.spawn request) [])
  have second := ((((first.step ends).step checkout).step
    (PoolStep.moves 0 (.pop request) [])).step checkin).step (PoolStep.moves 1 (.spawn request) [])
  refine ⟨_, _, second, rfl, rfl, workers_bounded second ?_⟩
  simp only [List.nil_append, List.cons_append, List.mem_cons, List.not_mem_nil, or_false]
  rintro visit (rfl | rfl | rfl | rfl | rfl | rfl | rfl | rfl) critical checkedOut
  · cases critical
  · cases checkedOut
  · cases critical
  · cases critical
  · rfl
  · cases critical
  · cases checkedOut
  · cases critical

/-- Any number of workers can be alive. -/
theorem exists_reachable_alive (count : ℕ) :
    ∃ state, poolSystem.Reachable state ∧ state.alive.length = count := by
  have idle : poolSystem.Reachable
      (.at 0 .pop (List.replicate count (sampleRequest .say 1 "hello"))) := by
    induction count with
    | zero => exact .start rfl
    | succ count ih =>
        rw [List.replicate_succ']
        exact reachable_idle_append ih rfl
  exact ⟨_, idle, List.length_replicate⟩

/-- More than `MAX_THREADS` workers. -/
theorem worker_limit_exceeded :
    ∃ state, poolSystem.Reachable state ∧ maxThreads < state.alive.length := by
  obtain ⟨state, reachable, count⟩ := exists_reachable_alive (maxThreads + 1)
  exact ⟨state, reachable, by omega⟩

end MultithreadedChat
