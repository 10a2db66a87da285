import MultithreadedChat.Foundation.Demand
import MultithreadedChat.Queue

/-! # No lost wake-up in the queue

Any number of producers and consumers. The messages in the queue are the demand
behind `nonempty`, its free slots the one behind `nonfull`; an append turns a free slot
into a message and signals, a pop does the opposite. Hence sleepers never wait beside
work that nobody awake is about to test for (`MultithreadedChat.queue_no_lost_wakeup`).
-/

namespace MultithreadedChat

open ConditionVariable

namespace Queue

variable (queue : Queue)

/-- The number of messages from the head to the tail. -/
def items : ℤ := ((queue.tail.val + queueMax - queue.head.val) % queueMax : ℕ)

/-- The number of messages there is still room for. -/
def room : ℤ := queueMax - 1 - queue.items

variable {queue}

theorem empty_iff_items : queue.Empty ↔ queue.items = 0 := by
  have head := queue.head.isLt
  have tail := queue.tail.isLt
  rw [Empty, Fin.ext_iff, items]
  dsimp only [queueMax] at *
  omega

theorem full_iff_room : queue.Full ↔ queue.room = 0 := by
  have head := queue.head.isLt
  have tail := queue.tail.isLt
  rw [Full, Fin.ext_iff, room, items, nextSlot]
  dsimp only [queueMax] at *
  omega

theorem items_nonneg : 0 ≤ queue.items := Int.natCast_nonneg _

theorem room_nonneg : 0 ≤ queue.room := by
  rw [room, items]
  dsimp only [queueMax]
  omega

theorem items_append (room : ¬ queue.Full) (msg : List UInt8) (fromAddr : Option SockAddrIn) :
    (queue.append msg fromAddr).items = queue.items + 1 := by
  have head := queue.head.isLt
  have tail := queue.tail.isLt
  rw [Full, Fin.ext_iff, nextSlot] at room
  have advanced : (queue.append msg fromAddr).tail.val = (queue.tail.val + 1) % queueMax := rfl
  have kept : (queue.append msg fromAddr).head = queue.head := rfl
  rw [items, items, advanced, kept]
  dsimp only [queueMax] at *
  omega

theorem items_pop (waiting : ¬ queue.Empty) : queue.pop.1.items + 1 = queue.items := by
  have head := queue.head.isLt
  have tail := queue.tail.isLt
  rw [Empty, Fin.ext_iff] at waiting
  have advanced : queue.pop.1.head.val = (queue.head.val + 1) % queueMax := rfl
  have kept : queue.pop.1.tail = queue.tail := rfl
  rw [items, items, advanced, kept]
  dsimp only [queueMax] at *
  omega

end Queue

/-- A thread inside `q_pop`, before its test. -/
def QueueLoc.pops : QueueLoc → Bool
  | .popping _ => true
  | _ => false

/-- A thread inside `q_append`, before its test. -/
def QueueLoc.appends : QueueLoc → Bool
  | .appending .. => true
  | _ => false

/-- A section of the queue: an append or a pop, which finds its test met or not. -/
theorem queueProgram_cases {loc : QueueLoc} {queue : Queue}
    {outcome : Outcome Queue QueueCond QueueLoc}
    (ran : queueProgram.critical loc queue = some outcome) :
    (∃ msg fromAddr, loc = .appending msg fromAddr ∧
      (queue.Full ∧ outcome = .wait queue .nonfull loc ∨
        ¬ queue.Full ∧ outcome =
          .leave (queue.append msg fromAddr) .producing (some (.signal .nonempty)))) ∨
      (∃ held, loc = .popping held ∧
        (queue.Empty ∧ outcome = .wait queue .nonempty loc ∨
          ¬ queue.Empty ∧ outcome =
            .leave queue.pop.1 (.consuming (some queue.pop.2)) (some (.signal .nonfull)))) := by
  cases loc with
  | producing | consuming => cases ran
  | appending msg fromAddr =>
      obtain rfl := Option.some.inj ran
      refine .inl ⟨msg, fromAddr, rfl, ?_⟩
      by_cases full : queue.Full
      · exact .inl ⟨full, qAppend_full full⟩
      · exact .inr ⟨full, qAppend_room full⟩
  | popping held =>
      obtain rfl := Option.some.inj ran
      refine .inr ⟨held, rfl, ?_⟩
      by_cases empty : queue.Empty
      · exact .inl ⟨empty, qPop_empty empty⟩
      · exact .inr ⟨empty, qPop_waiting empty⟩

/-- The messages are the work of the consumers. -/
def itemsDemand : Demand queueProgram .nonempty where
  work := Queue.items
  kind := QueueLoc.pops
  moves call pops := by
    cases call with
    | append => cases pops
    | pop => rfl
  sleeps ran := by
    rcases queueProgram_cases ran with ⟨_, _, _, ⟨_, same⟩ | ⟨_, same⟩⟩ |
      ⟨held, rfl, ⟨empty, same⟩ | ⟨_, same⟩⟩
    all_goals cases same
    exact ⟨rfl, (Queue.empty_iff_items.mp empty).le⟩
  elsewhere ran other := by
    rcases queueProgram_cases ran with ⟨_, _, rfl, ⟨_, same⟩ | ⟨_, same⟩⟩ |
      ⟨_, _, ⟨_, same⟩ | ⟨_, same⟩⟩
    all_goals cases same
    · exact le_of_eq (add_zero _)
    · exact absurd rfl other
  leaves ran := by
    rcases queueProgram_cases ran with ⟨msg, fromAddr, rfl, ⟨_, same⟩ | ⟨room, same⟩⟩ |
      ⟨held, rfl, ⟨_, same⟩ | ⟨waiting, same⟩⟩
    all_goals cases same
    · refine .inr (.inl ⟨rfl, ?_⟩)
      rw [Queue.items_append room]
      simp [QueueLoc.pops]
    · refine .inl ?_
      have taken := Queue.items_pop waiting
      simp only [QueueLoc.pops, if_true, Bool.false_eq_true, if_false]
      omega

/-- The free slots are the work of the producers. -/
def roomDemand : Demand queueProgram .nonfull where
  work := Queue.room
  kind := QueueLoc.appends
  moves call appends := by
    cases call with
    | append => rfl
    | pop => cases appends
  sleeps ran := by
    rcases queueProgram_cases ran with ⟨_, _, rfl, ⟨full, same⟩ | ⟨_, same⟩⟩ |
      ⟨_, _, ⟨_, same⟩ | ⟨_, same⟩⟩
    all_goals cases same
    exact ⟨rfl, (Queue.full_iff_room.mp full).le⟩
  elsewhere ran other := by
    rcases queueProgram_cases ran with ⟨_, _, _, ⟨_, same⟩ | ⟨_, same⟩⟩ |
      ⟨_, rfl, ⟨_, same⟩ | ⟨_, same⟩⟩
    all_goals cases same
    · exact absurd rfl other
    · exact le_of_eq (add_zero _)
  leaves ran := by
    rcases queueProgram_cases ran with ⟨msg, fromAddr, rfl, ⟨_, same⟩ | ⟨room, same⟩⟩ |
      ⟨held, rfl, ⟨_, same⟩ | ⟨waiting, same⟩⟩
    all_goals cases same
    · refine .inl ?_
      have stored := Queue.items_append room msg fromAddr
      simp only [Queue.room, QueueLoc.appends, if_true, Bool.false_eq_true, if_false]
      omega
    · refine .inr (.inl ⟨rfl, ?_⟩)
      have taken := Queue.items_pop waiting
      simp only [Queue.room, QueueLoc.appends, Bool.false_eq_true, if_false]
      omega

variable {ι : Type*} [DecidableEq ι] [Fintype ι]

omit [DecidableEq ι] [Fintype ι] in
/-- Nobody sleeps at first. -/
theorem rested_at_start {consumers : ι → Bool} (cond : QueueCond) (state : QueueState ι)
    (started : ∃ data, state = QueueState.start consumers data) (thread : ι) (loc : QueueLoc) :
    state.threads thread ≠ .asleep cond loc := by
  obtain ⟨data, rfl⟩ := started
  intro asleep
  cases asleep

section Woken

variable {consumers : ι → Bool} {state : QueueState ι}
  (reachable : (queueSystem consumers).Reachable state)
include reachable

/-- Somebody is about to test for the messages that a sleeper waits for. -/
theorem exists_popping (waiting : ¬ state.shared.Empty) {sleeper : ι} {loc : QueueLoc}
    (sleeping : state.threads sleeper = .asleep .nonempty loc) :
    ∃ thread held, state.threads thread = .awake (.popping held) := by
  have work : 0 < state.shared.items :=
    Queue.items_nonneg.lt_of_ne fun none => waiting (Queue.empty_iff_items.mpr none.symm)
  obtain ⟨thread, here, awake, pops⟩ :=
    (itemsDemand.met (rested_at_start _) reachable).exists_awake work sleeping
  cases here with
  | popping held => exact ⟨thread, held, awake⟩
  | producing | consuming | appending => cases pops

/-- Somebody is about to test for the room that a sleeper waits for. -/
theorem exists_appending (room : ¬ state.shared.Full) {sleeper : ι} {loc : QueueLoc}
    (sleeping : state.threads sleeper = .asleep .nonfull loc) :
    ∃ thread msg fromAddr, state.threads thread = .awake (.appending msg fromAddr) := by
  have work : 0 < state.shared.room :=
    Queue.room_nonneg.lt_of_ne fun none => room (Queue.full_iff_room.mpr none.symm)
  obtain ⟨thread, here, awake, appends⟩ :=
    (roomDemand.met (rested_at_start _) reachable).exists_awake work sleeping
  cases here with
  | appending msg fromAddr => exact ⟨thread, msg, fromAddr, awake⟩
  | producing | consuming | popping => cases appends

end Woken

/-- **No lost wake-up in the queue.** While the queue is not empty and a thread sleeps
on `nonempty`, some thread is awake in `q_pop` before its test; while it is not full and
a thread sleeps on `nonfull`, some thread is awake in `q_append` before its test. -/
theorem queue_no_lost_wakeup {consumers : ι → Bool} {state : QueueState ι}
    (reachable : (queueSystem consumers).Reachable state) :
    (¬ state.shared.Empty → (∃ sleeper loc, state.threads sleeper = .asleep .nonempty loc) →
        ∃ thread held, state.threads thread = .awake (.popping held)) ∧
      (¬ state.shared.Full → (∃ sleeper loc, state.threads sleeper = .asleep .nonfull loc) →
        ∃ thread msg fromAddr, state.threads thread = .awake (.appending msg fromAddr)) := by
  constructor
  · rintro waiting ⟨sleeper, loc, sleeping⟩
    exact exists_popping reachable waiting sleeping
  · rintro room ⟨sleeper, loc, sleeping⟩
    exact exists_appending reachable room sleeping

/-- Two consumers sleep, and an append wakes one of them. -/
theorem queue_no_lost_wakeup_append :
    ∃ state : QueueState (Fin 3), ¬ state.shared.Empty ∧
      (∃ loc, state.threads 1 = .asleep .nonempty loc) ∧
      ∃ thread held, state.threads thread = .awake (.popping held) := by
  let cleared : QueueNode := ⟨.strncpy queueMsgSize [], ⟨0, 0, 0, 0⟩, false⟩
  let consumers : Fin 3 → Bool := fun thread => thread ≠ 2
  have start : (queueSystem consumers).Reachable (QueueState.start consumers fun _ => cleared) :=
    .start ⟨_, rfl⟩
  have first := (start.step (.move 0 rfl (.pop none))).step (.wait 0 rfl rfl)
  have second := (first.step (.move 1 rfl (.pop none))).step (.wait 1 rfl rfl)
  have appended := (second.step (.move 2 rfl (.append (CString.ascii "say$ hello") none))).step
    (.leave 2 rfl (congrArg some (qAppend_room (by decide))) (.one 0 rfl))
  have stored :
      ¬ ((queueInit fun _ => cleared).append (CString.ascii "say$ hello") none).Empty := by
    decide
  exact ⟨_, stored, ⟨_, rfl⟩, (queue_no_lost_wakeup appended).1 stored ⟨1, _, rfl⟩⟩

end MultithreadedChat
