import MultithreadedChat.Command
import MultithreadedChat.Foundation.ByteBuffer
import MultithreadedChat.Foundation.ConditionVariable

/-! # The message queue

The ring of messages between the listener and the queue manager, in both programs.
`q_pop` tokenises the message in its slot and hands out pointers into the slot,
which are read after the lock is released (`MultithreadedChat.Popped.words`).

With one consumer the slot is safe until the next `q_pop` has returned: the ring
keeps one slot unused, and after a pop that slot is the popped one or a later one
(`MultithreadedChat.queue_slot_stable`).
-/

namespace MultithreadedChat

open ConditionVariable

abbrev queueMax : ℕ := 256
abbrev queueMsgSize : ℕ := 512
abbrev maxCommandLen : ℕ := 50

/-- `queue_node_t`. -/
structure QueueNode where
  msg : ByteBuffer queueMsgSize
  fromAddr : SockAddrIn
  hasAddr : Bool
  deriving DecidableEq

/-- `Queue`. -/
structure Queue where
  data : Fin queueMax → QueueNode
  head : Fin queueMax
  tail : Fin queueMax
  size : ℤ

/-- `queue_init`; the slots keep whatever the memory held. -/
def queueInit (data : Fin queueMax → QueueNode) : Queue := ⟨data, 0, 0, 0⟩

/-- `(i + 1) % QUEUE_MAX`. -/
def nextSlot (slot : Fin queueMax) : Fin queueMax :=
  ⟨(slot.val + 1) % queueMax, Nat.mod_lt _ (by decide)⟩

/-- `remove_dollar_sign`. -/
def removeDollarSign (str : ByteBuffer queueMsgSize) : ByteBuffer queueMsgSize :=
  match str.strchr (UInt8.ofNat '$'.toNat) with
  | none => str
  | some p => str.memmove p (p + 1) (str.string p).length

/-- The space between words. -/
def blank : UInt8 := UInt8.ofNat ' '.toNat

/-- The loop of `get_and_tokenise`, with room for so many more tokens; a token is
its offset in the message. -/
def tokeniseLoop : ℕ → ByteBuffer queueMsgSize → Option ℕ → ℕ → ByteBuffer queueMsgSize × List ℕ
  | 0, msg, _, _ => (msg, [])
  | _ + 1, msg, none, _ => (msg, [])
  | room + 1, msg, some token, start =>
    let (msg, next, start) := msg.strtok blank start
    let (msg, tokens) := tokeniseLoop room msg next start
    (msg, token :: tokens)

/-- `get_and_tokenise`. The tokens before the terminating `NULL`, as offsets. -/
def getAndTokenise (msg : ByteBuffer queueMsgSize) : ByteBuffer queueMsgSize × List ℕ :=
  let msg := removeDollarSign msg
  let (msg, token, start) := msg.strtok blank 0
  tokeniseLoop (maxCommandLen - 1) msg token start

/-- What a `q_pop` returned: the slot its token pointers lead into, the tokens, and
the sender's address. `atReturn` is not in the source: it remembers the slot as
`q_pop` left it. -/
structure Popped where
  slot : Fin queueMax
  tokens : List ℕ
  sender : SockAddrIn
  atReturn : QueueNode

/-- The words read through the token pointers, from the queue as it is now. -/
def Popped.words (popped : Popped) (queue : Queue) : List (List UInt8) :=
  popped.tokens.map (queue.data popped.slot).msg.string

/-- The words the pop dequeued. -/
def Popped.dequeued (popped : Popped) : List (List UInt8) :=
  popped.tokens.map popped.atReturn.msg.string

namespace Queue

variable (queue : Queue)

/-- The test of `q_append`. -/
def Full : Prop := nextSlot queue.tail = queue.head

/-- The test of `q_pop`. -/
def Empty : Prop := queue.head = queue.tail

instance : Decidable queue.Full := inferInstanceAs (Decidable (_ = _))

instance : Decidable queue.Empty := inferInstanceAs (Decidable (_ = _))

/-- `q_append` behind its loop. Without an address the old one stays in the slot. -/
def append (msg : List UInt8) (fromAddr : Option SockAddrIn) : Queue :=
  let node := queue.data queue.tail
  let copied := (ByteBuffer.strncpy queueMsgSize msg).set (queueMsgSize - 1) 0
  let filled : QueueNode := match fromAddr with
    | some addr => ⟨copied, addr, true⟩
    | none => ⟨copied, node.fromAddr, false⟩
  { data := Function.update queue.data queue.tail filled
    head := queue.head
    tail := nextSlot queue.tail
    size := queue.size + 1 }

/-- `q_pop` behind its loop. A caller that passes `NULL` ignores the sender. -/
def pop : Queue × Popped :=
  let idx := queue.head
  let node := queue.data idx
  let tokenised := getAndTokenise node.msg
  let node := { node with msg := tokenised.1 }
  let sender := if node.hasAddr then node.fromAddr else ⟨0, 0, 0, 0⟩
  ({ data := Function.update queue.data idx node
     head := nextSlot queue.head
     tail := queue.tail
     size := queue.size - 1 },
    ⟨idx, tokenised.2, sender, node⟩)

@[simp] theorem pop_data : queue.pop.1.data queue.head = queue.pop.2.atReturn :=
  Function.update_self ..

/-- An append writes one slot, the one at the tail. -/
theorem append_data {msg : List UInt8} {fromAddr : Option SockAddrIn} {slot : Fin queueMax}
    (elsewhere : slot ≠ queue.tail) : (queue.append msg fromAddr).data slot = queue.data slot :=
  Function.update_of_ne elsewhere ..

end Queue

/-- The two condition variables of the queue. -/
inductive QueueCond
  | nonempty
  | nonfull
  deriving DecidableEq, Repr

/-- Where a thread stands with respect to the queue. A consumer holds the tokens of
its last pop until its next one has returned. -/
inductive QueueLoc
  | producing
  | appending (msg : List UInt8) (fromAddr : Option SockAddrIn)
  | consuming (held : Option Popped)
  | popping (held : Option Popped)

/-- The tokens a thread can still read. -/
def QueueLoc.held : QueueLoc → Option Popped
  | .consuming held | .popping held => held
  | _ => none

/-- Whether a thread calls `q_pop`. -/
def QueueLoc.consumes : QueueLoc → Bool
  | .consuming _ | .popping _ => true
  | _ => false

/-- `q_append`, from the test of its loop. -/
def qAppend (queue : Queue) (msg : List UInt8) (fromAddr : Option SockAddrIn) :
    Outcome Queue QueueCond QueueLoc :=
  if queue.Full then .wait queue .nonfull (.appending msg fromAddr)
  else .leave (queue.append msg fromAddr) .producing (some (.signal .nonempty))

/-- `q_pop`, from the test of its loop. -/
def qPop (queue : Queue) (held : Option Popped) : Outcome Queue QueueCond QueueLoc :=
  if queue.Empty then .wait queue .nonempty (.popping held)
  else .leave queue.pop.1 (.consuming (some queue.pop.2)) (some (.signal .nonfull))

section Sections

variable {queue : Queue} {msg : List UInt8} {fromAddr : Option SockAddrIn} {held : Option Popped}

theorem qAppend_full (full : queue.Full) :
    qAppend queue msg fromAddr = .wait queue .nonfull (.appending msg fromAddr) :=
  if_pos full

theorem qAppend_room (room : ¬ queue.Full) :
    qAppend queue msg fromAddr =
      .leave (queue.append msg fromAddr) .producing (some (.signal .nonempty)) :=
  if_neg room

theorem qPop_empty (empty : queue.Empty) :
    qPop queue held = .wait queue .nonempty (.popping held) :=
  if_pos empty

theorem qPop_waiting (waiting : ¬ queue.Empty) :
    qPop queue held =
      .leave queue.pop.1 (.consuming (some queue.pop.2)) (some (.signal .nonfull)) :=
  if_neg waiting

end Sections

/-- Calling `q_append` with any message, or `q_pop`. -/
inductive QueueCall : QueueLoc → QueueLoc → Prop
  | append (msg : List UInt8) (fromAddr : Option SockAddrIn) :
      QueueCall .producing (.appending msg fromAddr)
  | pop (held : Option Popped) : QueueCall (.consuming held) (.popping held)

/-- Threads that append, and threads that pop and read the tokens. -/
def queueProgram : Program Queue QueueCond QueueLoc where
  move := QueueCall
  critical
    | .appending msg fromAddr, queue => some (qAppend queue msg fromAddr)
    | .popping held, queue => some (qPop queue held)
    | .producing, _ | .consuming _, _ => none

variable {ι : Type*}

abbrev QueueState (ι : Type*) := State ι Queue QueueCond QueueLoc

/-- A fresh queue with given consumers; the other threads are producers. -/
def QueueState.start (consumers : ι → Bool) (data : Fin queueMax → QueueNode) : QueueState ι :=
  ⟨queueInit data, fun thread => .awake (if consumers thread then .consuming none else .producing)⟩

variable [DecidableEq ι]

/-- All runs of a queue with the given consumers. -/
def queueSystem (consumers : ι → Bool) : TransitionSystem (QueueState ι) (ι × Action) :=
  queueProgram.system fun state => ∃ data, state = QueueState.start consumers data

/-- With one consumer: nobody else pops, and the tokens it holds lead into the slot
just behind the head, which is as the pop left it. -/
structure SlotStable (consumer : ι) (queue : Queue) (locs : ι → QueueLoc) : Prop where
  alone : ∀ thread, (locs thread).consumes = true → thread = consumer
  behind : ∀ popped, (locs consumer).held = some popped → nextSlot popped.slot = queue.head
  kept : ∀ popped, (locs consumer).held = some popped → queue.data popped.slot = popped.atReturn

/-- Calling a routine changes neither the tokens held nor the role of a thread. -/
theorem queueCall_kinds {loc next : QueueLoc} (call : QueueCall loc next) :
    next.held = loc.held ∧ next.consumes = loc.consumes := by
  cases call <;> exact ⟨rfl, rfl⟩

namespace SlotStable

variable {consumer : ι} {queue : Queue} {locs : ι → QueueLoc}

/-- A thread that changes its location, but not its role or its tokens. -/
theorem relocate (stable : SlotStable consumer queue locs) {thread : ι} {next : QueueLoc}
    (held : next.held = (locs thread).held) (consumes : next.consumes = (locs thread).consumes) :
    SlotStable consumer queue (Function.update locs thread next) := by
  have sameHeld : ∀ other, (Function.update locs thread next other).held = (locs other).held := by
    intro other
    by_cases same : other = thread
    · rw [same, Function.update_self, held]
    · rw [Function.update_of_ne same]
  constructor
  · intro other pops
    by_cases same : other = thread
    · rw [same, Function.update_self, consumes] at pops
      exact same ▸ stable.alone thread pops
    · rw [Function.update_of_ne same] at pops
      exact stable.alone other pops
  · intro popped holds
    exact stable.behind popped (sameHeld consumer ▸ holds)
  · intro popped holds
    exact stable.kept popped (sameHeld consumer ▸ holds)

omit [DecidableEq ι] in
/-- While the queue is not full, the slot an append writes is not the popped one. -/
theorem tail_ne (stable : SlotStable consumer queue locs) (room : ¬ queue.Full) {popped : Popped}
    (holds : (locs consumer).held = some popped) : popped.slot ≠ queue.tail := by
  intro same
  apply room
  rw [Queue.Full, ← same]
  exact stable.behind popped holds

omit [DecidableEq ι] in
theorem append (stable : SlotStable consumer queue locs) (room : ¬ queue.Full)
    (msg : List UInt8) (fromAddr : Option SockAddrIn) :
    SlotStable consumer (queue.append msg fromAddr) locs := by
  refine ⟨stable.alone, stable.behind, ?_⟩
  intro popped holds
  rw [Queue.append_data _ (stable.tail_ne room holds)]
  exact stable.kept popped holds

theorem pop (stable : SlotStable consumer queue locs) :
    SlotStable consumer queue.pop.1
      (Function.update locs consumer (.consuming (some queue.pop.2))) := by
  constructor
  · intro thread pops
    by_cases same : thread = consumer
    · exact same
    · rw [Function.update_of_ne same] at pops
      exact stable.alone thread pops
  · intro popped holds
    rw [Function.update_self] at holds
    cases holds
    rfl
  · intro popped holds
    rw [Function.update_self] at holds
    cases holds
    exact queue.pop_data

/-- Every section keeps the slot of the last pop. -/
theorem critical (stable : SlotStable consumer queue locs) {thread : ι}
    {outcome : Outcome Queue QueueCond QueueLoc}
    (ran : queueProgram.critical (locs thread) queue = some outcome) :
    SlotStable consumer outcome.shared (Function.update locs thread outcome.next) := by
  cases here : locs thread with
  | producing | consuming =>
      rw [here] at ran
      cases ran
  | appending msg fromAddr =>
      rw [here] at ran
      obtain rfl := Option.some.inj ran
      by_cases full : queue.Full
      · rw [qAppend_full full]
        exact stable.relocate (by rw [here]; rfl) (by rw [here]; rfl)
      · rw [qAppend_room full]
        exact (stable.append full msg fromAddr).relocate (by rw [here]; rfl) (by rw [here]; rfl)
  | popping held =>
      have itself : thread = consumer := stable.alone thread (by rw [here]; rfl)
      subst itself
      rw [here] at ran
      obtain rfl := Option.some.inj ran
      by_cases empty : queue.Empty
      · rw [qPop_empty empty]
        exact stable.relocate (by rw [here]; rfl) (by rw [here]; rfl)
      · rw [qPop_waiting empty]
        exact stable.pop

end SlotStable

/-- The popped slot is stable in every reachable state. -/
theorem slotStable_of_reachable {consumers : ι → Bool} {consumer : ι}
    (only : ∀ thread, consumers thread = true → thread = consumer) {state : QueueState ι}
    (reachable : (queueSystem consumers).Reachable state) :
    SlotStable consumer state.shared state.locs := by
  refine reachable.invariant (I := fun state => SlotStable consumer state.shared state.locs) ?_ ?_
  · rintro state ⟨data, rfl⟩
    have nothing : ∀ thread, (if consumers thread then QueueLoc.consuming none
        else .producing).held = none := by
      intro thread
      split <;> rfl
    constructor
    · intro thread pops
      apply only
      by_contra produces
      simp [QueueState.start, State.locs, produces, QueueLoc.consumes] at pops
    · intro popped holds
      cases (nothing consumer).symm.trans holds
    · intro popped holds
      cases (nothing consumer).symm.trans holds
  · intro before label after stable moved
    refine moved.locs_invariant (fun _ _ thread _ call stable => ?_)
      (fun _ _ _ _ ran stable => stable.critical ran) stable
    obtain ⟨held, consumes⟩ := queueCall_kinds call
    exact stable.relocate held consumes

/-- **Slot stability after a pop.** With one consumer and any number of producers,
from a `q_pop` until the consumer's next one has advanced the head, no `q_append`
writes the popped slot, and the words read through the token pointers are the ones
that were dequeued. -/
theorem queue_slot_stable {consumers : ι → Bool} {consumer : ι}
    (only : ∀ thread, consumers thread = true → thread = consumer) {state : QueueState ι}
    (reachable : (queueSystem consumers).Reachable state) {popped : Popped}
    (holds : (state.locs consumer).held = some popped) :
    (∀ msg fromAddr queue next wake,
        qAppend state.shared msg fromAddr = .leave queue next wake →
          state.shared.tail ≠ popped.slot ∧
            queue.data popped.slot = state.shared.data popped.slot) ∧
      state.shared.data popped.slot = popped.atReturn ∧
      popped.words state.shared = popped.dequeued := by
  have stable := slotStable_of_reachable only reachable
  have kept := stable.kept popped holds
  refine ⟨?_, kept, ?_⟩
  · intro msg fromAddr queue next wake appended
    have room : ¬ state.shared.Full := by
      intro full
      rw [qAppend_full full] at appended
      cases appended
    rw [qAppend_room room] at appended
    cases appended
    have apart := stable.tail_ne room holds
    exact ⟨apart.symm, Queue.append_data _ apart⟩
  · rw [Popped.words, kept, Popped.dequeued]

/-- A message was appended and popped, and another one appended behind it. -/
theorem queue_slot_stable_followed :
    ∃ (state : QueueState (Fin 2)) (popped : Popped),
      (state.locs 0).held = some popped ∧ state.shared.size = 1 ∧
        popped.words state.shared = popped.dequeued := by
  let cleared : QueueNode := ⟨.strncpy queueMsgSize [], ⟨0, 0, 0, 0⟩, false⟩
  let consumers : Fin 2 → Bool := fun thread => thread = 0
  have start : (queueSystem consumers).Reachable (QueueState.start consumers fun _ => cleared) :=
    .start ⟨_, rfl⟩
  have asleep := (start.step (.move 0 rfl (.pop none))).step (.wait 0 rfl rfl)
  have appended := (asleep.step (.move 1 rfl (.append (CString.ascii "say$ hello") none))).step
    (.leave 1 rfl (congrArg some (qAppend_room (by decide))) (.one 0 rfl))
  have popped := appended.step (.leave 0 rfl (congrArg some (qPop_waiting (by decide)))
    (.lost (Fin.forall_fin_two.mpr ⟨nofun, nofun⟩)))
  have followed := (popped.step (.move 1 rfl (.append (CString.ascii "disconn$") none))).step
    (.leave 1 rfl (congrArg some (qAppend_room (by decide)))
      (.lost (Fin.forall_fin_two.mpr ⟨nofun, nofun⟩)))
  have only : ∀ thread, consumers thread = true → thread = 0 := by decide
  have stable := queue_slot_stable only followed rfl
  exact ⟨_, _, rfl, rfl, stable.2.2⟩

end MultithreadedChat
