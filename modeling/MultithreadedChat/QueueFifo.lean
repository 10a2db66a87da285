import MultithreadedChat.Foundation.Fifo
import MultithreadedChat.MessageWords

/-! # The queue as a FIFO

The queue under calls of `q_append` and `q_pop` that pass their tests. Its slots from
the head to the tail hold the messages appended and not popped yet
(`MultithreadedChat.Queue.Represents`), which makes it an implementation of a FIFO
of at most `QUEUE_MAX - 1` messages (`MultithreadedChat.queueSimulation`). A slot is
tokenised in place when it is popped, and is outside the contents from then on.
-/

namespace MultithreadedChat

instance : NeZero queueMax := ⟨by decide⟩

/-- A message as the queue keeps it, with the address it came from. -/
structure Message where
  text : CString queueMsgSize
  fromAddr : Option SockAddrIn
  deriving DecidableEq

/-- What an append stores of its arguments. -/
def Message.stored (msg : List UInt8) (fromAddr : Option SockAddrIn) : Message :=
  ⟨.ofBytes queueMsgSize msg, fromAddr⟩

/-- A slot holds a message. -/
structure QueueNode.Holds (node : QueueNode) (message : Message) : Prop where
  text : node.msg.string 0 = message.text.bytes
  addressed : node.hasAddr = message.fromAddr.isSome
  address : ∀ addr, message.fromAddr = some addr → node.fromAddr = addr

/-- A pop yields a message: its words, and its address or zeros. -/
structure Popped.Yields (popped : Popped) (message : Message) : Prop where
  words : popped.dequeued = messageWords message.text.bytes
  sender : popped.sender = message.fromAddr.getD ⟨0, 0, 0, 0⟩

/-- A call that has passed its test: an append, or a pop with what it returned. -/
inductive QueueOp
  | append (msg : List UInt8) (fromAddr : Option SockAddrIn)
  | pop (popped : Popped)

/-- The effects of the calls that pass their tests. -/
inductive QueueStep : Queue → QueueOp → Queue → Prop
  | append {queue : Queue} (msg : List UInt8) (fromAddr : Option SockAddrIn) : ¬ queue.Full →
      QueueStep queue (.append msg fromAddr) (queue.append msg fromAddr)
  | pop {queue : Queue} : ¬ queue.Empty → QueueStep queue (.pop queue.pop.2) queue.pop.1

/-- The runs of a queue from `queue_init`, one call at a time. -/
def queueCalls : TransitionSystem Queue QueueOp where
  initial queue := ∃ data, queue = queueInit data
  step := QueueStep

/-- The messages appended in a run. -/
def appendedMessages (trace : List (Queue × QueueOp)) : List Message :=
  trace.filterMap fun
    | (_, .append msg fromAddr) => some (.stored msg fromAddr)
    | (_, .pop _) => none

/-- What the pops of a run returned. -/
def poppedMessages (trace : List (Queue × QueueOp)) : List Popped :=
  trace.filterMap fun
    | (_, .append ..) => none
    | (_, .pop popped) => some popped

namespace Queue

variable {queue : Queue} {contents : List Message}

/-- The slot so many behind the head. -/
def slotAt (queue : Queue) (offset : ℕ) : Fin queueMax :=
  ⟨(queue.head.val + offset) % queueMax, Nat.mod_lt _ (by decide)⟩

theorem slotAt_val (queue : Queue) (offset : ℕ) :
    (queue.slotAt offset).val = (queue.head.val + offset) % 256 := rfl

theorem nextSlot_val (slot : Fin queueMax) : (nextSlot slot).val = (slot.val + 1) % 256 := rfl

/-- The queue stores a sequence of messages: they are in the slots from the head on,
the tail is behind them, and the counter counts them. -/
structure Represents (queue : Queue) (contents : List Message) : Prop where
  length_lt : contents.length < 256
  tail : queue.tail.val = (queue.head.val + contents.length) % 256
  size : queue.size = contents.length
  holds : ∀ (i : ℕ) (within : i < contents.length), (queue.data (queue.slotAt i)).Holds contents[i]

/-- The queue starts without messages. -/
theorem represents_init (data : Fin queueMax → QueueNode) : (queueInit data).Represents [] where
  length_lt := by decide
  tail := rfl
  size := rfl
  holds := fun i within => absurd within (Nat.not_lt_zero i)

/-- The slot an append writes. -/
theorem append_holds (msg : List UInt8) (fromAddr : Option SockAddrIn) :
    ((queue.append msg fromAddr).data queue.tail).Holds (.stored msg fromAddr) := by
  have text := storedMsg_string msg
  have written : (queue.append msg fromAddr).data queue.tail = _ := Function.update_self ..
  rw [written]
  cases fromAddr with
  | none => exact ⟨text, rfl, fun _ none => by cases none⟩
  | some addr => exact ⟨text, rfl, fun _ same => Option.some.inj same⟩

/-- What a pop returns of the message in the slot at the head. -/
theorem pop_yields {message : Message} (held : (queue.data queue.head).Holds message) :
    queue.pop.2.Yields message := by
  constructor
  · rw [← held.text, ← getAndTokenise_words]
    rfl
  · have address := held.address
    have addressed := held.addressed
    unfold pop
    cases known : message.fromAddr with
    | none =>
        rw [known] at addressed
        simp [addressed]
    | some addr =>
        rw [known] at addressed
        simp [addressed, address addr known]

namespace Represents

variable (represents : queue.Represents contents)
include represents

theorem empty_iff : queue.Empty ↔ contents.length = 0 := by
  have short := represents.length_lt
  have behind := represents.tail
  have bound : queue.head.val < 256 := queue.head.isLt
  rw [Empty, Fin.ext_iff]
  omega

theorem full_iff : queue.Full ↔ contents.length = queueMax - 1 := by
  have short := represents.length_lt
  have behind := represents.tail
  have bound : queue.head.val < 256 := queue.head.isLt
  rw [Full, Fin.ext_iff, nextSlot_val]
  dsimp only [queueMax]
  omega

/-- The distance of the indices is the number of messages. -/
theorem distance : ((queue.tail.val : ℤ) - queue.head.val) % queueMax = contents.length := by
  have short := represents.length_lt
  have behind := represents.tail
  dsimp only [queueMax]
  omega

/-- An append stores the message behind the others. -/
theorem append (room : ¬ queue.Full) (msg : List UInt8) (fromAddr : Option SockAddrIn) :
    (queue.append msg fromAddr).Represents (contents ++ [.stored msg fromAddr]) := by
  have short := represents.length_lt
  have notLast : contents.length ≠ 255 := fun last => room (represents.full_iff.mpr last)
  have bound : queue.head.val < 256 := queue.head.isLt
  have behind := represents.tail
  have longer : (contents ++ [Message.stored msg fromAddr]).length = contents.length + 1 := by
    rw [List.length_append, List.length_singleton]
  constructor
  · omega
  · have moved : (queue.append msg fromAddr).tail.val = (queue.tail.val + 1) % 256 := rfl
    have same : (queue.append msg fromAddr).head = queue.head := rfl
    rw [moved, same]
    omega
  · have counted : (queue.append msg fromAddr).size = queue.size + 1 := rfl
    rw [counted, represents.size, longer]
    rfl
  · intro i within
    have position : (queue.append msg fromAddr).slotAt i = queue.slotAt i := rfl
    rw [position]
    by_cases old : i < contents.length
    · have elsewhere : queue.slotAt i ≠ queue.tail := by
        rw [Ne, Fin.ext_iff, slotAt_val]
        omega
      rw [append_data _ elsewhere, List.getElem_append_left old]
      exact represents.holds i old
    · obtain rfl : i = contents.length := by omega
      have last : queue.slotAt contents.length = queue.tail := Fin.ext behind.symm
      rw [last, List.getElem_concat_length rfl]
      exact append_holds msg fromAddr

/-- The slot at the head holds the first message. -/
theorem first (waiting : ¬ queue.Empty) :
    ∃ message rest, contents = message :: rest ∧ (queue.data queue.head).Holds message := by
  cases contents with
  | nil => exact (waiting (represents.empty_iff.mpr rfl)).elim
  | cons message rest =>
      have bound : queue.head.val < 256 := queue.head.isLt
      have here : queue.slotAt 0 = queue.head := by
        rw [Fin.ext_iff, slotAt_val]
        omega
      have held := represents.holds 0 (Nat.succ_pos _)
      rw [here] at held
      exact ⟨message, rest, rfl, held⟩

end Represents

/-- A pop leaves the messages behind the first one. -/
theorem Represents.pop {message : Message} {rest : List Message}
    (represents : queue.Represents (message :: rest)) : queue.pop.1.Represents rest := by
  have short := represents.length_lt
  have behind := represents.tail
  have bound : queue.head.val < 256 := queue.head.isLt
  have advanced : queue.pop.1.head.val = (queue.head.val + 1) % 256 := rfl
  rw [List.length_cons] at short behind
  constructor
  · omega
  · have same : queue.pop.1.tail = queue.tail := rfl
    rw [same, advanced]
    omega
  · have counted : queue.pop.1.size = queue.size - 1 := rfl
    rw [counted, represents.size, List.length_cons]
    omega
  · intro i within
    have position : queue.pop.1.slotAt i = queue.slotAt (i + 1) := by
      rw [Fin.ext_iff, slotAt_val, slotAt_val, advanced]
      omega
    have elsewhere : queue.slotAt (i + 1) ≠ queue.head := by
      rw [Ne, Fin.ext_iff, slotAt_val]
      omega
    have kept : queue.pop.1.data (queue.slotAt (i + 1)) = queue.data (queue.slotAt (i + 1)) :=
      Function.update_of_ne elsewhere ..
    rw [position, kept]
    exact represents.holds (i + 1) (Nat.succ_lt_succ within)

end Queue

/-- An append pushes the message it stores, and a pop yields the popped message. -/
inductive QueueOp.Matches : QueueOp → FifoOp Message → Prop
  | append (msg : List UInt8) (fromAddr : Option SockAddrIn) :
      Matches (.append msg fromAddr) (.push (.stored msg fromAddr))
  | pop {popped : Popped} {message : Message} : popped.Yields message →
      Matches (.pop popped) (.pop message)

/-- The queue implements a FIFO of at most `QUEUE_MAX - 1` messages. -/
def queueSimulation : queueCalls.Simulation (Fifo.system Message (queueMax - 1)) where
  states := Queue.Represents
  labels := QueueOp.Matches
  initially := by
    rintro queue ⟨data, rfl⟩
    exact ⟨[], rfl, Queue.represents_init data⟩
  matched := by
    intro before op after contents represents moved
    cases moved with
    | append msg fromAddr room =>
        have space : contents.length < queueMax - 1 := by
          have short := represents.length_lt
          have notLast : contents.length ≠ 255 := fun last => room (represents.full_iff.mpr last)
          dsimp only [queueMax]
          omega
        exact ⟨_, _, .push _ space, .append msg fromAddr, represents.append room msg fromAddr⟩
    | pop waiting =>
        obtain ⟨message, rest, rfl, held⟩ := represents.first waiting
        exact ⟨_, _, .pop message rest, .pop (Queue.pop_yields held), represents.pop⟩

/-- The appended messages of a run, and what its pops returned, by the matching
operations of the FIFO. -/
theorem messages_of_matches {trace : List (Queue × QueueOp)} {ops : List (FifoOp Message)}
    (matched : List.Forall₂ QueueOp.Matches (trace.map Prod.snd) ops) :
    appendedMessages trace = Fifo.pushed ops ∧
      List.Forall₂ Popped.Yields (poppedMessages trace) (Fifo.popped ops) := by
  induction trace generalizing ops with
  | nil =>
      cases matched
      exact ⟨rfl, .nil⟩
  | cons visit trace ih =>
      obtain ⟨queue, op⟩ := visit
      cases matched with
      | cons first later =>
          obtain ⟨appended, popped⟩ := ih later
          cases first with
          | append msg fromAddr =>
              exact ⟨congrArg (Message.stored msg fromAddr :: ·) appended, popped⟩
          | pop yields => exact ⟨appended, .cons yields popped⟩

/-- A pop yields the message whose turn it is. -/
theorem yields_of_execution {trace : List (Queue × QueueOp)} {queue : Queue}
    (execution : queueCalls.Execution trace queue) {turn : ℕ} {message : Message} {popped : Popped}
    (appended : (appendedMessages trace)[turn]? = some message)
    (returned : (poppedMessages trace)[turn]? = some popped) : popped.Yields message := by
  obtain ⟨fifoTrace, contents, fifoRun, -, matched⟩ := queueSimulation.execution execution
  obtain ⟨pushed, yields⟩ := messages_of_matches matched
  obtain ⟨within, same⟩ := List.getElem?_eq_some_iff.mp returned
  have alike : turn < (Fifo.popped (fifoTrace.map Prod.snd)).length := yields.length_eq ▸ within
  rw [pushed, Fifo.pushed_eq fifoRun, List.getElem?_append_left alike,
    List.getElem?_eq_getElem alike] at appended
  have here := yields.get within alike
  rw [List.get_eq_getElem, List.get_eq_getElem, same, Option.some.inj appended] at here
  exact here

/-- **The queue refines a bounded FIFO.** After any run of appends and pops that passed
their tests, the messages appended are those that the pops yielded, in order and each
with its own address, followed by the contents of the queue; the counter and the
distance of the indices are the length of the contents, and the tests tell the lengths
`QUEUE_MAX - 1` and 0. -/
theorem queue_refines_fifo {trace : List (Queue × QueueOp)} {queue : Queue}
    (execution : queueCalls.Execution trace queue) :
    ∃ yielded contents, appendedMessages trace = yielded ++ contents ∧
      List.Forall₂ Popped.Yields (poppedMessages trace) yielded ∧
      contents.length ≤ queueMax - 1 ∧ queue.size = contents.length ∧
      ((queue.tail.val : ℤ) - queue.head.val) % queueMax = contents.length ∧
      (queue.Full ↔ contents.length = queueMax - 1) ∧ (queue.Empty ↔ contents.length = 0) := by
  obtain ⟨fifoTrace, contents, fifoRun, represents, matched⟩ := queueSimulation.execution execution
  obtain ⟨appended, popped⟩ := messages_of_matches matched
  have order := Fifo.pushed_eq fifoRun
  refine ⟨_, contents, appended.trans order, popped, Fifo.length_le fifoRun, represents.size,
    represents.distance, represents.full_iff, represents.empty_iff⟩

/-- Two messages were appended, one with an address, and one was popped. -/
theorem queue_refines_fifo_popped :
    ∃ (trace : List (Queue × QueueOp)) (queue : Queue),
      queueCalls.Execution trace queue ∧ (poppedMessages trace).length = 1 ∧
        ∃ yielded contents, appendedMessages trace = yielded ++ contents ∧
          List.Forall₂ Popped.Yields (poppedMessages trace) yielded ∧
          queue.size = contents.length := by
  let cleared : QueueNode := ⟨.strncpy queueMsgSize [], ⟨0, 0, 0, 0⟩, false⟩
  have start : queueCalls.Execution [] (queueInit fun _ => cleared) := .start ⟨_, rfl⟩
  have first := start.step (.append (CString.ascii "say$ hello") (some ⟨2, 1, 1, 0⟩) (by decide))
  have second := first.step (.append (CString.ascii "disconn$") none (by decide))
  have popped := second.step (.pop (by decide))
  obtain ⟨yielded, contents, order, yields, -, size, -⟩ := queue_refines_fifo popped
  exact ⟨_, _, popped, rfl, yielded, contents, order, yields, size⟩

end MultithreadedChat
