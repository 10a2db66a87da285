import MultithreadedChat.Listener
import MultithreadedChat.QueueWakeups

/-! # From the socket to the queue manager

A listener and a queue manager at their queue, in both programs: the listener reads
datagrams into its buffer and appends them, the queue manager pops, reads the words through
the token pointers one by one after `q_pop` has released the lock, and hands the words over.
All along the words that are handed over are those of the datagrams, in order, each with its
own address (`MultithreadedChat.intake_in_order`), and while any are on their way a step that
brings them forward is possible (`MultithreadedChat.intake_progress`).
-/

namespace MultithreadedChat

open ConditionVariable

/-- The two threads at a queue. -/
inductive IntakeThread
  | listener
  | manager
  deriving DecidableEq

instance : Fintype IntakeThread :=
  ⟨{.listener, .manager}, fun thread => by cases thread <;> decide⟩

/-- The queue with its threads, and the words that the queue manager has read of the message
it has popped and not handed over yet. -/
structure Intake where
  queue : QueueState IntakeThread
  reading : Option (List (List UInt8))

/-- What happens: a datagram arrives over what the buffer of the listener holds, a section of
the queue or a wake-up takes place, the queue manager calls `q_pop`, reads the next word or
hands the words over. -/
inductive IntakeLabel
  | receive (buffer : ByteBuffer bufferSize) (datagram : List UInt8)
      (fromAddr : Option SockAddrIn)
  | critical (thread : IntakeThread)
  | wakeUp (thread : IntakeThread)
  | call
  | read
  | handOver (words : List (List UInt8)) (sender : SockAddrIn)

/-- Behind a pop no word has been read yet. -/
def QueueLoc.unread : QueueLoc → Option (List (List UInt8))
  | .consuming (some _) => some []
  | _ => none

inductive IntakeStep : Intake → IntakeLabel → Intake → Prop
  | receive {state : Intake} (buffer : ByteBuffer bufferSize) {datagram : List UInt8}
      (fromAddr : Option SockAddrIn) :
      state.queue.threads .listener = .awake .producing →
      0 < datagram.length → datagram.length ≤ bufferSize →
        IntakeStep state (.receive buffer datagram fromAddr)
          ⟨state.queue.goto .listener (.appending (udpSocketRead buffer datagram).1.bytes fromAddr),
            state.reading⟩
  | listen {state : Intake} {queue : QueueState IntakeThread} :
      Step queueProgram state.queue (.listener, .critical) queue →
        IntakeStep state (.critical .listener) ⟨queue, state.reading⟩
  | pop {state : Intake} {queue : QueueState IntakeThread} :
      Step queueProgram state.queue (.manager, .critical) queue →
        IntakeStep state (.critical .manager) ⟨queue, (queue.locs .manager).unread⟩
  | wakeUp {state : Intake} {thread : IntakeThread} {queue : QueueState IntakeThread} :
      Step queueProgram state.queue (thread, .wakeUp) queue →
        IntakeStep state (.wakeUp thread) ⟨queue, state.reading⟩
  | call {state : Intake} {held : Option Popped} :
      state.queue.threads .manager = .awake (.consuming held) → state.reading = none →
        IntakeStep state .call ⟨state.queue.goto .manager (.popping held), none⟩
  | read {state : Intake} {popped : Popped} {words : List (List UInt8)} {token : ℕ} :
      state.queue.threads .manager = .awake (.consuming (some popped)) →
      state.reading = some words → popped.tokens[words.length]? = some token →
        IntakeStep state .read ⟨state.queue,
          some (words ++ [(state.queue.shared.data popped.slot).msg.string token])⟩
  | handOver {state : Intake} {popped : Popped} {words : List (List UInt8)} :
      state.queue.threads .manager = .awake (.consuming (some popped)) →
      state.reading = some words → words.length = popped.tokens.length →
        IntakeStep state (.handOver words popped.sender) ⟨state.queue, none⟩

/-- Only the queue manager pops. -/
def IntakeThread.consumer : IntakeThread → Bool
  | .listener => false
  | .manager => true

/-- All runs from `queue_init`. -/
def intakeSystem : TransitionSystem Intake IntakeLabel where
  initial state := ∃ data, state = ⟨QueueState.start IntakeThread.consumer data, none⟩
  step := IntakeStep

/-- The words and the address that a message is handed over with. -/
def Message.item (message : Message) : List (List UInt8) × SockAddrIn :=
  (messageWords message.text.bytes, message.fromAddr.getD ⟨0, 0, 0, 0⟩)

theorem Popped.Yields.item {popped : Popped} {message : Message} (yields : popped.Yields message) :
    message.item = (popped.dequeued, popped.sender) := by
  rw [Message.item, yields.words, yields.sender]

namespace Intake

variable (state : Intake)

/-- The message that the listener is about to append. -/
def incoming : List Message :=
  match state.queue.locs .listener with
  | .appending msg fromAddr => [.stored msg fromAddr]
  | _ => []

/-- What the queue manager is about to hand over. -/
def outgoing : List (List (List UInt8) × SockAddrIn) :=
  match state.reading, (state.queue.locs .manager).held with
  | some _, some popped => [(popped.dequeued, popped.sender)]
  | _, _ => []

theorem length_outgoing_le : state.outgoing.length ≤ 1 := by
  unfold outgoing
  split
  · exact le_rfl
  · exact Nat.zero_le 1

/-- The queue holds the contents, the tokens of the last pop are as they were, the threads
have their roles, and the words read so far are the first ones popped. -/
structure Holds (contents : List Message) : Prop where
  represents : state.queue.shared.Represents contents
  stable : SlotStable .manager state.queue.shared state.queue.locs
  manages : (state.queue.locs .manager).consumes = true
  popping : ∀ held, state.queue.locs .manager = .popping held → state.reading = none
  reads : ∀ words, state.reading = some words → ∃ popped,
    state.queue.locs .manager = .consuming (some popped) ∧
      words = popped.dequeued.take words.length

namespace Holds

variable {state} {contents : List Message} (holds : state.Holds contents)
include holds

/-- The listener appends or is about to read the socket. -/
theorem listens : (state.queue.locs .listener).consumes = false := by
  by_contra consumes
  have itself := holds.stable.alone .listener (by simpa using consumes)
  cases itself

/-- The words read through the tokens are the ones popped. -/
theorem read_word {popped : Popped} (here : state.queue.locs .manager = .consuming (some popped)) :
    popped.tokens.map (state.queue.shared.data popped.slot).msg.string = popped.dequeued := by
  have kept := holds.stable.kept popped (by rw [here]; rfl)
  rw [kept, Popped.dequeued]

/-- The locations, the queue and the words read are all that counts. -/
theorem congr {queue : QueueState IntakeThread} {reading : Option (List (List UInt8))}
    (shared : queue.shared = state.queue.shared) (locs : queue.locs = state.queue.locs)
    (same : reading = state.reading) :
    (Intake.mk queue reading).Holds contents ∧
      (Intake.mk queue reading).outgoing = state.outgoing ∧
      (Intake.mk queue reading).incoming = state.incoming := by
  subst same
  refine ⟨?_, by rw [outgoing, outgoing, locs], by rw [incoming, incoming, locs]⟩
  obtain ⟨represents, stable, manages, popping, reads⟩ := holds
  constructor
  · rwa [shared]
  · rwa [shared, locs]
  · rwa [locs]
  · rwa [locs]
  · rwa [locs]

/-- A section of the listener moves its message behind the contents, or finds no room. -/
theorem listen {queue : QueueState IntakeThread}
    (moved : Step queueProgram state.queue (.listener, .critical) queue) :
    ∃ contents', (Intake.mk queue state.reading).Holds contents' ∧
      (Intake.mk queue state.reading).outgoing = state.outgoing ∧
      contents' ++ (Intake.mk queue state.reading).incoming = contents ++ state.incoming := by
  obtain ⟨_, called, -⟩ | ⟨outcome, -, -, ran, shared, locs⟩ | ⟨woken, -⟩ := moved.locs_cases
  · cases called
  · have stable := holds.stable.critical ran
    rw [← shared, ← locs] at stable
    have apart : (IntakeThread.manager : IntakeThread) ≠ .listener := nofun
    rcases queueProgram_cases ran with ⟨msg, fromAddr, here, ⟨full, same⟩ | ⟨room, same⟩⟩ |
      ⟨held, here, -⟩
    · subst same
      rw [Outcome.next, Function.update_eq_self] at locs
      obtain ⟨kept, outgoing, incoming⟩ := holds.congr shared locs rfl
      exact ⟨contents, kept, outgoing, by rw [incoming]⟩
    · subst same
      have elsewhere : queue.locs .manager = state.queue.locs .manager := by
        rw [locs, Function.update_of_ne apart]
      have listener : queue.locs .listener = .producing := by
        rw [locs, Function.update_self, Outcome.next]
      refine ⟨contents ++ [.stored msg fromAddr], ⟨?_, stable, ?_, ?_, ?_⟩, ?_, ?_⟩
      · rw [shared]
        exact holds.represents.append room msg fromAddr
      · rw [elsewhere]
        exact holds.manages
      · rw [elsewhere]
        exact holds.popping
      · rw [elsewhere]
        exact holds.reads
      · rw [outgoing, outgoing, elsewhere]
      · rw [incoming, incoming, listener, here, List.append_nil]
    · have listens := holds.listens
      rw [here] at listens
      cases listens
  · cases woken

/-- A section of the queue manager takes the first message, or finds none. -/
theorem pop {queue : QueueState IntakeThread}
    (moved : Step queueProgram state.queue (.manager, .critical) queue) :
    ∃ contents', (Intake.mk queue (queue.locs .manager).unread).Holds contents' ∧
      (Intake.mk queue (queue.locs .manager).unread).outgoing ++
        (contents' ++ (Intake.mk queue (queue.locs .manager).unread).incoming).map Message.item =
      state.outgoing ++ (contents ++ state.incoming).map Message.item := by
  obtain ⟨_, called, -⟩ | ⟨outcome, -, -, ran, shared, locs⟩ | ⟨woken, -⟩ := moved.locs_cases
  · cases called
  · have stable := holds.stable.critical ran
    rw [← shared, ← locs] at stable
    have apart : (IntakeThread.listener : IntakeThread) ≠ .manager := nofun
    rcases queueProgram_cases ran with ⟨msg, fromAddr, here, -⟩ |
      ⟨held, here, ⟨empty, same⟩ | ⟨waiting, same⟩⟩
    · have manages := holds.manages
      rw [here] at manages
      cases manages
    · subst same
      rw [Outcome.next, Function.update_eq_self] at locs
      have idle : (queue.locs .manager).unread = state.reading := by
        rw [locs, here, holds.popping held here]
        rfl
      obtain ⟨kept, outgoing, incoming⟩ := holds.congr shared locs idle
      exact ⟨contents, kept, by rw [outgoing, incoming]⟩
    · subst same
      obtain ⟨message, rest, rfl, held⟩ := holds.represents.first waiting
      have manager : queue.locs .manager = .consuming (some state.queue.shared.pop.2) := by
        rw [locs, Function.update_self, Outcome.next]
      have elsewhere : queue.locs .listener = state.queue.locs .listener := by
        rw [locs, Function.update_of_ne apart]
      refine ⟨rest, ⟨?_, stable, ?_, ?_, ?_⟩, ?_⟩
      · rw [shared]
        exact holds.represents.pop
      · rw [manager]
        rfl
      · intro held popping
        rw [manager] at popping
        cases popping
      · intro words reading
        rw [manager] at reading
        cases reading
        exact ⟨_, manager, rfl⟩
      · have idle := holds.popping _ here
        simp only [outgoing, incoming, manager, elsewhere, idle, QueueLoc.unread, QueueLoc.held,
          List.cons_append, List.nil_append, List.map_cons, (Queue.pop_yields held).item]
  · cases woken

/-- Calling `q_pop` leaves the queue. -/
theorem call {held : Option Popped} (running : state.queue.locs .manager = .consuming held)
    (idle : state.reading = none) :
    (Intake.mk (state.queue.goto .manager (.popping held)) none).Holds contents ∧
      (Intake.mk (state.queue.goto .manager (.popping held)) none).outgoing = state.outgoing ∧
      (Intake.mk (state.queue.goto .manager (.popping held)) none).incoming = state.incoming := by
  have locs := State.locs_goto state.queue .manager (.popping held)
  have apart : (IntakeThread.listener : IntakeThread) ≠ .manager := nofun
  refine ⟨⟨holds.represents, ?_, ?_, fun _ _ => rfl, nofun⟩, ?_, ?_⟩
  · rw [locs]
    exact holds.stable.relocate (by rw [running]; rfl) (by rw [running]; rfl)
  · rw [locs, Function.update_self]
    rfl
  · rw [outgoing, outgoing, idle]
  · rw [incoming, incoming, locs, Function.update_of_ne apart]

/-- The next word is the next one of those popped. -/
theorem read {popped : Popped} (running : state.queue.locs .manager = .consuming (some popped))
    {words : List (List UInt8)} (reading : state.reading = some words) {token : ℕ}
    (next : popped.tokens[words.length]? = some token) :
    (Intake.mk state.queue
      (some (words ++ [(state.queue.shared.data popped.slot).msg.string token]))).Holds
        contents := by
  refine ⟨holds.represents, holds.stable, holds.manages, ?_, ?_⟩
  · intro held popping
    rw [running] at popping
    cases popping
  · intro words' same
    cases same
    obtain ⟨popped', here, first⟩ := holds.reads words reading
    obtain rfl : popped' = popped := by
      rw [running] at here
      cases here
      rfl
    have word : popped'.dequeued[words.length]? =
        some ((state.queue.shared.data popped'.slot).msg.string token) := by
      rw [← holds.read_word running, List.getElem?_map, next, Option.map_some]
    refine ⟨popped', running, ?_⟩
    rw [List.length_append, List.length_singleton, List.take_add_one, ← first, word]
    rfl

/-- A datagram is on its way. -/
theorem receive (running : state.queue.locs .listener = .producing) (msg : List UInt8)
    (fromAddr : Option SockAddrIn) :
    (Intake.mk (state.queue.goto .listener (.appending msg fromAddr)) state.reading).Holds
        contents ∧
      (Intake.mk (state.queue.goto .listener (.appending msg fromAddr)) state.reading).outgoing =
        state.outgoing ∧
      (Intake.mk (state.queue.goto .listener (.appending msg fromAddr)) state.reading).incoming =
        [.stored msg fromAddr] ∧ state.incoming = [] := by
  have locs := State.locs_goto state.queue .listener (.appending msg fromAddr)
  have apart : (IntakeThread.manager : IntakeThread) ≠ .listener := nofun
  have elsewhere : (state.queue.goto .listener (.appending msg fromAddr)).locs .manager =
      state.queue.locs .manager := by
    rw [locs, Function.update_of_ne apart]
  refine ⟨⟨holds.represents, ?_, ?_, ?_, ?_⟩, ?_, ?_, ?_⟩
  · rw [locs]
    exact holds.stable.relocate (by rw [running]; rfl) (by rw [running]; rfl)
  · rw [elsewhere]
    exact holds.manages
  · rw [elsewhere]
    exact holds.popping
  · rw [elsewhere]
    exact holds.reads
  · rw [outgoing, outgoing, elsewhere]
  · rw [incoming, locs, Function.update_self]
  · rw [incoming, running]

/-- The words that are handed over are the ones popped. -/
theorem handOver {popped : Popped}
    (running : state.queue.locs .manager = .consuming (some popped))
    {words : List (List UInt8)} (reading : state.reading = some words)
    (finished : words.length = popped.tokens.length) :
    (Intake.mk state.queue none).Holds contents ∧
      state.outgoing = [(words, popped.sender)] := by
  refine ⟨⟨holds.represents, holds.stable, holds.manages, fun _ _ => rfl, nofun⟩, ?_⟩
  obtain ⟨popped', here, first⟩ := holds.reads words reading
  rw [running] at here
  cases here
  have whole : popped.dequeued.length ≤ words.length := by
    rw [finished, Popped.dequeued, List.length_map]
  rw [List.take_of_length_le whole] at first
  rw [outgoing, reading, running, first]
  rfl

end Holds

end Intake

/-- The intake is a queue of the messages on their way, with what they are handed over as. -/
def intakeSimulation : intakeSystem.StutteringSimulation
    (Fifo.system (List (List UInt8) × SockAddrIn) (queueMax + 1)) where
  states state waiting := ∃ contents, state.Holds contents ∧
    waiting = state.outgoing ++ (contents ++ state.incoming).map Message.item
  visible _
    | .receive buffer datagram fromAddr =>
      some (.push (Message.stored (udpSocketRead buffer datagram).1.bytes fromAddr).item)
    | .handOver words sender => some (.pop (words, sender))
    | .critical _ | .wakeUp _ | .call | .read => none
  initially := by
    rintro state ⟨data, rfl⟩
    have only : ∀ thread, IntakeThread.consumer thread = true → thread = .manager := by
      intro thread consumes
      cases thread with
      | listener => cases consumes
      | manager => rfl
    refine ⟨[], rfl, [], ⟨Queue.represents_init data, ?_, rfl, ?_, ?_⟩, rfl⟩
    · exact slotStable_of_reachable only (.start ⟨data, rfl⟩)
    · intro held popping
      rfl
    · intro words nothing
      cases nothing
  hidden := by
    rintro before label after _ ⟨contents, holds, rfl⟩ moved unseen
    cases moved with
    | receive | handOver => cases unseen
    | call running idle =>
        obtain ⟨kept, outgoing, incoming⟩ := holds.call (State.locs_of_awake running) idle
        exact ⟨contents, kept, by rw [outgoing, incoming]⟩
    | read running reading next =>
        refine ⟨contents, holds.read (State.locs_of_awake running) reading next, ?_⟩
        simp only [Intake.outgoing, Intake.incoming, reading, State.locs_of_awake running]
        rfl
    | wakeUp moved =>
        obtain ⟨_, called, -⟩ | ⟨_, ran, -⟩ | ⟨-, shared, locs⟩ := moved.locs_cases
        · cases called
        · cases ran
        · obtain ⟨kept, outgoing, incoming⟩ := holds.congr shared locs rfl
          exact ⟨contents, kept, by rw [outgoing, incoming]⟩
    | listen moved =>
        obtain ⟨contents', kept, outgoing, forward⟩ := holds.listen moved
        exact ⟨contents', kept, by rw [outgoing, forward]⟩
    | pop moved =>
        obtain ⟨contents', kept, forward⟩ := holds.pop moved
        exact ⟨contents', kept, forward.symm⟩
  matched := by
    rintro before label after _ op ⟨contents, holds, rfl⟩ moved seen
    cases moved with
    | call | read | wakeUp | listen | pop => cases seen
    | receive buffer fromAddr running received fits =>
        cases seen
        obtain ⟨kept, outgoing, incoming, nothing⟩ :=
          holds.receive (State.locs_of_awake running) _ fromAddr
        have few := holds.represents.length_lt
        refine ⟨_, .push _ ?_, contents, kept, ?_⟩
        · rw [nothing, List.length_append, List.length_map, List.append_nil]
          have one := before.length_outgoing_le
          dsimp only [queueMax]
          omega
        · rw [outgoing, incoming, nothing, List.append_nil, List.map_append, List.append_assoc]
          rfl
    | handOver running reading finished =>
        cases seen
        obtain ⟨kept, outgoing⟩ := holds.handOver (State.locs_of_awake running) reading finished
        rw [outgoing]
        exact ⟨_, .pop _ _, contents, kept, rfl⟩

/-! ## Order -/

/-- The datagrams received in a run, as their words and the addresses they came from. -/
def received (trace : List (Intake × IntakeLabel)) : List (List (List UInt8) × SockAddrIn) :=
  trace.filterMap fun
    | (_, .receive buffer datagram fromAddr) =>
      some (Message.stored (udpSocketRead buffer datagram).1.bytes fromAddr).item
    | _ => none

/-- What has been handed over in a run. -/
def handedOver (trace : List (Intake × IntakeLabel)) : List (List (List UInt8) × SockAddrIn) :=
  trace.filterMap fun
    | (_, .handOver words sender) => some (words, sender)
    | _ => none

/-- The messages of a run, by the operations of the queue it is. -/
theorem messages_of_visible (trace : List (Intake × IntakeLabel)) :
    Fifo.pushed (trace.filterMap fun visit => intakeSimulation.visible visit.1 visit.2) =
        received trace ∧
      Fifo.popped (trace.filterMap fun visit => intakeSimulation.visible visit.1 visit.2) =
        handedOver trace := by
  simp only [Fifo.pushed, Fifo.popped, received, handedOver, List.filterMap_filterMap]
  constructor
  · refine List.filterMap_congr fun visit _ => ?_
    obtain ⟨state, label⟩ := visit
    cases label <;> rfl
  · refine List.filterMap_congr fun visit _ => ?_
    obtain ⟨state, label⟩ := visit
    cases label <;> rfl

/-- The messages that the datagrams of a run are, whatever the buffer held. -/
def datagrams (trace : List (Intake × IntakeLabel)) : List (List (List UInt8) × SockAddrIn) :=
  trace.filterMap fun
    | (_, .receive _ datagram fromAddr) => some (Message.stored datagram fromAddr).item
    | _ => none

/-- A datagram with a terminator, or as long as a slot, hides what the buffer held. -/
def IntakeLabel.Closed : IntakeLabel → Prop
  | .receive _ datagram _ => 0 ∈ datagram ∨ queueMsgSize - 1 ≤ datagram.length
  | _ => True

theorem received_of_closed {trace : List (Intake × IntakeLabel)} {state : Intake}
    (execution : intakeSystem.Execution trace state)
    (closed : ∀ visit ∈ trace, visit.2.Closed) : received trace = datagrams trace := by
  have fits : ∀ visit ∈ trace, ∀ buffer datagram fromAddr,
      visit.2 = .receive buffer datagram fromAddr → datagram.length ≤ bufferSize := by
    clear closed
    induction execution with
    | start => exact fun _ member => by cases member
    | step _ moved ih =>
        intro visit member buffer datagram fromAddr same
        rcases List.mem_append.mp member with old | last
        · exact ih visit old buffer datagram fromAddr same
        · obtain rfl := List.mem_singleton.mp last
          subst same
          cases moved with
          | receive _ _ _ _ fits => exact fits
  refine List.filterMap_congr fun visit member => ?_
  obtain ⟨before, label⟩ := visit
  cases label with
  | receive buffer datagram fromAddr =>
      have read := udpSocketRead_bytes (fits _ member buffer datagram fromAddr rfl) buffer
      have text := ofBytes_append (closed _ member) (buffer.bytes.drop datagram.length)
      simp only [Message.stored, read, text]
  | _ => rfl

/-- What has been handed over is what was received first. -/
theorem received_eq_handedOver {trace : List (Intake × IntakeLabel)} {state : Intake}
    (execution : intakeSystem.Execution trace state) :
    ∃ waiting, received trace = handedOver trace ++ waiting ∧
      waiting.length ≤ queueMax + 1 := by
  obtain ⟨fifoTrace, waiting, fifoRun, -, labels⟩ := intakeSimulation.execution execution
  obtain ⟨pushed, popped⟩ := messages_of_visible trace
  have order := Fifo.pushed_eq fifoRun
  rw [labels, pushed, popped] at order
  exact ⟨waiting, order, Fifo.length_le fifoRun⟩

/-- **Datagrams in order.** In every interleaving of the listener with the queue manager, what
is handed over are the words of the messages received, in order and each with its own
address; what is missing is on its way. If every datagram is terminated or fills a slot, the
messages are the datagrams. -/
theorem intake_in_order {trace : List (Intake × IntakeLabel)} {state : Intake}
    (execution : intakeSystem.Execution trace state) :
    (∃ waiting, received trace = handedOver trace ++ waiting ∧
      waiting.length ≤ queueMax + 1) ∧
      ((∀ visit ∈ trace, visit.2.Closed) → received trace = datagrams trace) :=
  ⟨received_eq_handedOver execution, received_of_closed execution⟩

/-- A short datagram with a terminator hides what the last one left in the buffer. -/
theorem intake_in_order_ping :
    ∃ (trace : List (Intake × IntakeLabel)) (state : Intake),
      intakeSystem.Execution trace state ∧ received trace = datagrams trace ∧
        ∃ waiting, [([CString.ascii "ping"], ⟨2, 1, 1, 0⟩)] = handedOver trace ++ waiting ∧
          waiting.length ≤ queueMax + 1 := by
  let cleared : QueueNode := ⟨.strncpy queueMsgSize [], ⟨0, 0, 0, 0⟩, false⟩
  let datagram := CString.ascii "ping$" ++ [0]
  have start : intakeSystem.Execution []
      ⟨QueueState.start IntakeThread.consumer fun _ => cleared, none⟩ := .start ⟨_, rfl⟩
  have arrived := start.step
    (.receive (.strncpy bufferSize (CString.ascii "say$ hello")) (some ⟨2, 1, 1, 0⟩) rfl
      (show 0 < datagram.length by decide) (show datagram.length ≤ bufferSize by decide))
  obtain ⟨⟨waiting, order, few⟩, same⟩ := intake_in_order arrived
  have hidden := same fun visit member => by
    obtain rfl := List.mem_singleton.mp member
    exact .inl (by decide)
  have words : messageWords (CString.ofBytes queueMsgSize datagram).bytes =
      [CString.ascii "ping"] := by
    decide
  refine ⟨_, _, arrived, hidden, waiting, ?_, few⟩
  rw [← order, hidden]
  exact congrArg (fun words => [(words, (⟨2, 1, 1, 0⟩ : SockAddrIn))]) words.symm

/-! ## Delivery -/

/-- A step that brings messages forward, or finds that none are there. -/
def IntakeLabel.Forward : IntakeLabel → Prop
  | .receive .. | .wakeUp _ => False
  | _ => True

/-- The queue in a run of the intake is in a run of its own. -/
theorem queue_of_intake {state : Intake} (reachable : intakeSystem.Reachable state) :
    (queueSystem IntakeThread.consumer).Reachable state.queue := by
  refine reachable.invariant
    (I := fun state => (queueSystem IntakeThread.consumer).Reachable state.queue) ?_ ?_
  · rintro state ⟨data, rfl⟩
    exact .start ⟨data, rfl⟩
  · intro before label after queue moved
    cases moved with
    | receive buffer fromAddr running => exact queue.step (.move _ running (.append _ fromAddr))
    | call running => exact queue.step (.move _ running (.pop _))
    | listen moved | pop moved | wakeUp moved => exact queue.step moved
    | read | handOver => exact queue

/-- What the simulation says of a reachable state. -/
theorem holds_of_reachable {state : Intake} (reachable : intakeSystem.Reachable state) :
    ∃ contents, state.Holds contents := by
  obtain ⟨trace, execution⟩ := reachable
  obtain ⟨_, _, _, ⟨contents, holds, -⟩, -⟩ := intakeSimulation.execution execution
  exact ⟨contents, holds⟩

/-- The locations whose test waits for a condition variable. -/
def QueueCond.waits : QueueCond → QueueLoc → Bool
  | .nonempty => QueueLoc.pops
  | .nonfull => QueueLoc.appends

/-- Whoever sleeps at the queue sleeps before its test. -/
theorem sleeper_of_reachable {state : Intake} (reachable : intakeSystem.Reachable state)
    {thread : IntakeThread} {cond : QueueCond} {loc : QueueLoc}
    (sleeping : state.queue.threads thread = .asleep cond loc) : cond.waits loc = true := by
  have queue := queue_of_intake reachable
  cases cond with
  | nonempty => exact (itemsDemand.met (rested_at_start _) queue thread loc sleeping).1
  | nonfull => exact (roomDemand.met (rested_at_start _) queue thread loc sleeping).1

/-- While the queue manager sleeps, the only message on its way is about to be appended. -/
theorem Intake.Holds.append_possible {state : Intake} {contents : List Message}
    (holds : state.Holds contents) (reachable : intakeSystem.Reachable state)
    {held : Option Popped}
    (manager : state.queue.threads .manager = .asleep .nonempty (.popping held))
    (waiting : state.outgoing ++ (contents ++ state.incoming).map Message.item ≠ []) :
    ∃ label after, label.Forward ∧ IntakeStep state label after := by
  have queue := queue_of_intake reachable
  have at_loc : state.queue.locs .manager = .popping held := by
    rw [State.locs, manager, Thread.loc_asleep]
  have empty : state.queue.shared.Empty := by
    by_contra work
    obtain ⟨thread, other, awake⟩ := exists_popping queue work manager
    have itself := holds.stable.alone thread (by rw [State.locs_of_awake awake]; rfl)
    rw [itself, manager] at awake
    cases awake
  have nothing : contents = [] := List.length_eq_zero_iff.mp (holds.represents.empty_iff.mp empty)
  have room : ¬ state.queue.shared.Full := by
    intro full
    have long := holds.represents.full_iff.mp full
    rw [nothing] at long
    cases long
  have idle : state.outgoing = [] := by
    rw [outgoing, holds.popping held at_loc]
  rw [nothing, idle, List.nil_append, List.nil_append] at waiting
  cases listener : state.queue.threads .listener with
  | awake loc =>
      cases loc with
      | producing =>
          rw [incoming, State.locs_of_awake listener] at waiting
          exact (waiting rfl).elim
      | appending msg fromAddr =>
          obtain ⟨queue', moved⟩ := Step.exists_critical listener
            (show queueProgram.critical (.appending msg fromAddr) state.queue.shared = some _
              from rfl)
          exact ⟨.critical .listener, _, trivial, .listen moved⟩
      | consuming | popping =>
          have listens := holds.listens
          rw [State.locs_of_awake listener] at listens
          cases listens
  | asleep cond loc =>
      have here : state.queue.locs .listener = loc := by
        rw [State.locs, listener, Thread.loc_asleep]
      have placed := sleeper_of_reachable reachable listener
      have listens := holds.listens
      rw [here] at listens
      cases cond with
      | nonempty =>
          cases loc with
          | producing | appending => cases placed
          | consuming | popping => cases listens
      | nonfull =>
          obtain ⟨thread, msg, fromAddr, awake⟩ := exists_appending queue room listener
          cases thread with
          | listener =>
              rw [listener] at awake
              cases awake
          | manager =>
              rw [manager] at awake
              cases awake

/-- **No message is stranded.** In every reachable state with a message on its way, a step
that brings messages forward is possible. -/
theorem intake_progress {state : Intake} (reachable : intakeSystem.Reachable state)
    {contents : List Message} (holds : state.Holds contents)
    (waiting : state.outgoing ++ (contents ++ state.incoming).map Message.item ≠ []) :
    ∃ label after, label.Forward ∧ IntakeStep state label after := by
  have queue := queue_of_intake reachable
  cases manager : state.queue.threads .manager with
  | awake loc =>
      have at_loc := State.locs_of_awake manager
      have manages := holds.manages
      rw [at_loc] at manages
      cases loc with
      | producing | appending => cases manages
      | popping held =>
          obtain ⟨queue', moved⟩ := Step.exists_critical manager
            (show queueProgram.critical (.popping held) state.queue.shared = some _ from rfl)
          exact ⟨.critical .manager, _, trivial, .pop moved⟩
      | consuming held =>
          cases reading : state.reading with
          | none => exact ⟨.call, _, trivial, .call manager reading⟩
          | some words =>
              obtain ⟨popped, here, first⟩ := holds.reads words reading
              rw [at_loc] at here
              cases here
              have few := congrArg List.length first
              rw [List.length_take, Popped.dequeued, List.length_map] at few
              by_cases finished : words.length = popped.tokens.length
              · exact ⟨.handOver words popped.sender, _, trivial,
                  .handOver manager reading finished⟩
              · have more : words.length < popped.tokens.length := by omega
                exact ⟨.read, _, trivial, .read manager reading (List.getElem?_eq_getElem more)⟩
  | asleep cond loc =>
      have at_loc : state.queue.locs .manager = loc := by
        rw [State.locs, manager, Thread.loc_asleep]
      have manages := holds.manages
      rw [at_loc] at manages
      have placed := sleeper_of_reachable reachable manager
      cases loc with
      | producing | appending => cases manages
      | consuming => cases cond <;> cases placed
      | popping held =>
          cases cond with
          | nonfull => cases placed
          | nonempty =>
              exact holds.append_possible reachable manager waiting

/-- What a thread still has to do for the messages that are there. -/
def managerStage (reading : Option (List (List UInt8))) : Thread QueueCond QueueLoc → ℕ
  | .awake (.consuming held) =>
    match reading, held with
    | some words, some popped => 3 + (popped.tokens.length - words.length)
    | _, _ => 2
  | .awake (.popping _) => 1
  | _ => 0

def listenerStage : Thread QueueCond QueueLoc → ℕ
  | .awake (.appending ..) => 61
  | .asleep _ (.appending ..) => 60
  | _ => 0

/-- The steps that bring all messages forward are at most so many. -/
def Intake.remaining (state : Intake) : ℕ :=
  57 * state.queue.shared.size.toNat + listenerStage (state.queue.threads .listener) +
    managerStage state.reading (state.queue.threads .manager)

section Woken

variable {wake : Option (Wake QueueCond)} {threads woken : IntakeThread → Thread QueueCond QueueLoc}

/-- Being woken costs one more step. -/
theorem listenerStage_woken (wakes : Woken wake threads woken) (thread : IntakeThread) :
    listenerStage (woken thread) ≤ listenerStage (threads thread) + 1 := by
  rcases wakes.thread_cases thread with same | ⟨cond, loc, asleep, awake⟩
  · rw [same]
    exact Nat.le_succ _
  · rw [asleep, awake]
    cases loc <;> simp [listenerStage]

theorem managerStage_woken (wakes : Woken wake threads woken)
    (reading : Option (List (List UInt8))) (thread : IntakeThread)
    (placed : ∀ cond loc, threads thread = .asleep cond loc →
      loc.pops = true ∨ loc.appends = true) :
    managerStage reading (woken thread) ≤ managerStage reading (threads thread) + 1 := by
  rcases wakes.thread_cases thread with same | ⟨cond, loc, asleep, awake⟩
  · rw [same]
    exact Nat.le_succ _
  · rw [asleep, awake]
    cases loc with
    | consuming | producing => simpa [QueueLoc.pops, QueueLoc.appends] using placed _ _ asleep
    | appending | popping => simp [managerStage]

/-- A thread that is awake is not woken. -/
theorem woken_self {thread : IntakeThread} {loc : QueueLoc}
    (wakes : Woken wake (Function.update threads thread (.awake loc)) woken) :
    woken thread = .awake loc := by
  rcases wakes.thread_cases thread with same | ⟨cond, other, asleep, -⟩
  · rwa [Function.update_self] at same
  · rw [Function.update_self] at asleep
    cases asleep

end Woken

/-- A step that brings messages forward leaves fewer of them. -/
theorem IntakeStep.remaining_lt {before after : Intake} {label : IntakeLabel}
    (reachable : intakeSystem.Reachable before) (forward : label.Forward)
    (moved : IntakeStep before label after) : after.remaining < before.remaining := by
  obtain ⟨contents, holds⟩ := holds_of_reachable reachable
  have size := holds.represents.size
  cases moved with
  | receive | wakeUp => cases forward
  | call running idle =>
      have apart : (IntakeThread.listener : IntakeThread) ≠ .manager := nofun
      simp only [Intake.remaining, State.goto, idle, running, Function.update_self,
        Function.update_of_ne apart, managerStage]
      omega
  | read running reading next =>
      have more : _ < _ := (List.getElem?_eq_some_iff.mp next).1
      simp only [Intake.remaining, reading, running, managerStage, List.length_append,
        List.length_singleton]
      omega
  | handOver running reading finished =>
      simp only [Intake.remaining, reading, running, managerStage]
      omega
  | listen moved =>
      have apart : (IntakeThread.manager : IntakeThread) ≠ .listener := nofun
      cases moved with
      | wait _ running ran =>
          rcases queueProgram_cases ran with ⟨msg, fromAddr, rfl, ⟨_, same⟩ | ⟨_, same⟩⟩ |
            ⟨_, rfl, _⟩
          · cases same
            simp only [Intake.remaining, Function.update_self, Function.update_of_ne apart, running,
              listenerStage]
            omega
          · cases same
          · have listens := holds.listens
            rw [State.locs_of_awake running] at listens
            cases listens
      | leave _ running ran wakes =>
          rcases queueProgram_cases ran with ⟨msg, fromAddr, rfl, ⟨_, same⟩ | ⟨_, same⟩⟩ |
            ⟨_, rfl, _⟩
          · cases same
          · cases same
            have manager := managerStage_woken wakes before.reading .manager fun
              cond loc asleep => by
              rw [Function.update_of_ne apart] at asleep
              have placed := sleeper_of_reachable reachable asleep
              cases cond with
              | nonempty => exact .inl placed
              | nonfull => exact .inr placed
            rw [Function.update_of_ne apart] at manager
            have counted : (before.queue.shared.append msg fromAddr).size =
              before.queue.shared.size + 1 := rfl
            simp only [Intake.remaining, woken_self wakes, running, listenerStage, counted]
            omega
          · have listens := holds.listens
            rw [State.locs_of_awake running] at listens
            cases listens
  | pop moved =>
      have apart : (IntakeThread.listener : IntakeThread) ≠ .manager := nofun
      cases moved with
      | wait _ running ran =>
          rcases queueProgram_cases ran with ⟨_, _, rfl, _⟩ | ⟨held, rfl, ⟨_, same⟩ | ⟨_, same⟩⟩
          · have manages := holds.manages
            rw [State.locs_of_awake running] at manages
            cases manages
          · cases same
            simp only [Intake.remaining, Function.update_self, Function.update_of_ne apart, running,
              managerStage]
            omega
          · cases same
      | leave _ running ran wakes =>
          rcases queueProgram_cases ran with ⟨_, _, rfl, _⟩ |
            ⟨held, rfl, ⟨_, same⟩ | ⟨waiting, same⟩⟩
          · have manages := holds.manages
            rw [State.locs_of_awake running] at manages
            cases manages
          · cases same
          · cases same
            obtain ⟨message, rest, rfl, found⟩ := holds.represents.first waiting
            have listener := listenerStage_woken wakes .listener
            rw [Function.update_of_ne apart] at listener
            have counted : before.queue.shared.pop.1.size = before.queue.shared.size - 1 := rfl
            have awake := woken_self wakes
            have few : before.queue.shared.pop.2.tokens.length ≤ 49 := by
              have words := congrArg List.length (Queue.pop_yields found).words
              rw [Popped.dequeued, List.length_map] at words
              rw [words]
              exact messageWords_length_le _
            simp only [Intake.remaining, State.locs, awake, Thread.loc_awake, running,
              managerStage, QueueLoc.unread, counted, List.length_nil]
            rw [List.length_cons] at size
            omega

theorem received_append (trace trace' : List (Intake × IntakeLabel)) :
    received (trace ++ trace') = received trace ++ received trace' :=
  List.filterMap_append ..

/-- Nothing arrives while messages are brought forward. -/
theorem received_forward {trace : List (Intake × IntakeLabel)}
    (forward : ∀ visit ∈ trace, visit.2.Forward) : received trace = [] := by
  refine List.filterMap_eq_nil_iff.mpr fun visit member => ?_
  have onward := forward visit member
  obtain ⟨state, label⟩ := visit
  cases label with
  | receive => cases onward
  | _ => rfl

/-- Neither thread can bring anything forward. -/
def Intake.Still (state : Intake) : Prop :=
  ∀ label after, label.Forward → ¬ IntakeStep state label after

/-- At a standstill everything received has been handed over. -/
theorem handedOver_of_still {trace : List (Intake × IntakeLabel)} {state : Intake}
    (execution : intakeSystem.Execution trace state) (still : state.Still) :
    handedOver trace = received trace := by
  obtain ⟨fifoTrace, waiting, fifoRun, ⟨contents, holds, rfl⟩, labels⟩ :=
    intakeSimulation.execution execution
  obtain ⟨pushed, popped⟩ := messages_of_visible trace
  have order := Fifo.pushed_eq fifoRun
  rw [labels, pushed, popped] at order
  have nothing : state.outgoing ++ (contents ++ state.incoming).map Message.item = [] := by
    by_contra waiting
    obtain ⟨label, after, forward, moved⟩ := intake_progress ⟨_, execution⟩ holds waiting
    exact still label after forward moved
  rw [order, nothing, List.append_nil]

/-- The listener and the queue manager can go on to a standstill. -/
theorem exists_still {trace : List (Intake × IntakeLabel)} {state : Intake}
    (execution : intakeSystem.Execution trace state) :
    ∃ (trace' : List (Intake × IntakeLabel)) (state' : Intake),
      (intakeSystem.onward state IntakeLabel.Forward).Execution trace' state' ∧ state'.Still :=
  execution.exists_standstill fun _ _ _ reachable forward moved =>
    IntakeStep.remaining_lt reachable forward moved

/-- **Every message is delivered.** From every reachable state, in whatever order the listener
and the queue manager go on, they come to a standstill within a bounded number of steps
unless something arrives or a thread wakes up without reason, and then the words of all
messages received have been handed over, in order, each with its own address. -/
theorem intake_delivers {trace trace' : List (Intake × IntakeLabel)} {state state' : Intake}
    (execution : intakeSystem.Execution trace state)
    (run : (intakeSystem.onward state IntakeLabel.Forward).Execution trace' state') :
    trace'.length ≤ state.remaining ∧
      (state'.Still → handedOver (trace ++ trace') = received trace) := by
  constructor
  · have lower := TransitionSystem.Execution.length_onward_le
      (fun _ _ _ reachable forward moved => IntakeStep.remaining_lt reachable forward moved)
      execution run
    omega
  · intro still
    rw [handedOver_of_still (execution.append run) still, received_append,
      received_forward run.allowed_of_onward, List.append_nil]

/-- A datagram arrives while the queue manager sleeps. -/
theorem intake_delivers_ping :
    ∃ (trace trace' : List (Intake × IntakeLabel)) (state state' : Intake),
      intakeSystem.Execution trace state ∧
        (intakeSystem.onward state IntakeLabel.Forward).Execution trace' state' ∧
        handedOver (trace ++ trace') = [([CString.ascii "ping"], ⟨2, 1, 1, 0⟩)] := by
  let cleared : QueueNode := ⟨.strncpy queueMsgSize [], ⟨0, 0, 0, 0⟩, false⟩
  let buffer : ByteBuffer bufferSize := .strncpy bufferSize (CString.ascii "say$ hello")
  let datagram := CString.ascii "ping$" ++ [0]
  let bytes := (udpSocketRead buffer datagram).1.bytes
  let queue := (queueInit fun _ => cleared).append bytes (some ⟨2, 1, 1, 0⟩)
  have held : (queue.data queue.head).Holds (.stored bytes (some ⟨2, 1, 1, 0⟩)) :=
    Queue.append_holds bytes (some ⟨2, 1, 1, 0⟩)
  have text : CString.ofBytes queueMsgSize bytes = CString.ofBytes queueMsgSize datagram := by
    have read : bytes = datagram ++ buffer.bytes.drop datagram.length :=
      udpSocketRead_bytes (by decide) buffer
    rw [read, ofBytes_append (.inl (by decide))]
  have words : queue.pop.2.dequeued = [CString.ascii "ping"] := by
    rw [(Queue.pop_yields held).words, Message.stored, text]
    decide
  have one : queue.pop.2.tokens.length = 1 := by
    have length := congrArg List.length words
    rwa [Popped.dequeued, List.length_map] at length
  have next := List.getElem?_eq_getElem (one.symm ▸ Nat.zero_lt_one : 0 < queue.pop.2.tokens.length)
  have start : intakeSystem.Execution []
      ⟨QueueState.start IntakeThread.consumer fun _ => cleared, none⟩ := .start ⟨_, rfl⟩
  have asleep := (start.step (.call rfl rfl)).step
    (.pop (.wait IntakeThread.manager rfl rfl))
  have arrived := asleep.step (.receive buffer (some ⟨2, 1, 1, 0⟩) rfl
    (show 0 < datagram.length by decide) (show datagram.length ≤ bufferSize by decide))
  have forward : ∀ label : IntakeLabel, label.Forward → label.Forward := fun _ => id
  have appended := (arrived.rest IntakeLabel.Forward).step ⟨forward (.critical .listener) trivial,
    .listen (.leave IntakeThread.listener rfl (congrArg some (qAppend_room (by decide)))
      (.one IntakeThread.manager rfl))⟩
  have popped := appended.step ⟨forward (.critical .manager) trivial, .pop
    (.leave IntakeThread.manager rfl (congrArg some (qPop_waiting (by decide)))
      (.lost fun thread loc same => by cases thread <;> cases same))⟩
  have read := popped.step ⟨forward .read trivial, .read rfl rfl next⟩
  have delivered := read.step ⟨forward (.handOver _ _) trivial, .handOver rfl rfl one.symm⟩
  have called := delivered.step ⟨forward .call trivial, .call rfl rfl⟩
  have slept := called.step ⟨forward (.critical .manager) trivial, .pop
    (.wait IntakeThread.manager rfl (congrArg some (qPop_empty rfl)))⟩
  have order := (intake_delivers arrived slept).2 fun label after forward moved => by
    cases moved with
    | receive | wakeUp => cases forward
    | call running => cases running
    | read running => cases running
    | handOver running => cases running
    | listen moved =>
        cases moved with
        | wait _ running ran =>
            obtain rfl : _ = QueueLoc.producing := (Thread.awake.inj running).symm
            cases ran
        | leave _ running ran =>
            obtain rfl : _ = QueueLoc.producing := (Thread.awake.inj running).symm
            cases ran
    | pop moved =>
        cases moved with
        | wait _ running => cases running
        | leave _ running => cases running
  refine ⟨_, _, _, _, arrived, slept, order.trans ?_⟩
  have item : (Message.stored bytes (some ⟨2, 1, 1, 0⟩)).item =
      ([CString.ascii "ping"], ⟨2, 1, 1, 0⟩) := by
    rw [(Queue.pop_yields held).item, words]
    exact congrArg _ (Queue.pop_yields held).sender
  exact congrArg (fun message => [message]) item

end MultithreadedChat
