import MultithreadedChat.Client.HandlerOrder
import MultithreadedChat.Foundation.Rendezvous
import MultithreadedChat.Intake

/-! # The client program

The threads of a client that handle what the server sends: `cli_listener` and
`cli_queue_manager` at their queue, and the handlers that the queue manager starts, whose
sections and accesses to the buffer of `join` interleave. In every interleaving handlers are
started for the messages appended, in order, and as long as the handlers access the buffer
apart and no section overtakes one that it conflicts with, a client at rest keeps what
handling the messages one at a time leaves (`MultithreadedChat.client_handles_in_order`).
-/

namespace MultithreadedChat

open Commutation

/-- The queue manager has copied the words of a message; the handler that it starts parses
them over what its stack holds. -/
structure HandlerStart where
  words : List (List UInt8)
  sender : SockAddrIn
  stack : CommandMemory

/-- What is handed over starts a handler, and handlers are started for nothing else. -/
def handlerStarts : Rendezvous.Meetings HandlerStart IntakeLabel BufferLabel where
  first start := .handOver start.words start.sender
  second start := .start (start.stack.commandHandler start.words)
  firstOnly label := ∃ words sender, label = .handOver words sender
  secondOnly label := ∃ command, label = .start command

/-- The threads at the queue, and the client with its handlers. -/
abbrev ClientProgram := Intake × BufferPool

abbrev ClientLabel := Rendezvous.Event HandlerStart IntakeLabel BufferLabel

/-- All runs of the client program from a client. -/
def clientSystem (client : ClientState) : TransitionSystem ClientProgram ClientLabel :=
  Rendezvous.system intakeSystem (bufferSystem client) handlerStarts

/-- The handlers access the buffer apart, and no section ends ahead of one of an earlier handler
that it conflicts with. -/
def ClientProgram.Orderly (program : ClientProgram) (label : ClientLabel) : Prop :=
  ∀ own ∈ handlerStarts.secondLabel label, program.2.Orderly own

/-- Neither thread at the queue can bring anything forward, and the handlers have ended. -/
structure ClientProgram.Rests (program : ClientProgram) : Prop where
  still : program.1.Still
  ended : ∀ handler ∈ program.2.handlers, handler.left = []

/-- The messages that the listener has appended. -/
def appended (trace : List (Intake × IntakeLabel)) : List (List UInt8) :=
  trace.filterMap fun
    | (_, .receive buffer datagram _) => some (udpSocketRead buffer datagram).1.bytes
    | _ => none

theorem appended_append (trace trace' : List (Intake × IntakeLabel)) :
    appended (trace ++ trace') = appended trace ++ appended trace' :=
  List.filterMap_append

/-- The words of a message. -/
def wordsOf (msg : List UInt8) : List (List UInt8) :=
  messageWords (CString.ofBytes queueMsgSize msg).bytes

/-- The command that a handler parses from the words it is started with. -/
def HandledFor (item : List (List UInt8) × SockAddrIn) (command : CommandMemory) : Prop :=
  ∃ stack : CommandMemory, command = stack.commandHandler item.1

theorem item_stored (msg : List UInt8) (fromAddr : Option SockAddrIn) :
    (Message.stored msg fromAddr).item.1 = wordsOf msg := rfl

theorem received_eq_appended (trace : List (Intake × IntakeLabel)) :
    (received trace).map Prod.fst = (appended trace).map wordsOf := by
  rw [received, appended, List.map_filterMap, List.map_filterMap]
  refine List.filterMap_congr fun visit _ => ?_
  obtain ⟨state, label⟩ := visit
  cases label with
  | receive => simp only [Option.map_some, item_stored]
  | _ => rfl

variable {client : ClientState} {trace : List (ClientProgram × ClientLabel)}
  {program : ClientProgram}

/-- Handlers are started for what is handed over. -/
theorem started_of_handedOver (execution : (clientSystem client).Execution trace program) :
    List.Forall₂ HandledFor (handedOver (handlerStarts.firsts trace))
      (responses (handlerStarts.seconds trace)) := by
  rw [handedOver, responses]
  refine Rendezvous.exchanged execution ?_ ?_ ?_
  · intro _ label own
    cases label with
    | handOver => exact (own ⟨_, _, rfl⟩).elim
    | _ => rfl
  · intro _ label own
    cases label with
    | start => exact (own ⟨_, rfl⟩).elim
    | enter | access | leave | whole => rfl
  · intro _ _ start
    exact ⟨_, _, rfl, rfl, start.stack, rfl⟩

/-- Commands that are parsed from the words of messages are those of deliveries. -/
theorem exists_deliveries {messages : List (List UInt8)}
    {items : List (List (List UInt8) × SockAddrIn)} {commands : List CommandMemory}
    (same : messages.map wordsOf = items.map Prod.fst)
    (parsed : List.Forall₂ HandledFor items commands) :
    ∃ deliveries : List Delivery, deliveries.map Delivery.msg = messages ∧
      deliveries.map Delivery.command = commands := by
  induction parsed generalizing messages with
  | nil =>
      obtain rfl : messages = [] := List.map_eq_nil_iff.mp same
      exact ⟨[], rfl, rfl⟩
  | @cons item _ _ _ here _ ih =>
      obtain ⟨stack, rfl⟩ := here
      cases messages with
      | nil => cases same
      | cons message messages =>
          rw [List.map_cons, List.map_cons, List.cons.injEq] at same
          obtain ⟨deliveries, rfl, rfl⟩ := ih same.2
          refine ⟨⟨message, stack⟩ :: deliveries, rfl, ?_⟩
          rw [List.map_cons, Delivery.command_eq, ← same.1]
          rfl

/-- The handlers are those of the messages appended first. -/
theorem deliveries_of_execution (execution : (clientSystem client).Execution trace program) :
    ∃ (deliveries : List Delivery) (waiting : List (List UInt8)),
      appended (handlerStarts.firsts trace) = deliveries.map Delivery.msg ++ waiting ∧
      waiting.length ≤ queueMax + 1 ∧ (program.1.Still → waiting = []) ∧
      responses (handlerStarts.seconds trace) = deliveries.map Delivery.command := by
  have intake := Rendezvous.execution_first execution
  obtain ⟨items, order, few⟩ := received_eq_handedOver intake
  have words := received_eq_appended (handlerStarts.firsts trace)
  rw [order, List.map_append] at words
  obtain ⟨messages, waiting, split, first, rest⟩ := List.map_eq_append_iff.mp words.symm
  obtain ⟨deliveries, rfl, commands⟩ := exists_deliveries first (started_of_handedOver execution)
  have length : waiting.length = items.length := by
    have lengths := congrArg List.length rest
    rwa [List.length_map, List.length_map] at lengths
  refine ⟨deliveries, waiting, split, length ▸ few, fun still => ?_, commands.symm⟩
  rw [handedOver_of_still intake still, List.self_eq_append_right] at order
  rwa [order, List.length_nil, List.length_eq_zero_iff] at length

theorem handleAll_eq (client : ClientState) (deliveries : List Delivery) :
    handleAll client deliveries = executeAll client (deliveries.map Delivery.command) := by
  rw [executeAll, List.foldlM_map]
  rfl

/-- Handlers that have ended in order leave what handling the messages one at a time leaves. -/
theorem handleAll_of_ended (execution : (clientSystem client).Execution trace program)
    (orderly : ∀ visit ∈ trace, visit.1.Orderly visit.2)
    (ended : ∀ handler ∈ program.2.handlers, handler.left = []) {deliveries : List Delivery}
    (commands : responses (handlerStarts.seconds trace) = deliveries.map Delivery.command) :
    ∃ after, handleAll client deliveries = .ok after ∧ after.view = program.2.client.view := by
  rw [handleAll_eq, ← commands, executeAll_eq]
  refine exists_runSections
    (applyAll_of_orderly (Rendezvous.execution_second execution) ?_ ended)
  intro visit member
  obtain ⟨earlier, listed, seen⟩ := List.mem_filterMap.mp member
  obtain ⟨label, own, rfl⟩ := Option.map_eq_some_iff.mp seen
  exact orderly earlier listed label own

/-- The queue goes on, and handlers are started, but none executes a section. -/
def ClientLabel.Forward : ClientLabel → Prop
  | .first label => label.Forward
  | .both _ => True
  | .second _ => False

/-- The client program goes on as its queue does. -/
theorem forward_of_intake {intakeTrace : List (Intake × IntakeLabel)} {intake : Intake}
    (run : (intakeSystem.onward program.1 IntakeLabel.Forward).Execution intakeTrace intake) :
    ∃ (trace' : List (ClientProgram × ClientLabel)) (handlers : List Handler),
      ((clientSystem client).onward program ClientLabel.Forward).Execution trace'
        (intake, ⟨program.2.client, program.2.result, handlers⟩) := by
  induction run with
  | start initial =>
      subst initial
      exact ⟨[], program.2.handlers, .start rfl⟩
  | @step _ _ _ label _ moved ih =>
      obtain ⟨forward, moved⟩ := moved
      obtain ⟨trace', handlers, run⟩ := ih
      by_cases handed : handlerStarts.firstOnly label
      · obtain ⟨words, sender, rfl⟩ := handed
        let start : HandlerStart := ⟨words, sender, ⟨0, .strncpy _ []⟩⟩
        have started : (clientSystem client).step
            (_, ⟨program.2.client, program.2.result, handlers⟩) (.both start)
            (_, ⟨program.2.client, program.2.result, _⟩) := .both moved (.start _)
        have onward : ClientLabel.Forward (.both start) := trivial
        exact ⟨_, _, run.step ⟨onward, started⟩⟩
      · have gone : (clientSystem client).step
            (_, ⟨program.2.client, program.2.result, handlers⟩) (.first label)
            (_, ⟨program.2.client, program.2.result, handlers⟩) := .first moved handed
        have onward : ClientLabel.Forward (.first label) := forward
        exact ⟨_, handlers, run.step ⟨onward, gone⟩⟩

/-- A handler that has not begun. -/
def Handler.fresh (command : CommandMemory) : Handler := ⟨none, sections command⟩

/-- Handlers that have not begun have all their sections left. -/
theorem pool_of_waiting {trace : List (BufferPool × BufferLabel)} {pool : BufferPool}
    (execution : (bufferSystem client).Execution trace pool)
    (waiting : ∀ visit ∈ trace, visit.2.response.isSome = true) :
    pool.client = client ∧ pool.handlers = (responses trace).map Handler.fresh := by
  induction execution with
  | start initial => exact initial
  | @step trace before after label _ moved ih =>
      obtain ⟨same, handlers⟩ :=
        ih fun visit member => waiting visit (List.mem_append_left _ member)
      have starts := waiting _ (List.mem_append_right _ (List.mem_singleton.mpr rfl))
      cases moved with
      | start command =>
          refine ⟨same, ?_⟩
          rw [responses, List.filterMap_append, List.map_append]
          exact congrArg (· ++ [Handler.fresh command]) handlers
      | enter | access | leave | whole => cases starts

/-- No handler takes a step. -/
def ClientLabel.Waits (label : ClientLabel) : Prop := ∀ own, label ≠ .second own

theorem ClientLabel.waits_first (label : IntakeLabel) : ClientLabel.Waits (.first label) := by
  intro own same
  cases same

theorem ClientLabel.Forward.waits {label : ClientLabel} (forward : label.Forward) :
    label.Waits := by
  rintro own rfl
  exact forward

theorem ClientLabel.Waits.orderly {label : ClientLabel} (waits : label.Waits) :
    program.Orderly label := by
  intro own here
  cases label with
  | first => cases here
  | both start =>
      obtain rfl := Option.some.inj here
      exact orderly_start _
  | second own => exact (waits own rfl).elim

theorem appended_forward {trace : List (ClientProgram × ClientLabel)}
    (forward : ∀ visit ∈ trace, visit.2.Forward) : appended (handlerStarts.firsts trace) = [] := by
  refine List.filterMap_eq_nil_iff.mpr fun visit member => ?_
  obtain ⟨earlier, listed, seen⟩ := List.mem_filterMap.mp member
  obtain ⟨own, here, rfl⟩ := Option.map_eq_some_iff.mp seen
  have onward := forward earlier listed
  obtain ⟨before, label⟩ := earlier
  cases label with
  | first label =>
      obtain rfl := Option.some.inj here
      cases label with
      | receive => cases onward
      | _ => rfl
  | both start =>
      obtain rfl := Option.some.inj here
      rfl
  | second => cases here

theorem responding_of_waits {trace : List (ClientProgram × ClientLabel)}
    (waits : ∀ visit ∈ trace, ClientLabel.Waits visit.2) :
    ∀ visit ∈ handlerStarts.seconds trace, visit.2.response.isSome = true := by
  intro visit member
  obtain ⟨⟨earlier, label⟩, listed, seen⟩ := List.mem_filterMap.mp member
  obtain ⟨own, here, rfl⟩ := Option.map_eq_some_iff.mp seen
  cases label with
  | first => cases here
  | both start =>
      obtain rfl := Option.some.inj here
      rfl
  | second own => exact (waits _ listed own rfl).elim

/-- Before any handler begins, all messages can be brought to their handlers. -/
theorem exists_started (execution : (clientSystem client).Execution trace program)
    (waits : ∀ visit ∈ trace, ClientLabel.Waits visit.2) :
    ∃ (trace' : List (ClientProgram × ClientLabel)) (intake : Intake)
      (deliveries : List Delivery),
      ((clientSystem client).onward program ClientLabel.Forward).Execution trace'
        (intake, ⟨client, program.2.result,
          (deliveries.map Delivery.command).map Handler.fresh⟩) ∧
      intake.Still ∧ appended (handlerStarts.firsts trace) = deliveries.map Delivery.msg := by
  obtain ⟨intakeTrace, intake, intakeRun, still⟩ :=
    exists_still (Rendezvous.execution_first execution)
  obtain ⟨trace', handlers, run⟩ := forward_of_intake intakeRun
  have whole := execution.append run
  have forward := run.allowed_of_onward
  obtain ⟨deliveries, rest, messages, -, none, commands⟩ := deliveries_of_execution whole
  obtain ⟨same, fresh⟩ := pool_of_waiting (Rendezvous.execution_second whole)
    (responding_of_waits fun visit member => (List.mem_append.mp member).elim (waits visit)
      fun last => (forward visit last).waits)
  rw [commands] at fresh
  have later : appended (handlerStarts.firsts (trace ++ trace')) =
      appended (handlerStarts.firsts trace) := by
    rw [Rendezvous.Meetings.firsts_append, appended_append, appended_forward forward,
      List.append_nil]
  rw [later, none still, List.append_nil] at messages
  dsimp only at same fresh
  rw [same, fresh] at run
  exact ⟨trace', intake, deliveries, run, still, messages⟩

end MultithreadedChat
