import MultithreadedChat.Client.Program
import MultithreadedChat.Conversation

/-! # The chat with the threads of its clients

The server, which handles one command at a time, and, at every address, the whole client
program: what the server sends to an address arrives there at the listener, in the order in
which it was sent, and its queue, its queue manager and its handlers go on in any interleaving
with everything else. As long as addresses and names are keys, and the handlers of a client
keep apart in the buffer of `join` and overtake none that they conflict with, a client at rest
to which nothing is on its way has the seat that the server has for it, and has logged its
conversation (`MultithreadedChat.client_programs_converse`).
-/

namespace MultithreadedChat

open Commutation CString

/-- The server, what is on its way to every address, and the client program there. -/
structure ChatSystem where
  server : Server
  inbox : SockAddrIn → List Datagram
  program : SockAddrIn → ClientProgram

/-- The server handles an event, a datagram reaches the listener at an address over what its
buffer holds, or a thread of the client there takes a step. -/
inductive ChatLabel
  | serve (event : ServerEvent)
  | arrive (address : SockAddrIn) (buffer : ByteBuffer bufferSize) (wire : List UInt8)
  | client (address : SockAddrIn) (label : ClientLabel)

/-- The bytes are those of the response, its terminator and whatever follows it. -/
def Datagram.Carried (datagram : Datagram) (bytes : List UInt8) : Prop :=
  ∃ leftover, bytes = datagram.response ++ 0 :: leftover

/-- The listener reads from the socket. -/
def ClientLabel.Receives : ClientLabel → Prop
  | .first (.receive ..) => True
  | _ => False

/-- What happens at an address. -/
def ChatLabel.at (address : SockAddrIn) : ChatLabel → Option ClientLabel
  | .serve _ => none
  | .arrive place buffer wire =>
    if place = address then some (.first (.receive buffer wire none)) else none
  | .client place label => if place = address then some label else none

variable (clients : SockAddrIn → ClientState)

inductive ChatStep : ChatSystem → ChatLabel → ChatSystem → Prop
  | serve {system : ChatSystem} {event : ServerEvent} {server : Server} {sent : List Datagram} :
      handle system.server event = .ok (server, sent) →
      ChatStep system (.serve event) { system with
        server := server
        inbox := fun address =>
          system.inbox address ++ Mailbox.addressedTo Datagram.addr address sent }
  | arrive {system : ChatSystem} {address : SockAddrIn} {datagram : Datagram}
      {rest : List Datagram} {buffer : ByteBuffer bufferSize} {wire : List UInt8}
      {program : ClientProgram} :
      system.inbox address = datagram :: rest → datagram.Carried wire →
      (clientSystem (clients address)).step (system.program address)
        (.first (.receive buffer wire none)) program →
      ChatStep system (.arrive address buffer wire) { system with
        inbox := Function.update system.inbox address rest
        program := Function.update system.program address program }
  | client {system : ChatSystem} {address : SockAddrIn} {label : ClientLabel}
      {program : ClientProgram} :
      ¬ label.Receives →
      (clientSystem (clients address)).step (system.program address) label program →
      ChatStep system (.client address label) { system with
        program := Function.update system.program address program }

/-- Nobody is connected at the start, and no client has logged a message. -/
def chatSystem : TransitionSystem ChatSystem ChatLabel where
  initial system := system.server = Server.start ∧ (∀ address, system.inbox address = []) ∧
    ∀ address, (clientSystem (clients address)).initial (system.program address) ∧
      (clients address).connected = false ∧ (clients address).messageCount = 0
  step := ChatStep clients

/-- Commands have a word in them, connections bring unused addresses and names, and clients
are renamed to unused names. -/
def ChatLabel.Proper (system : ChatSystem) : ChatLabel → Prop
  | .serve event => FreshKeys system.server event ∧
    ∀ request now, event = .command request now → request.command.Parsed
  | _ => True

/-- The handlers at the address access the buffer apart, and no section ends ahead of one of an
earlier handler that it conflicts with. -/
def ChatSystem.OrderlyAt (address : SockAddrIn) (system : ChatSystem) (label : ChatLabel) : Prop :=
  ∀ own ∈ label.at address, (system.program address).Orderly own

/-- The client program at an address. -/
def programAt (address : SockAddrIn) :
    (chatSystem clients).Projection (clientSystem (clients address)) where
  state system := system.program address
  label := ChatLabel.at address
  initially _ initial := (initial.2.2 address).1
  hidden := by
    intro before event after moved unseen
    cases moved with
    | serve => rfl
    | arrive | client =>
        rw [ChatLabel.at, ite_eq_right_iff] at unseen
        exact Function.update_of_ne (fun same => nomatch unseen same.symm) ..
  matched := by
    intro before event after event' moved seen
    cases moved with
    | serve => cases seen
    | arrive _ _ moved | client _ moved =>
        obtain ⟨rfl, own⟩ := Option.ite_none_right_eq_some.mp seen
        obtain rfl := Option.some.inj own
        dsimp only
        rwa [Function.update_self]

/-- The events that the server has handled in a run. -/
def chatEvents (trace : List (ChatSystem × ChatLabel)) : List ServerEvent :=
  trace.filterMap fun
    | (_, .serve event) => some event
    | _ => none

/-- The message that the listener at an address is to append. -/
def ChatLabel.message (address : SockAddrIn) : ChatLabel → Option (List UInt8)
  | .arrive place buffer wire =>
    if place = address then some (udpSocketRead buffer wire).1.bytes else none
  | _ => none

/-- The messages that the listener at an address has appended in a run. -/
def messagesAt (address : SockAddrIn) (trace : List (ChatSystem × ChatLabel)) :
    List (List UInt8) :=
  trace.filterMap fun visit => visit.2.message address

theorem messagesAt_concat (address : SockAddrIn) (trace : List (ChatSystem × ChatLabel))
    (system : ChatSystem) (label : ChatLabel) :
    messagesAt address (trace ++ [(system, label)]) =
      messagesAt address trace ++ (label.message address).toList := by
  rw [messagesAt, List.filterMap_append, messagesAt]
  cases found : label.message address <;> simp [found]

variable {clients} {trace : List (ChatSystem × ChatLabel)} {system : ChatSystem}

/-- The listener at an address appends what arrives there. -/
theorem appended_eq_messagesAt (execution : (chatSystem clients).Execution trace system)
    (address : SockAddrIn) :
    appended (handlerStarts.firsts ((programAt clients address).trace trace)) =
      messagesAt address trace := by
  induction execution with
  | start => rfl
  | @step trace before after label _ moved ih =>
      rw [TransitionSystem.Projection.trace_append, Rendezvous.Meetings.firsts,
        List.filterMap_append, appended, List.filterMap_append, messagesAt_concat]
      refine congrArg₂ _ ih ?_
      cases moved with
      | serve => rfl
      | @arrive place =>
          by_cases here : place = address
          · simp [TransitionSystem.Projection.trace, programAt, ChatLabel.at, here,
              Rendezvous.Meetings.firstLabel, ChatLabel.message]
          · simp [TransitionSystem.Projection.trace, programAt, ChatLabel.at, here,
              ChatLabel.message]
      | @client place own _ apart =>
          by_cases here : place = address
          · rcases own with (_ | _) | _ | _
            · exact (apart trivial).elim
            all_goals simp [TransitionSystem.Projection.trace, programAt, ChatLabel.at, here,
              Rendezvous.Meetings.firstLabel, handlerStarts, ChatLabel.message]
          · simp [TransitionSystem.Projection.trace, programAt, ChatLabel.at, here,
              ChatLabel.message]

/-- The bytes that the listener appends still carry the datagram. -/
theorem Datagram.Carried.read {datagram : Datagram} {wire : List UInt8}
    (carried : datagram.Carried wire) (fits : wire.length ≤ bufferSize)
    (buffer : ByteBuffer bufferSize) : datagram.Carried (udpSocketRead buffer wire).1.bytes := by
  obtain ⟨leftover, rfl⟩ := carried
  rw [udpSocketRead_bytes fits]
  exact ⟨_, List.append_assoc ..⟩

theorem fits_of_receives {client : ClientState} {before after : ClientProgram}
    {buffer : ByteBuffer bufferSize} {wire : List UInt8} {fromAddr : Option SockAddrIn}
    (moved : (clientSystem client).step before (.first (.receive buffer wire fromAddr)) after) :
    wire.length ≤ bufferSize := by
  cases moved with
  | first moved =>
      cases moved with
      | receive _ _ _ _ fits => exact fits

/-- The network of the same server and clients in which nothing that was sent has been handled:
what has arrived at an address comes first there. -/
structure ChatNetwork.Unhandled (network : ChatNetwork) (clients : SockAddrIn → ClientState)
    (trace : List (ChatSystem × ChatLabel)) (system : ChatSystem) : Prop where
  server : network.server = system.server
  client : network.client = clients
  inbox : ∀ address, ∃ arrived, network.inbox address = arrived ++ system.inbox address ∧
    List.Forall₂ Datagram.Carried arrived (messagesAt address trace)

section Steps

variable {network : ChatNetwork} {before after : ChatSystem}
  (unhandled : network.Unhandled clients trace before)
include unhandled

/-- The network follows the server. -/
theorem ChatNetwork.Unhandled.serve {event : ServerEvent}
    (moved : ChatStep clients before (.serve event) after) :
    ∃ network', NetworkStep network (.serve event) network' ∧
      network'.Unhandled clients (trace ++ [(before, .serve event)]) after := by
  obtain ⟨server, client, inbox⟩ := unhandled
  cases moved with
  | serve handled =>
      rw [← server] at handled
      refine ⟨_, .serve handled, rfl, client, fun address => ?_⟩
      obtain ⟨arrived, first, carried⟩ := inbox address
      refine ⟨arrived, ?_, ?_⟩
      · dsimp only
        rw [first, List.append_assoc]
      · rw [messagesAt_concat]
        exact (List.append_nil (messagesAt address trace)).symm ▸ carried

/-- What arrives was sent first of what is on its way. -/
theorem ChatNetwork.Unhandled.arrive {place : SockAddrIn} {buffer : ByteBuffer bufferSize}
    {wire : List UInt8} (moved : ChatStep clients before (.arrive place buffer wire) after) :
    network.Unhandled clients (trace ++ [(before, .arrive place buffer wire)]) after := by
  obtain ⟨server, client, inbox⟩ := unhandled
  cases moved with
  | @arrive _ datagram rest _ _ _ waiting carries moved =>
      refine ⟨server, client, fun address => ?_⟩
      obtain ⟨arrived, first, carried⟩ := inbox address
      rw [messagesAt_concat, ChatLabel.message]
      by_cases here : place = address
      · subst here
        rw [waiting] at first
        refine ⟨arrived ++ [datagram], ?_, ?_⟩
        · dsimp only
          rw [Function.update_self, first, List.append_assoc]
          rfl
        · rw [if_pos rfl]
          exact List.rel_append carried (.cons (carries.read (fits_of_receives moved) buffer) .nil)
      · refine ⟨arrived, ?_, ?_⟩
        · dsimp only
          rw [Function.update_of_ne (Ne.symm here), first]
        · rw [if_neg here]
          exact (List.append_nil (messagesAt address trace)).symm ▸ carried

theorem ChatNetwork.Unhandled.clientStep {place : SockAddrIn} {own : ClientLabel}
    (moved : ChatStep clients before (.client place own) after) :
    network.Unhandled clients (trace ++ [(before, .client place own)]) after := by
  obtain ⟨server, client, inbox⟩ := unhandled
  cases moved with
  | client =>
      refine ⟨server, client, fun address => ?_⟩
      obtain ⟨arrived, first, carried⟩ := inbox address
      rw [messagesAt_concat]
      exact ⟨arrived, first, (List.append_nil (messagesAt address trace)).symm ▸ carried⟩

end Steps

/-- What happens to the server in a run, and what is sent, happens in a run of the network in
which no client handles anything. -/
theorem unhandled_of_execution (execution : (chatSystem clients).Execution trace system)
    (proper : ∀ visit ∈ trace, visit.2.Proper visit.1) :
    ∃ (trace' : List (ChatNetwork × NetworkLabel)) (network : ChatNetwork),
      networkSystem.Execution trace' network ∧ (∀ visit ∈ trace', visit.2.Proper visit.1) ∧
        networkEvents trace' = chatEvents trace ∧ network.Unhandled clients trace system := by
  induction execution with
  | @start system initial =>
      obtain ⟨started, empty, programs⟩ := initial
      refine ⟨[], ⟨system.server, system.inbox, clients⟩,
        .start ⟨started, empty, fun address => (programs address).2⟩, nofun, rfl, rfl, rfl,
        fun address => ⟨[], rfl, .nil⟩⟩
  | @step trace before after label execution moved ih =>
      obtain ⟨trace', network, run, proper', events, unhandled⟩ :=
        ih fun visit member => proper visit (List.mem_append_left _ member)
      have now : label.Proper before :=
        proper (before, label) (List.mem_append_right _ (List.mem_singleton.mpr rfl))
      cases label with
      | serve event =>
          obtain ⟨network', moved', unhandled'⟩ := unhandled.serve moved
          refine ⟨_, network', run.step moved', fun visit member => ?_, ?_, unhandled'⟩
          · rcases List.mem_append.mp member with old | last
            · exact proper' visit old
            · obtain rfl := List.mem_singleton.mp last
              obtain ⟨fresh, parsed⟩ := now
              exact ⟨unhandled.server ▸ fresh, parsed⟩
          · rw [networkEvents, List.filterMap_append, chatEvents, List.filterMap_append]
            exact congrArg (· ++ [event]) events
      | arrive =>
          refine ⟨trace', network, run, proper', ?_, unhandled.arrive moved⟩
          rw [events, chatEvents, chatEvents, List.filterMap_append]
          exact (List.append_nil _).symm
      | client =>
          refine ⟨trace', network, run, proper', ?_, unhandled.clientStep moved⟩
          rw [events, chatEvents, chatEvents, List.filterMap_append]
          exact (List.append_nil _).symm

/-- Handling messages that carry datagrams is handling the datagrams. -/
theorem handlesAll_of_handleAll {client after : ClientState} {arrived : List Datagram}
    {deliveries : List Delivery}
    (carried : List.Forall₂ Datagram.Carried arrived (deliveries.map Delivery.msg))
    (handled : handleAll client deliveries = .ok after) :
    Mailbox.HandlesAll Takes client arrived after := by
  induction deliveries generalizing client arrived with
  | nil =>
      cases carried
      obtain rfl : client = after := Except.ok.inj handled
      exact .nil
  | cons delivery deliveries ih =>
      cases carried with
      | cons first rest =>
          obtain ⟨leftover, bytes⟩ := first
          rw [handleAll, List.foldlM_cons] at handled
          cases ran : handleCliSideCmd client delivery with
          | error =>
              rw [ran] at handled
              cases handled
          | ok middle =>
              rw [ran] at handled
              refine .cons ⟨leftover, delivery.stack, ?_⟩ (ih rest handled)
              rw [relayed, ← bytes]
              exact ran

/-- The seat of a client can be seen in what it keeps. -/
theorem seat_congr {client other : ClientState} (same : client.view = other.view) :
    client.seat = other.seat := by
  have names : client.name = other.name := congrArg ClientView.name same
  have connections : client.connected = other.connected := congrArg ClientView.connected same
  rw [ClientState.seat, ClientState.seat, names, connections]

section Onward

variable {address : SockAddrIn}

/-- A step of the client at an address. -/
theorem ChatStep.clientOnward {system : ChatSystem} {program after : ClientProgram}
    {label : ClientLabel} (moved : (clientSystem (clients address)).step program label after)
    (apart : ¬ label.Receives) :
    ChatStep clients
      { system with program := Function.update system.program address program }
      (.client address label)
      { system with program := Function.update system.program address after } := by
  have stepped : ChatStep clients
      { system with program := Function.update system.program address program }
      (.client address label) _ :=
    .client apart ((Function.update_self address program system.program).symm ▸ moved)
  rwa [Function.update_idem] at stepped

/-- The client at an address may go on while all others wait. -/
theorem forward_of_client {program after : ClientProgram}
    {clientTrace : List (ClientProgram × ClientLabel)}
    (run : ((clientSystem (clients address)).onward program ClientLabel.Forward).Execution
      clientTrace after) :
    ∃ trace', ((chatSystem clients).onward
      { system with program := Function.update system.program address program }
      fun label => ∃ own, label = .client address own ∧ own.Forward).Execution trace'
      { system with program := Function.update system.program address after } := by
  induction run with
  | start initial =>
      subst initial
      exact ⟨[], .start rfl⟩
  | @step _ _ _ label _ moved ih =>
      obtain ⟨forward, moved⟩ := moved
      obtain ⟨trace', run⟩ := ih
      have apart : ¬ label.Receives := by
        rcases label with (_ | _) | _ | _
        · exact forward.elim
        all_goals exact id
      exact ⟨_, run.step ⟨⟨label, rfl, forward⟩, .clientOnward moved apart⟩⟩

end Onward

/-- **The programs converse.** In every interleaving of a server that handles one command at a
time with all threads of its clients, in which commands have a word in them and addresses and
names stay keys, a client at rest, to which nothing is on its way and in which the handlers
have accessed the buffer of `join` apart and have overtaken none that they conflict with, takes
itself to be connected exactly if its address is in the list, under the name that the server
has for it, and has logged exactly what it has heard of the commands and passes that the server
has handled. -/
theorem client_programs_converse (execution : (chatSystem clients).Execution trace system)
    (proper : ∀ visit ∈ trace, visit.2.Proper visit.1) {address : SockAddrIn}
    (orderly : ∀ visit ∈ trace, visit.1.OrderlyAt address visit.2)
    (drained : system.inbox address = []) (rests : (system.program address).Rests) :
    (system.program address).2.client.seat =
        (system.server.registry.nameAt address).map CString.bytes ∧
      (system.program address).2.client.lines =
        ChatService.conversation address (chatEvents trace) := by
  have run := (programAt clients address).execution execution
  obtain ⟨deliveries, waiting, messages, -, still, commands⟩ := deliveries_of_execution run
  rw [still rests.still, List.append_nil, appended_eq_messagesAt execution] at messages
  obtain ⟨after, handled, shown⟩ := handleAll_of_ended run (fun visit member => by
    obtain ⟨earlier, listed, seen⟩ := List.mem_filterMap.mp member
    obtain ⟨own, here, rfl⟩ := Option.map_eq_some_iff.mp seen
    exact orderly earlier listed own here) rests.ended commands
  obtain ⟨trace', network, networkRun, proper', events, unhandled⟩ :=
    unhandled_of_execution execution proper
  obtain ⟨service, converses⟩ := converses_of_execution networkRun proper'
  obtain ⟨arrived, first, carried⟩ := unhandled.inbox address
  rw [drained, List.append_nil] at first
  rw [messages] at carried
  have handles := handlesAll_of_handleAll carried handled
  rw [← first, ← unhandled.client] at handles
  have seat := (converses.agrees.pending address).handlesAll handles
  have lines := (converses.pending address).handlesAll handles
  rw [ChatService.seatAt, converses.agrees.serves.nameAt_eq, unhandled.server] at seat
  rw [events] at lines
  exact ⟨(seat_congr shown).symm.trans seat, (congrArg ClientView.log shown).symm.trans lines⟩

/-- A client connects. -/
theorem client_programs_converse_connecting :
    ∃ clients trace system address, (chatSystem clients).Execution trace system ∧
      (system.program address).2.client.seat = some (ascii "A") ∧
      (system.program address).2.client.lines =
        ChatService.conversation address (chatEvents trace) := by
  let address := (sampleRequest .conn 1 "").fromAddr
  let connects : Request := ⟨commandOf "conn$ A", address⟩
  have parsed : (commandOf "conn$ A").Parsed := ⟨_, _, by decide, rfl⟩
  let apart : ClientState := { sampleClient with connected := false }
  let cleared : QueueNode := ⟨.strncpy queueMsgSize [], ⟨0, 0, 0, 0⟩, false⟩
  let buffer : ByteBuffer bufferSize := .strncpy bufferSize (ascii "say$ hello")
  let wire := (connsuccess connects).response ++ [0]
  let idle : ClientProgram :=
    (⟨QueueState.start IntakeThread.consumer fun _ => cleared, none⟩, ⟨apart, [], []⟩)
  have begun : (clientSystem apart).Execution [] idle := .start ⟨⟨_, rfl⟩, rfl, rfl⟩
  have receives : (clientSystem apart).step idle (.first (.receive buffer wire none)) _ :=
    .first (.receive buffer none rfl (show 0 < wire.length by decide)
      (show wire.length ≤ bufferSize by decide)) (by simp [handlerStarts])
  have waits := ClientLabel.waits_first (.receive buffer wire none)
  obtain ⟨_, intake, deliveries, run, still, messages⟩ := exists_started (begun.step receives)
    fun visit member => List.mem_singleton.mp member ▸ waits
  obtain ⟨delivery, rest, rfl, msg, none⟩ := List.map_eq_cons_iff.mp messages.symm
  obtain rfl := List.map_eq_nil_iff.mp none
  have two : sections delivery.command = [.connect delivery.command, .connectRedraw] := by
    have carried : (connsuccess connects).Carried delivery.msg :=
      msg ▸ Datagram.Carried.read ⟨[], rfl⟩ (show wire.length ≤ bufferSize by decide) buffer
    obtain ⟨leftover, bytes⟩ := carried
    have kind := (opens_connsuccess connects).kind_eq leftover delivery.stack
    rw [relayed, ← bytes] at kind
    rw [sections, delivery.ofCode_kind, kind]
  have start : (chatSystem fun _ => apart).Execution [] ⟨.start, fun _ => [], fun _ => idle⟩ :=
    .start ⟨rfl, fun _ => rfl, fun _ => ⟨⟨⟨_, rfl⟩, rfl, rfl⟩, rfl, rfl⟩⟩
  have served := start.step
    (show ChatStep _ _ (.serve (.command connects 0)) _ from .serve rfl)
  have reached := served.step (show ChatStep _ _ (.arrive address buffer wire) _ from
    .arrive rfl ⟨[], rfl⟩ receives)
  obtain ⟨trace, server, inbox, program, arrived, empty, named, proper, orderly, run⟩ :
      ∃ trace server inbox program,
        (chatSystem fun _ => apart).Execution trace
          ⟨server, inbox, Function.update (fun _ => idle) address program⟩ ∧
        inbox address = [] ∧
        (server.registry.nameAt address).map CString.bytes = some (ascii "A") ∧
        (∀ visit ∈ trace, visit.2.Proper visit.1) ∧
        (∀ visit ∈ trace, visit.1.OrderlyAt address visit.2) ∧
        ∃ trace', ((clientSystem apart).onward program ClientLabel.Forward).Execution trace'
          (intake, ⟨apart, [], [Handler.fresh delivery.command]⟩) := by
    refine ⟨_, _, _, _, reached, rfl, rfl, fun visit member => ?_, fun visit member => ?_, _, run⟩
    · rcases List.mem_pair.mp member with rfl | rfl
      · refine ⟨by unfold FreshKeys; decide, ?_⟩
        rintro request now ⟨⟩
        exact parsed
      · trivial
    · rcases List.mem_pair.mp member with rfl | rfl
      · rintro own ⟨⟩
      · rintro own ⟨⟩
        exact ClientLabel.Waits.orderly waits
  obtain ⟨clientTrace, run⟩ := run
  obtain ⟨trace', onward⟩ := @forward_of_client (fun _ => apart)
    ⟨server, inbox, fun _ => idle⟩ address _ _ _ run
  have handed := arrived.append onward
  rw [Handler.fresh, two] at handed
  have connect : (clientSystem apart).step
      (intake, ⟨apart, [], [⟨Option.none, [.connect delivery.command, .connectRedraw]⟩]⟩)
      (.second (.whole 0)) _ :=
    .second (.whole 0 rfl rfl (fun signalled => by cases signalled) rfl) (by simp [handlerStarts])
  have redraw : (clientSystem apart).step
      (intake, ⟨executeConnectResponse delivery.command apart, [],
        [⟨Option.none, [.connectRedraw]⟩]⟩) (.second (.whole 0)) _ :=
    .second (.whole 0 rfl rfl (fun _ => by simp [BufferPool.Free, Handler.locks]) rfl)
      (by simp [handlerStarts])
  have redrawn := (handed.step (.clientOnward connect id)).step (.clientOnward redraw id)
  obtain ⟨seat, lines⟩ := @client_programs_converse _ _ _ redrawn (by
    intro visit member
    simp only [List.mem_append, List.mem_singleton] at member
    rcases member with ((old | later) | rfl) | rfl
    · exact proper visit old
    · obtain ⟨own, same, -⟩ := onward.allowed_of_onward visit later
      rw [same]
      trivial
    · trivial
    · trivial) address (by
    intro visit member
    simp only [List.mem_append, List.mem_singleton] at member
    rcases member with ((old | later) | rfl) | rfl
    · exact orderly visit old
    · obtain ⟨own, same, forward⟩ := onward.allowed_of_onward visit later
      rintro label seen
      rw [same, ChatLabel.at, if_pos rfl] at seen
      obtain rfl := Option.some.inj seen
      exact forward.waits.orderly
    · rintro label ⟨⟩ own ⟨⟩
      exact orderly_of_first trivial rfl
    · rintro label ⟨⟩ own ⟨⟩
      exact orderly_of_first trivial rfl) empty (by
    dsimp only
    rw [Function.update_self]
    refine ⟨still, fun handler among => ?_⟩
    obtain rfl := List.mem_singleton.mp among
    rfl)
  exact ⟨_, _, _, address, redrawn, seat.trans named, lines⟩

end MultithreadedChat
