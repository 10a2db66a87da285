import MultithreadedChat.ChatNetwork
import MultithreadedChat.Client.LengthBudget
import MultithreadedChat.Client.ResponseOrder

/-! # Conversations

What a client has logged, end to end. The chat service says who hears what
(`MultithreadedChat.ChatService.hears`): a newcomer the last messages, a member every message
said and every removal by the oldest member, sender and recipient a private message, and who
leaves starts anew. As long as addresses and names are keys, a client to which nothing is on
its way has logged just that, in this order, cut as `say_exec` cuts it
(`MultithreadedChat.clients_log_conversation`).
-/

namespace MultithreadedChat

open CString LinkedList

/-- What the members are told of somebody who is removed. -/
def kickedLine (name : Name) : List UInt8 :=
  ascii "SERVER: " ++ name.bytes ++ ascii " has been kicked"

namespace ChatService

variable (service : ChatService)

def addresses : List SockAddrIn := service.members.map Client.clientAddress

/-- The address of the member of a name. -/
def placeOf (name : Name) : Option SockAddrIn :=
  (service.memberCalled name).map Client.clientAddress

/-- The oldest member is at the address. -/
def presides (address : SockAddrIn) : Bool :=
  service.members.head?.any fun oldest => oldest.clientAddress == address

/-- What the client at an address has heard after an event. -/
def hears (address : SockAddrIn) (event : ServerEvent) (heard : List (List UInt8)) :
    List (List UInt8) :=
  match event with
  | .command request _ =>
    let name := request.command.args 0
    match request.command.kind, service.nameAt request.fromAddr with
    | .conn, _ =>
      if address = request.fromAddr
      then heard ++ (service.history.rtake chatHistorySize).map loggedLine else heard
    | .say, some sender =>
      if address ∈ service.addresses
      then heard ++ [loggedLine (fullMessage sender request.command)] else heard
    | .sayto, some sender =>
      match service.placeOf name with
      | none => heard
      | some place =>
        let received := if address = place
          then heard ++ [loggedLine (SenderLine.received.line sender request.command)] else heard
        if address = request.fromAddr
        then received ++ [loggedLine (SenderLine.confirmed.line sender request.command)]
        else received
    | .disconn, some _ => if address = request.fromAddr then [] else heard
    | .kick, _ =>
      match service.presides request.fromAddr, service.placeOf name with
      | true, some place =>
        if address = place then []
        else if address ∈ service.addresses
        then heard ++ [loggedLine (kickedLine name)]
        else heard
      | _, _ => heard
    | _, _ => heard
  | .managerPass currentTime =>
    match service.members.find? fun member => member.overdue currentTime with
    | none => heard
    | some member =>
      if member.pingSent ≠ 0 ∧ address = member.clientAddress then [] else heard

/-- The service and what the client at an address has heard, after another event. -/
def listen (address : SockAddrIn) (state : ChatService × List (List UInt8)) (event : ServerEvent) :
    ChatService × List (List UInt8) :=
  match state.1.serve event with
  | .ok (service, _) => (service, state.1.hears address event state.2)
  | .error _ => state

/-- What the client at an address has heard of some events. -/
def conversation (address : SockAddrIn) (events : List ServerEvent) : List (List UInt8) :=
  (events.foldl (listen address) (start, [])).2

end ChatService

/-! ## What a datagram does to the log -/

/-- Only two kinds of responses touch the log. -/
theorem keeps_lines {kind : CommandKind} (other : kind ∉ [CommandKind.say, .disconnResponse]) :
    kind.Keeps ClientState.lines := by
  intro client after delivery arrived handled
  rw [handleCliSideCmd, executeServerCommand, delivery.ofCode_kind, arrived] at handled
  cases kind with
  | say | disconnResponse => exact absurd (by decide) other
  | connFailed =>
      obtain ⟨-, rfl⟩ := executeConnectFailed_eq_ok_iff.mp handled
      rfl
  | error =>
      obtain ⟨-, rfl⟩ := executeErrorResponse_eq_ok_iff.mp handled
      rfl
  | connSuccess | mute | unmute | rename =>
      simp only [pure, Except.pure, Except.ok.injEq] at handled
      subst handled
      simp only [ClientState.lines, executeConnectResponse, muteExec, unmuteExec, renameExec]
  | _ =>
      cases handled
      rfl

theorem error_keeps_lines : CommandKind.error.Keeps ClientState.lines := keeps_lines (by decide)

/-- A line is logged. -/
theorem logs_line {datagram : Datagram} {line : List UInt8} (noNul : 0 ∉ line)
    (fits : line.length + 5 < queueMsgSize) (response : datagram.response = ascii "say$ " ++ line) :
    datagram.Acts ClientState.lines (· ++ [loggedLine line]) := by
  rintro client after ⟨leftover, stack, handled⟩
  rw [response] at handled
  have said : (relayed (ascii "say$ " ++ line) leftover stack).kind = some .say := by
    rw [Delivery.kind, relayed_say_words noNul fits]
    rfl
  obtain ⟨joins, room⟩ := handle_ok_iff.mp ⟨after, handled⟩
  rw [handle_say said (joins (by simp [said])) (room said), relayed_say_args noNul fits] at handled
  cases handled
  exact lines_log client (room said) _

/-- Whoever is told to leave forgets the log. -/
theorem logs_disconnresponse (address : SockAddrIn) :
    (disconnresponse address).Acts ClientState.lines fun _ => [] := by
  rintro client after ⟨leftover, stack, handled⟩
  have arrived : (relayed (disconnresponse address).response leftover stack).kind =
      some .disconnResponse := by
    rw [Delivery.kind, disconnresponse,
      relayed_words (show 0 ∉ ascii "disconnresponse$" by decide)
        (show (ascii "disconnresponse$").length < queueMsgSize by decide)]
    rfl
  rw [handleCliSideCmd, executeServerCommand, Delivery.ofCode_kind, arrived] at handled
  cases handled
  rfl

theorem logs_historyLine {message : List UInt8} (noNul : 0 ∉ message)
    (short : message.length < maxMessage + maxNameLen + 2) (address : SockAddrIn) :
    (historyLine address message).Acts ClientState.lines (· ++ [loggedLine message]) :=
  logs_line noNul (by dsimp only [maxMessage, maxNameLen, queueMsgSize] at short ⊢; omega) rfl

/-! ## What the datagrams of an event do -/

section Heard

variable {heard : SockAddrIn → List (List UInt8)}

/-- Lines for one client. -/
theorem updates_history {messages : List (List UInt8)}
    (plain : ∀ message ∈ messages, 0 ∉ message ∧ message.length < maxMessage + maxNameLen + 2)
    (place : SockAddrIn) :
    Updates ClientState.lines (messages.map (historyLine place)) heard fun address =>
      if address = place then heard address ++ messages.map loggedLine else heard address := by
  induction messages generalizing heard with
  | nil => simpa using Mailbox.Updates.nil
  | cons message messages ih =>
      obtain ⟨noNul, short⟩ := plain message List.mem_cons_self
      refine .cons (logs_historyLine noNul short place) (fun _ => rfl) ?_
      have others := fun other member => plain other (List.mem_cons_of_mem message member)
      convert ih others using 2 with address
      by_cases here : address = place <;> simp [here, historyLine]

/-- A line for everybody. -/
theorem updates_broadcast {members : List Client}
    (distinct : (members.map Client.clientAddress).Nodup)
    {response line : List UInt8} (capacity : ℕ) (noNul : 0 ∉ line)
    (fits : line.length + 5 < queueMsgSize) (formatted : response = ascii "say$ " ++ line) :
    Updates ClientState.lines
      (members.map fun member => ⟨member.clientAddress, response, capacity⟩) heard fun address =>
      if address ∈ members.map Client.clientAddress then heard address ++ [loggedLine line]
      else heard address := by
  induction members generalizing heard with
  | nil => simpa using Mailbox.Updates.nil
  | cons member members ih =>
      obtain ⟨new, distinct⟩ := List.nodup_cons.mp distinct
      have logs := @logs_line ⟨member.clientAddress, response, capacity⟩ line noNul fits formatted
      refine .cons logs (fun _ => rfl) ?_
      convert ih distinct using 2 with address
      by_cases here : address = member.clientAddress
      · subst here
        simp only [List.map_cons, List.mem_cons_self, ↓reduceIte, if_neg new]
      · simp [here]

/-- A line for one client. -/
theorem updates_line {datagram : Datagram} {sent : List Datagram} {line : List UInt8}
    {after : SockAddrIn → List (List UInt8)} (noNul : 0 ∉ line)
    (fits : line.length + 5 < queueMsgSize) (response : datagram.response = ascii "say$ " ++ line)
    (more : Updates ClientState.lines sent
      (fun address => if address = datagram.addr then heard address ++ [loggedLine line]
        else heard address) after) :
    Updates ClientState.lines (datagram :: sent) heard after :=
  .cons (logs_line noNul fits response) (fun _ => rfl) more

end Heard

namespace SenderLine

variable (sender : Name) (command : Command)

theorem received_spec : 0 ∉ received.line sender command ∧
    (received.line sender command).length + 5 < queueMsgSize := by
  obtain ⟨short, noNul⟩ := private_spec command sender
  have same : received.line sender command =
      sender.bytes ++ ascii ":(private message) " ++ joinArgs command.args 1 maxMessage := by
    rw [line, front, show ascii ":(private message) " =
      colon :: ascii "(private" ++ [blank] ++ ascii "message)" ++ [blank] from rfl]
    simp [startIndex]
  rw [same]
  exact ⟨noNul, (Nat.add_le_add_right short 5).trans_lt (by decide)⟩

theorem confirmed_spec (parsed : command.Parsed) : 0 ∉ confirmed.line sender command ∧
    (confirmed.line sender command).length + 5 < queueMsgSize := by
  have named : Name.Parsed (command.args 0) := ⟨command, parsed, rfl⟩
  obtain ⟨noNul, fits, -⟩ := confirmed.loggedLine_line named parsed
  exact ⟨noNul, fits⟩

end SenderLine

theorem kickedLine_spec (name : Name) :
    0 ∉ kickedLine name ∧ (kickedLine name).length + 5 < queueMsgSize ∧
      kickedResponse name = ascii "say$ " ++ kickedLine name := by
  have named := length_name_lt name
  have opening : (ascii "say$ SERVER: ").length = 13 := rfl
  have server : (ascii "SERVER: ").length = 8 := rfl
  have closing : (ascii " has been kicked").length = 16 := rfl
  refine ⟨List.not_mem_append (List.not_mem_append (by decide) name.noNul) (by decide), ?_, ?_⟩
  · rw [kickedLine, List.length_append, List.length_append, server, closing]
    dsimp only [queueMsgSize]
    omega
  · have apart : ascii "say$ SERVER: " = ascii "say$ " ++ ascii "SERVER: " := rfl
    refine (List.take_of_length_le ?_).trans (by simp [kickedLine, apart])
    rw [List.length_append, List.length_append, opening, closing]
    dsimp only [responseBufferSize, maxMessage]
    omega

/-! ## What is heard -/

namespace ChatService

variable {service : ChatService}

theorem addresses_eq_keys (service : ChatService) :
    service.addresses = service.keys.map Prod.fst := by
  rw [addresses, keys, List.map_map]
  rfl

theorem placeOf_eq_keys (service : ChatService) (name : Name) :
    service.placeOf name = (service.keys.find? fun key => key.2 == name).map Prod.fst := by
  rw [keys, placeOf, memberCalled, List.find?_map, Option.map_map]
  rfl

theorem presides_eq_keys (service : ChatService) (address : SockAddrIn) :
    service.presides address = service.keys.head?.any fun key => key.1 == address := by
  rw [keys, presides, List.head?_map, Option.any_map]

theorem mem_addresses_iff {address : SockAddrIn} :
    address ∈ service.addresses ↔ service.nameAt address ≠ none := by
  rw [nameAt, ne_eq, Option.map_eq_none_iff, memberAt, List.find?_eq_none, addresses,
    List.mem_map]
  simp

theorem history_note (request : Request) (now : ℤ) :
    (service.note request now).history = service.history := by
  unfold note
  split <;> rfl

/-- Noting activity changes nothing that is heard. -/
theorem hears_note (request : Request) (now : ℤ) (address : SockAddrIn)
    (heard : List (List UInt8)) :
    (service.note request now).hears address (.command request now) heard =
      service.hears address (.command request now) heard := by
  simp only [hears, nameAt_eq_keys, placeOf_eq_keys, presides_eq_keys, addresses_eq_keys,
    keys_note, history_note]

section Served

variable {heard : SockAddrIn → List (List UInt8)}
  (plain : ∀ line ∈ service.history, 0 ∉ line ∧ line.length < maxMessage + maxNameLen + 2)
  (keyed : service.Keyed)

include plain keyed

omit plain in
theorem updates_expel {name : Name} {gone : Client}
    (called : service.memberCalled name = some gone) :
    Updates ClientState.lines (service.expel name).2 heard fun address =>
      if address = gone.clientAddress then []
      else if address ∈ service.addresses
      then heard address ++ [loggedLine (kickedLine name)]
      else heard address := by
  obtain ⟨noNul, fits, response⟩ := kickedLine_spec name
  have named : gone.clientName = name := by simpa using List.find?_some called
  have left := nameAt_dismiss keyed (List.mem_of_find?_eq_some called)
  rw [named] at left
  have distinct : ((service.dismiss name).members.map Client.clientAddress).Nodup :=
    (keyed.1.sublist ((List.eraseP_sublist ..).map _))
  have told : (service.expel name).2 = disconnresponse gone.clientAddress ::
      (service.dismiss name).members.map fun member =>
        ⟨member.clientAddress, kickedResponse name, responseBufferSize⟩ := by
    rw [expel, called]
  rw [told]
  refine .cons (logs_disconnresponse gone.clientAddress) (fun _ => rfl) ?_
  convert updates_broadcast distinct responseBufferSize noNul fits response using 2 with address
  have stays := @mem_addresses_iff (service.dismiss name) address
  rw [left address, addresses] at stays
  have place : (disconnresponse gone.clientAddress).addr = gone.clientAddress := rfl
  by_cases here : address = gone.clientAddress
  · subst here
    rw [if_pos rfl] at stays
    simp only [place, stays, ne_eq, not_true_eq_false, ↓reduceIte]
  · rw [if_neg here, ← mem_addresses_iff] at stays
    simp only [place, stays, here, ↓reduceIte]

/-- What is sent for a command gives every client what it hears of it. -/
theorem updates_execute {request : Request} {now : ℤ} (parsed : request.command.Parsed)
    {service' : ChatService} {sent : List Datagram}
    (done : service.execute request now = .ok (service', sent)) :
    Updates ClientState.lines sent heard fun address =>
      service.hears address (.command request now) (heard address) := by
  have named : service.nameAt request.fromAddr =
    (service.memberAt request.fromAddr).map Client.clientName := rfl
  have known : service.placeOf (request.command.args 0) =
    (service.memberCalled (request.command.args 0)).map Client.clientAddress := rfl
  unfold execute at done
  unfold hears
  cases kind : request.command.kind with
  | conn =>
      simp only [kind] at done ⊢
      cases done
      have opened := (opens_connsuccess request).acts (keeps_lines (by decide))
      refine .cons opened (fun _ => (ite_self _).symm) ?_
      exact updates_history (fun line member => plain line (List.mem_of_mem_drop member)) _
  | say =>
      cases present : service.memberAt request.fromAddr with
      | none =>
          rw [kind, present] at done
          cases done
      | some sender =>
          rw [kind, present] at done
          cases done
          rw [present] at named
          simp only [kind, named]
          have short := fullMessage_length_lt sender.clientName request.command
          refine updates_broadcast keyed.1 responseBufferSize (fullMessage_noNul _ _) ?_ rfl
          dsimp only [maxMessage, maxNameLen, queueMsgSize] at short ⊢
          omega
  | sayto =>
      cases present : service.memberAt request.fromAddr with
      | none =>
          rw [kind, present] at done
          cases done
      | some sender =>
          rw [kind, present] at done
          cases done
          rw [present] at named
          have place : sender.clientAddress = request.fromAddr := by
            simpa using List.find?_some present
          cases called : service.memberCalled (request.command.args 0) with
          | none =>
              rw [called] at known
              simp only [kind, named, known, whisper, called]
              refine updates_unseen ?_ fun _ => rfl
              exact (opens_saytoMissing request.command).acts error_keeps_lines
          | some recipient =>
              rw [called] at known
              simp only [kind, named, known, whisper, called]
              obtain ⟨noNul, fits⟩ := SenderLine.received_spec sender.clientName request.command
              obtain ⟨noNul', fits'⟩ :=
                SenderLine.confirmed_spec sender.clientName request.command parsed
              refine updates_line noNul fits (SenderLine.received.response_eq) ?_
              refine updates_line noNul' fits' (SenderLine.confirmed.response_eq) ?_
              rw [place]
              exact .nil
  | rename =>
      cases present : service.memberAt request.fromAddr with
      | none =>
          rw [kind, present] at done
          cases done
      | some sender =>
          rw [kind, present] at done
          cases done
          refine updates_unseen ?_ fun _ => by simp only [kind]
          exact (@opens_answer .rename (ascii "rename") rfl request).acts
            (keeps_lines (by decide))
  | disconn =>
      cases present : service.memberAt request.fromAddr with
      | none =>
          rw [kind, present] at done
          cases done
          rw [present] at named
          exact updates_nil fun _ => by simp only [kind, named]; rfl
      | some sender =>
          rw [kind, present] at done
          rw [present] at named
          have called := called_eq keyed (List.mem_of_find?_eq_some present)
          have parts : Except.ok (service.part sender.clientName) = .ok (service', sent) := done
          rw [part, called] at parts
          cases parts
          have place : sender.clientAddress = request.fromAddr := by
            simpa using List.find?_some present
          refine updates_single (logs_disconnresponse sender.clientAddress) fun address => ?_
          simp only [kind, named]
          rw [← place]
          rfl
  | kick =>
      simp only [kind] at done ⊢
      change (if service.presides request.fromAddr = true then _ else _) = _ at done
      cases presides : service.presides request.fromAddr with
      | false =>
          rw [presides] at done
          cases done
          exact updates_unseen ((opens_permissionDenied _).acts error_keeps_lines) fun _ => rfl
      | true =>
          rw [presides] at done
          cases called : service.memberCalled (request.command.args 0) with
          | none =>
              rw [called] at known
              simp only [↓reduceIte, expel, called] at done
              cases done
              simp only [known]
              exact updates_nil fun _ => rfl
          | some gone =>
              rw [called] at known
              cases done
              simp only [known]
              exact updates_expel keyed called
  | mute =>
      simp only [kind] at done ⊢
      cases done
      refine updates_unseen ?_ fun _ => rfl
      exact (@opens_answer .mute (ascii "mute") rfl request).acts (keeps_lines (by decide))
  | unmute =>
      simp only [kind] at done ⊢
      cases done
      refine updates_unseen ?_ fun _ => rfl
      exact (@opens_answer .unmute (ascii "unmute") rfl request).acts
        (keeps_lines (by decide))
  | unknown =>
      simp only [kind] at done ⊢
      cases done
      exact updates_unseen ((opens_unknownCommand _).acts error_keeps_lines) fun _ => rfl
  | _ =>
      simp only [kind] at done
      cases done
      exact updates_nil fun _ => by simp only [kind]

omit plain keyed in
theorem updates_patrol (currentTime : ℤ) :
    Updates ClientState.lines (service.patrol currentTime).2 heard fun address =>
      service.hears address (.managerPass currentTime) (heard address) := by
  unfold patrol hears
  cases found : service.members.find? fun member => member.overdue currentTime with
  | none =>
      simp only [found]
      exact updates_nil fun _ => rfl
  | some member =>
      simp only [found]
      by_cases unpinged : member.pingSent = 0
      · simp only [unpinged, ne_eq, not_true_eq_false, false_and, ↓reduceIte]
        exact updates_unseen (acts_ping (keeps_lines (by decide)) _) fun _ => rfl
      · simp only [unpinged, ne_eq, not_false_eq_true, true_and, ↓reduceIte]
        exact updates_single (logs_disconnresponse member.clientAddress) fun _ => rfl

theorem updates_serve {event : ServerEvent} (proper : service.Proper event)
    {service' : ChatService} {sent : List Datagram}
    (served : service.serve event = .ok (service', sent)) :
    Updates ClientState.lines sent heard fun address =>
      service.hears address event (heard address) := by
  cases event with
  | command request now =>
      have noted : (service.note request now).Keyed := by
        rw [keyed_iff_keys, keys_note, ← keyed_iff_keys]
        exact keyed
      have same := @history_note service request now
      have done := @updates_execute _ heard (same.symm ▸ plain) noted _ _ proper.1 _ _ served
      simp only [hears_note] at done
      exact done
  | managerPass currentTime =>
      have same : service.patrol currentTime = (service', sent) := Except.ok.inj served
      have patrolled := @updates_patrol service heard currentTime
      rwa [same] at patrolled

end Served

end ChatService

/-! ## Runs -/

/-- The events that the server has handled in a run. -/
def networkEvents (trace : List (ChatNetwork × NetworkLabel)) : List ServerEvent :=
  trace.filterMap fun
    | (_, .serve event) => some event
    | (_, .deliver ..) => none

/-- What is on its way to a client completes the conversation of its address. -/
structure ChatNetwork.Converses (network : ChatNetwork) (events : List ServerEvent)
    (service : ChatService) : Prop where
  agrees : network.Agrees service
  reachable : serverSystem.Reachable network.server
  listened : ∀ address, (events.foldl (ChatService.listen address) (.start, [])).1 = service
  pending : ∀ address, Mailbox.Pending Takes ClientState.lines (network.inbox address)
    (network.client address) (ChatService.conversation address events)

theorem ChatNetwork.Converses.plain {network : ChatNetwork} {events : List ServerEvent}
    {service : ChatService} (converses : network.Converses events service) :
    ∀ line ∈ service.history, 0 ∉ line ∧ line.length < maxMessage + maxNameLen + 2 := by
  intro line member
  obtain ⟨slot, stored⟩ := List.mem_iff_getElem?.mp member
  have recorded := (converses.agrees.serves.remembers.lines slot).trans stored
  have short := historyShort_of_reachable converses.reachable
  exact ⟨short.noNul slot line recorded, short.short slot line recorded⟩

/-- A step of the server goes on with the conversations, a delivery with what is pending. -/
theorem ChatNetwork.Converses.step {before after : ChatNetwork} {label : NetworkLabel}
    {trace : List (ChatNetwork × NetworkLabel)} {service : ChatService}
    (converses : before.Converses (networkEvents trace) service) (proper : label.Proper before)
    (moved : NetworkStep before label after) :
    ∃ service', after.Converses (networkEvents (trace ++ [(before, label)])) service' := by
  have plain := converses.plain
  obtain ⟨agrees, reachable, listened, pending⟩ := converses
  rw [networkEvents, List.filterMap_append]
  cases label with
  | serve event =>
      obtain ⟨service', sent, served, proper', agrees', clients, inbox⟩ := agrees.serve proper moved
      have listens : ∀ address,
          (networkEvents trace ++ [event]).foldl (ChatService.listen address) (.start, []) =
            (service', service.hears address event
              (ChatService.conversation address (networkEvents trace))) := by
        intro address
        rw [List.foldl_append, List.foldl_cons, List.foldl_nil, ChatService.listen,
          listened address, served]
        rfl
      refine ⟨service', agrees', ?_, fun address => congrArg Prod.fst (listens address),
        fun address => ?_⟩
      · cases moved with
        | serve handled => exact reachable.step (handled_step event handled)
      · have keyed := agrees.serves.keyed_iff.mpr agrees.keyed
        have sends := Mailbox.Pending.send pending
          (ChatService.updates_serve plain keyed proper' served) address
        have heard : ChatService.conversation address (networkEvents trace ++ [event]) =
            service.hears address event
              (ChatService.conversation address (networkEvents trace)) := by
          rw [ChatService.conversation, listens address]
        rw [← heard, ← clients] at sends
        rw [inbox]
        exact sends
  | deliver =>
      refine ⟨service, agrees.deliver moved, ?_, ?_, ?_⟩
      · cases moved
        exact reachable
      · exact fun address => (List.append_nil (networkEvents trace)).symm ▸ listened address
      · cases moved with
        | deliver first handled =>
            exact fun address => (List.append_nil (networkEvents trace)).symm ▸
              Mailbox.Pending.handle pending first ⟨_, _, handled⟩ address

theorem converses_of_execution {trace : List (ChatNetwork × NetworkLabel)}
    {network : ChatNetwork} (execution : networkSystem.Execution trace network)
    (proper : ∀ visit ∈ trace, visit.2.Proper visit.1) :
    ∃ service, network.Converses (networkEvents trace) service := by
  induction execution with
  | start initial =>
      have agrees := agrees_start initial
      obtain ⟨started, empty, apart⟩ := initial
      refine ⟨.start, agrees, started ▸ .start rfl, fun _ => rfl, fun address => ?_⟩
      rw [empty address, Mailbox.Pending.nil_iff, ClientState.lines, (apart address).2]
      rfl
  | step _ moved ih =>
      obtain ⟨service, converses⟩ :=
        ih fun visit member => proper visit (List.mem_append_left _ member)
      exact converses.step (proper _ (List.mem_append_right _ (List.mem_singleton.mpr rfl))) moved

/-- **Clients log the conversation.** In every interleaving of the server with the clients in
which commands have a word in them and addresses and names stay keys, a client to which nothing
is on its way has logged exactly what it has heard of the commands and passes that the server
has handled. -/
theorem clients_log_conversation {trace : List (ChatNetwork × NetworkLabel)}
    {network : ChatNetwork} (execution : networkSystem.Execution trace network)
    (proper : ∀ visit ∈ trace, visit.2.Proper visit.1) {address : SockAddrIn}
    (drained : network.inbox address = []) :
    (network.client address).lines =
      ChatService.conversation address (networkEvents trace) := by
  obtain ⟨service, converses⟩ := converses_of_execution execution proper
  have pending := converses.pending address
  rwa [drained, Mailbox.Pending.nil_iff] at pending

/-- One client says hello to another. -/
theorem clients_log_conversation_hello :
    ∃ (trace : List (ChatNetwork × NetworkLabel)) (network : ChatNetwork),
      networkSystem.Execution trace network ∧
      (network.client (sampleRequest .conn 2 "").fromAddr).lines = [ascii "A: hello"] := by
  let first := (sampleRequest .conn 1 "").fromAddr
  let second := (sampleRequest .conn 2 "").fromAddr
  let stack : CommandMemory := ⟨0, .strncpy _ []⟩
  have firstParsed : (commandOf "conn$ A").Parsed := ⟨_, _, by decide, rfl⟩
  have secondParsed : (commandOf "conn$ B").Parsed := ⟨_, _, by decide, rfl⟩
  have sayParsed : (commandOf "say$ hello").Parsed := ⟨_, _, by decide, rfl⟩
  let connects : Request := ⟨commandOf "conn$ A", first⟩
  let joins : Request := ⟨commandOf "conn$ B", second⟩
  let greets : Request := ⟨commandOf "say$ hello", first⟩
  let apart : ClientState := { ClientState.fresh with connected := false }
  have start : networkSystem.Execution [] ⟨.start, fun _ => [], fun _ => apart⟩ :=
    .start ⟨rfl, fun _ => rfl, fun _ => ⟨rfl, rfl⟩⟩
  have connected := start.step
    (show NetworkStep _ (.serve (.command connects 0)) _ from .serve rfl)
  have joined := connected.step
    (show NetworkStep _ (.serve (.command joins 0)) _ from .serve rfl)
  have told := joined.step (show NetworkStep _ (.deliver second [] stack) _ from
    .deliver rfl (@takes_connsuccess joins secondParsed apart [] stack))
  have greeted := told.step
    (show NetworkStep _ (.serve (.command greets 1)) _ from .serve rfl)
  have heard := greeted.step (show NetworkStep _ (.deliver second [] stack) _ from
    .deliver rfl (@handle_line (ascii "A: hello") (by decide) (by decide) [] stack _
      (by decide) (by decide)))
  have logged := @clients_log_conversation _ _ heard (by
    simp only [List.nil_append, List.cons_append, List.mem_cons, List.not_mem_nil, or_false]
    rintro visit (rfl | rfl | rfl | rfl | rfl)
    · refine ⟨by unfold FreshKeys; decide, ?_⟩
      rintro request now ⟨⟩
      exact firstParsed
    · refine ⟨by unfold FreshKeys; decide, ?_⟩
      rintro request now ⟨⟩
      exact secondParsed
    · trivial
    · refine ⟨by unfold FreshKeys; decide, ?_⟩
      rintro request now ⟨⟩
      exact sayParsed
    · trivial) second rfl
  exact ⟨_, _, heard, logged.trans (by decide)⟩

end MultithreadedChat
