import MultithreadedChat.Server.History

/-! # The chat service

What the server is for, without nodes and pointers: a list of members, oldest first, and the
messages kept for newcomers. A member is whoever comes first under an address or a name.
Handled one at a time, every sequence of commands and passes of the connection manager makes
the server send exactly what the service sends, and fault exactly when the service does
(`MultithreadedChat.server_refines_chat_service`).
-/

namespace MultithreadedChat

open CString LinkedList

/-- The members of the chat, oldest first, and the first messages said. -/
structure ChatService where
  members : List Client
  history : List (List UInt8)

namespace ChatService

def start : ChatService := ⟨[], []⟩

variable (service : ChatService)

/-- The member at an address. -/
def memberAt (address : SockAddrIn) : Option Client :=
  service.members.find? fun member => member.clientAddress == address

/-- The member of a name. -/
def memberCalled (name : Name) : Option Client :=
  service.members.find? fun member => member.clientName == name

/-- Changing the first member that passes a sought. -/
def change (sought : Client → Bool) (f : Client → Client) : ChatService :=
  { service with
    members := service.members.replaceF fun member =>
      if sought member then some (f member) else none }

/-- The member of a name leaves. -/
def dismiss (name : Name) : ChatService :=
  { service with members := service.members.eraseP fun member => member.clientName == name }

/-- The sender of anything but a connection was active. -/
def note (request : Request) (now : ℤ) : ChatService :=
  if request.command.kind ≠ .conn
  then service.change (fun member => member.clientAddress == request.fromAddr) (Client.touched now)
  else service

/-- A newcomer is told the last messages. -/
def welcome (request : Request) (now : ℤ) : ChatService × List Datagram :=
  ({ service with members :=
      service.members ++ [⟨request.fromAddr, request.command.args 0, now, 0⟩] },
    connsuccess request ::
      (service.history.rtake chatHistorySize).map (historyLine request.fromAddr))

/-- A message is kept, while there is room, and told to everybody. -/
def relay (message : List UInt8) : ChatService × List Datagram :=
  ({ service with history := (service.history ++ [message]).take maxMsgs },
    service.members.map fun member => historyLine member.clientAddress message)

/-- What the sender of a private message and its recipient are told. -/
def whisper (sender : Client) (command : Command) : List Datagram :=
  match service.memberCalled (command.args 0) with
  | none => [⟨sender.clientAddress, saytoMissingResponse command, responseBufferSize⟩]
  | some recipient => [
      ⟨recipient.clientAddress, saytoReceiverResponse sender.clientName command,
        responseBufferSize⟩,
      ⟨sender.clientAddress, saytoSenderResponse command, responseBufferSize⟩]

/-- A member leaves, and the member of its name is told. -/
def part (name : Name) : ChatService × List Datagram :=
  (service.dismiss name,
    ((service.memberCalled name).map fun gone => disconnresponse gone.clientAddress).toList)

/-- The oldest member has another one removed. -/
def expel (name : Name) : ChatService × List Datagram :=
  (service.dismiss name,
    match service.memberCalled name with
    | none => []
    | some gone => disconnresponse gone.clientAddress ::
        (service.dismiss name).members.map fun member =>
          ⟨member.clientAddress, kickedResponse name, responseBufferSize⟩)

/-- A command is carried out, or follows a member who is missing. -/
def execute (request : Request) (now : ℤ) : Except Fault (ChatService × List Datagram) :=
  match request.command.kind, service.memberAt request.fromAddr with
  | .conn, _ => .ok (service.welcome request now)
  | .say, some sender => .ok (service.relay (fullMessage sender.clientName request.command))
  | .sayto, some sender => .ok (service, service.whisper sender request.command)
  | .rename, some _ =>
    .ok (service.change (fun member => member.clientAddress == request.fromAddr)
      fun member => { member with clientName := request.command.args 0 },
      [answer request (ascii "rename$ ")])
  | .say, none | .sayto, none | .rename, none => .error .null
  | .disconn, some sender => .ok (service.part sender.clientName)
  | .disconn, none => .ok (service, [])
  | .kick, _ =>
    if service.members.head?.any fun oldest => oldest.clientAddress == request.fromAddr
    then .ok (service.expel (request.command.args 0))
    else .ok (service, [permissionDenied request.fromAddr])
  | .mute, _ => .ok (service, [answer request (ascii "mute$ ")])
  | .unmute, _ => .ok (service, [answer request (ascii "unmute$ ")])
  | .unknown, _ => .ok (service, [unknownCommand request.fromAddr])
  | _, _ => .ok (service, [])

/-- The first member whose time is up is asked for a sign of life, or has to leave. -/
def patrol (currentTime : ℤ) : ChatService × List Datagram :=
  match service.members.find? fun member => member.overdue currentTime with
  | none => (service, [])
  | some member =>
    if member.pingSent = 0 then
      (service.change (fun member => member.overdue currentTime)
        fun member => { member with pingSent := currentTime }, [ping member.clientAddress])
    else (service.dismiss member.clientName, [disconnresponse member.clientAddress])

def serve : ServerEvent → Except Fault (ChatService × List Datagram)
  | .command request now => (service.note request now).execute request now
  | .managerPass currentTime => .ok (service.patrol currentTime)

/-- Serving events one after the other. -/
def serveEvents : ChatService → List ServerEvent → Except Fault (ChatService × List Datagram)
  | service, [] => .ok (service, [])
  | service, event :: events => do
    let (service, sent) ← service.serve event
    let (service, later) ← serveEvents service events
    return (service, sent ++ later)

end ChatService

/-! ## The members of a registry -/

namespace Registry

variable {registry : Registry}

/-- The clients of a registry, without the identities of their nodes. -/
def clients (registry : Registry) : List Client := registry.map Prod.snd

theorem clients_atAddress (address : SockAddrIn) :
    (registry.clients.find? fun member => member.clientAddress == address) =
      (registry.atAddress address).map Prod.snd := by
  rw [clients, List.find?_map]
  rfl

theorem clients_named (name : Name) :
    (registry.clients.find? fun member => member.clientName == name) =
      (registry.named name).map Prod.snd := by
  rw [clients, List.find?_map]
  rfl

theorem clients_remove (name : Name) : (registry.remove name).clients =
    registry.clients.eraseP fun member => member.clientName == name := by
  rw [clients, clients, List.eraseP_map]
  rfl

/-- Writing to the first node that passes a test changes the first client that does. -/
theorem clients_writeNode (distinct : registry.ids.Nodup) (sought : Client → Bool)
    {node : ℕ × Client} (found : (registry.find? fun node => sought node.2) = some node)
    (f : Client → Client) :
    Registry.clients (writeNode node.1 f registry) =
      registry.clients.replaceF fun member => if sought member then some (f member) else none := by
  obtain ⟨id, client⟩ := node
  obtain ⟨matched, before, after, rfl, missed⟩ := List.find?_eq_some_iff_append.mp found
  rw [writeNode_append_cons distinct]
  clear found distinct
  induction before with
  | nil => simp [clients, show sought client = true from matched]
  | cons first before ih =>
      have other : sought first.2 = false := by simpa using missed first List.mem_cons_self
      have rest := ih fun node member => missed node (List.mem_cons_of_mem _ member)
      simp only [clients, List.cons_append, List.map_cons] at rest ⊢
      rw [rest, List.replaceF_cons_of_none]
      simp [other]

/-- If nobody passes the sought, nobody changes. -/
theorem clients_unchanged (sought : Client → Bool)
    (nobody : (registry.find? fun node => sought node.2) = none) (f : Client → Client) :
    (registry.clients.replaceF fun member => if sought member then some (f member) else none) =
      registry.clients := by
  refine List.replaceF_of_forall_none fun member listed => ?_
  obtain ⟨node, present, rfl⟩ := List.mem_map.mp listed
  have other := List.find?_eq_none.mp nobody node present
  rw [if_neg other]

theorem clients_writeAt (distinct : registry.ids.Nodup) (address : SockAddrIn)
    (f : Client → Client) :
    (registry.writeAt address f).clients = registry.clients.replaceF fun member =>
      if member.clientAddress == address then some (f member) else none := by
  rw [writeAt, atAddress]
  cases found : registry.find? fun node => node.2.clientAddress == address with
  | none => exact (clients_unchanged _ found f).symm
  | some node => exact clients_writeNode distinct _ found f

end Registry

/-! ## The server serves -/

/-- The server holds the members and the history of the service. -/
structure Server.Serves (server : Server) (service : ChatService) : Prop where
  formed : server.clients.WellFormed
  members : server.registry.clients = service.members
  remembers : server.Remembers service.history
  kept : service.history.length ≤ maxMsgs
  short : ∀ line ∈ service.history, line.length < maxMessage + maxNameLen + 2

/-- Both send the same and go on alike, or both fault. -/
inductive ServesAlike :
    Except Fault (Server × List Datagram) → Except Fault (ChatService × List Datagram) → Prop
  | served {server : Server} {service : ChatService} {sent : List Datagram} :
      server.Serves service → ServesAlike (.ok (server, sent)) (.ok (service, sent))
  | faulted (fault : Fault) : ServesAlike (.error fault) (.error fault)

namespace Server.Serves

variable {server : Server} {service : ChatService} (serves : server.Serves service)
include serves

theorem distinct : server.registry.ids.Nodup := serves.formed.nodup

theorem memberAt_eq (address : SockAddrIn) :
    service.memberAt address = (server.registry.atAddress address).map Prod.snd := by
  rw [ChatService.memberAt, ← serves.members, Registry.clients_atAddress]

theorem memberCalled_eq (name : Name) :
    service.memberCalled name = (server.registry.named name).map Prod.snd := by
  rw [ChatService.memberCalled, ← serves.members, Registry.clients_named]

/-- Another list for the same history. -/
theorem with_clients {clients : ClientList} (formed : clients.WellFormed) {members : List Client}
    (same : Registry.clients clients.nodes = members) :
    Server.Serves { server with clients := clients } { service with members := members } :=
  ⟨formed, same, ⟨serves.remembers.count, serves.remembers.lines⟩, serves.kept, serves.short⟩

theorem administers_eq (address : SockAddrIn) :
    (service.members.head?.any fun oldest => oldest.clientAddress == address) =
      server.registry.administers address := by
  rw [← serves.members, Registry.administers]
  cases server.registry <;> rfl

theorem welcome (request : Request) (now : ℤ) :
    ServesAlike (connectToServer server request now) (.ok (service.welcome request now)) := by
  obtain ⟨clients, done, formed, nodes⟩ := connectToServer_spec serves.formed request now
  rw [done, serves.remembers.replay_eq serves.short]
  refine .served (serves.with_clients formed ?_)
  rw [nodes, ← serves.members, Registry.clients, List.map_append]
  rfl

theorem relay {request : Request} {sender : Client}
    (present : service.memberAt request.fromAddr = some sender) :
    ServesAlike (MultithreadedChat.say server request)
      (.ok (service.relay (fullMessage sender.clientName request.command))) := by
  have named : server.registry.nameAt request.fromAddr = some sender.clientName := by
    rw [serves.memberAt_eq] at present
    obtain ⟨node, found, rfl⟩ := Option.map_eq_some_iff.mp present
    rw [Registry.nameAt, found, Option.map_some]
  have short := fullMessage_length_lt sender.clientName request.command
  have told : (server.registry.map fun node => (⟨node.2.clientAddress,
      sayResponse (fullMessage sender.clientName request.command), responseBufferSize⟩ :
        Datagram)) = service.members.map fun member =>
      historyLine member.clientAddress (fullMessage sender.clientName request.command) := by
    rw [← serves.members, Registry.clients, List.map_map, sayResponse_eq short]
    rfl
  rw [say_present serves.formed named, told]
  refine .served ⟨?_, ?_, serves.remembers.record _ serves.kept, List.length_take_le .., ?_⟩
  · rw [Server.record_clients]
    exact serves.formed
  · rw [Server.registry, Server.record_clients]
    exact serves.members
  · intro line member
    rcases List.mem_append.mp (List.mem_of_mem_take member) with old | new
    · exact serves.short line old
    · obtain rfl := List.mem_singleton.mp new
      exact short

theorem whisper {request : Request} {sender : Client}
    (present : service.memberAt request.fromAddr = some sender) :
    ServesAlike (MultithreadedChat.sayto server request)
      (.ok (service, service.whisper sender request.command)) := by
  rw [serves.memberAt_eq] at present
  obtain ⟨⟨id, client⟩, found, rfl⟩ := Option.map_eq_some_iff.mp present
  obtain ⟨sought, next, loaded⟩ := findSender_present serves.formed found
  have called := serves.memberCalled_eq (request.command.args 0)
  simp only [MultithreadedChat.sayto, serves.formed.findRecipient_eq, sought, loaded, ok_bind]
  cases named : server.registry.named (request.command.args 0) with
  | none =>
      rw [named] at called
      simp only [Option.map_none, pure_eq_ok, ChatService.whisper, called]
      exact .served serves
  | some recipient =>
      obtain ⟨next, reached⟩ := serves.formed.load_eq (List.mem_of_find?_eq_some named)
      rw [named] at called
      simp only [Option.map_some, reached, ok_bind, pure_eq_ok, ChatService.whisper, called]
      exact .served serves

theorem part {request : Request} {sender : Client}
    (present : service.memberAt request.fromAddr = some sender) :
    ServesAlike (MultithreadedChat.disconnect server request)
      (.ok (service.part sender.clientName)) := by
  rw [serves.memberAt_eq] at present
  obtain ⟨⟨id, client⟩, found, rfl⟩ := Option.map_eq_some_iff.mp present
  obtain ⟨clients, removed, first, done, formed, nodes⟩ := disconnect_present serves.formed found
  have called := serves.memberCalled_eq client.clientName
  rw [first] at called
  rw [done, ChatService.part, called]
  refine .served (serves.with_clients formed ?_)
  rw [nodes, Registry.clients_remove, serves.members]

theorem rename {request : Request} {client : Client}
    (present : service.memberAt request.fromAddr = some client) :
    ServesAlike (MultithreadedChat.renameClient server request)
      (.ok (service.change (fun member => member.clientAddress == request.fromAddr)
        fun member => { member with clientName := request.command.args 0 },
        [answer request (ascii "rename$ ")])) := by
  rw [serves.memberAt_eq] at present
  obtain ⟨⟨id, client⟩, found, rfl⟩ := Option.map_eq_some_iff.mp present
  obtain ⟨clients, done, formed, nodes⟩ := renameClient_present serves.formed found
  rw [done]
  refine .served (serves.with_clients formed ?_)
  rw [nodes, Registry.clients_writeAt serves.distinct, serves.members]

theorem expel {request : Request}
    (granted : server.registry.administers request.fromAddr = true) :
    ServesAlike (MultithreadedChat.kick server request)
      (.ok (service.expel (request.command.args 0))) := by
  obtain ⟨clients, done, formed, nodes⟩ := kick_granted serves.formed granted
  have left : Registry.clients clients.nodes =
      (service.dismiss (request.command.args 0)).members := by
    rw [nodes, Registry.clients_remove, serves.members]
    rfl
  have called := serves.memberCalled_eq (request.command.args 0)
  rw [done, ChatService.expel, called]
  have told : ∀ response, (clients.nodes.map fun node =>
      (⟨node.2.clientAddress, response, responseBufferSize⟩ : Datagram)) =
      (service.dismiss (request.command.args 0)).members.map fun member =>
        ⟨member.clientAddress, response, responseBufferSize⟩ := by
    intro response
    rw [← left, Registry.clients, List.map_map]
    rfl
  rw [told]
  cases server.registry.named (request.command.args 0) <;>
    exact .served (serves.with_clients formed left)

theorem execute (request : Request) (now : ℤ) :
    ServesAlike (executeCommand server request now) (service.execute request now) := by
  have absent : service.memberAt request.fromAddr = none →
      server.registry.atAddress request.fromAddr = none := by
    intro nobody
    rw [serves.memberAt_eq] at nobody
    exact Option.map_eq_none_iff.mp nobody
  unfold executeCommand ChatService.execute
  cases kind : request.command.kind with
  | conn => exact serves.welcome request now
  | say =>
      cases present : service.memberAt request.fromAddr with
      | none =>
          rw [say_absent serves.formed (absent present)]
          exact .faulted .null
      | some sender => exact serves.relay present
  | sayto =>
      cases present : service.memberAt request.fromAddr with
      | none =>
          rw [sayto_absent serves.formed (absent present)]
          exact .faulted .null
      | some sender => exact serves.whisper present
  | rename =>
      cases present : service.memberAt request.fromAddr with
      | none =>
          rw [renameClient_absent serves.formed (absent present)]
          exact .faulted .null
      | some client => exact serves.rename present
  | disconn =>
      cases present : service.memberAt request.fromAddr with
      | none =>
          rw [disconnect_absent serves.formed (absent present)]
          exact .served serves
      | some client => exact serves.part present
  | kick =>
      simp only [serves.administers_eq]
      cases admin : server.registry.administers request.fromAddr with
      | false =>
          rw [kick_denied serves.formed admin]
          exact .served serves
      | true => exact serves.expel admin
  | _ => exact .served serves

theorem note (request : Request) (now : ℤ) :
    ∃ clients, spawnExecuteCommandThreads server request now =
        executeCommand { server with clients := clients } request now ∧
      Server.Serves { server with clients := clients } (service.note request now) := by
  obtain ⟨clients, same, formed, -, nodes⟩ := spawn_eq_execute serves.formed request now
  refine ⟨clients, same, ?_⟩
  have members : Registry.clients clients.nodes = (service.note request now).members := by
    rw [nodes, Registry.mark, ChatService.note]
    split
    · rw [Registry.touch, Registry.clients_writeAt serves.distinct, serves.members]
      rfl
    · exact serves.members
  have history : (service.note request now).history = service.history := by
    rw [ChatService.note]
    split <;> rfl
  obtain ⟨formed, members, remembers, kept, short⟩ := serves.with_clients formed members
  exact ⟨formed, members, history ▸ remembers, history ▸ kept, history ▸ short⟩

theorem patrol (currentTime : ℤ) :
    ServesAlike (connectionManager server currentTime) (.ok (service.patrol currentTime)) := by
  have sought : (service.members.find? fun member => member.overdue currentTime) =
      (server.registry.find? fun node => node.2.overdue currentTime).map Prod.snd := by
    rw [← serves.members, Registry.clients, List.find?_map]
    rfl
  rw [ChatService.patrol, sought]
  cases found : server.registry.find? fun node => node.2.overdue currentTime with
  | none =>
      rw [connectionManager_idle serves.formed found]
      exact .served serves
  | some node =>
      obtain ⟨id, client⟩ := node
      by_cases unpinged : client.pingSent = 0
      · obtain ⟨clients, done, formed, nodes⟩ :=
          connectionManager_ping serves.formed found unpinged
        simp only [Option.map_some, unpinged, ↓reduceIte]
        rw [done]
        refine .served (serves.with_clients formed ?_)
        rw [nodes, ← serves.members]
        exact Registry.clients_writeNode serves.distinct
          (fun member => member.overdue currentTime) found _
      · obtain ⟨clients, done, formed, nodes⟩ :=
          connectionManager_remove serves.formed found unpinged
        simp only [Option.map_some, unpinged, ↓reduceIte]
        rw [done]
        refine .served (serves.with_clients formed ?_)
        rw [nodes, Registry.clients_remove, serves.members]

/-- An event is handled as the service serves it. -/
theorem handle (event : ServerEvent) :
    ServesAlike (MultithreadedChat.handle server event) (service.serve event) := by
  cases event with
  | command request now =>
      obtain ⟨clients, same, noted⟩ := serves.note request now
      rw [MultithreadedChat.handle, same]
      exact noted.execute request now
  | managerPass currentTime => exact serves.patrol currentTime

/-- Events are handled as the service serves them, one after the other. -/
theorem handleEvents (events : List ServerEvent) :
    ServesAlike (MultithreadedChat.handleEvents server events) (service.serveEvents events) := by
  induction events generalizing server service with
  | nil => exact .served serves
  | cons event events ih =>
      have first := serves.handle event
      rw [MultithreadedChat.handleEvents, ChatService.serveEvents]
      revert first
      generalize MultithreadedChat.handle server event = handled
      generalize service.serve event = served
      rintro (@⟨server, service, sent, serves⟩ | fault)
      · have rest := ih serves
        simp only [ok_bind]
        revert rest
        generalize MultithreadedChat.handleEvents server events = handled
        generalize service.serveEvents events = served
        rintro (⟨serves⟩ | fault)
        · exact .served serves
        · exact .faulted fault
      · exact .faulted fault

end Server.Serves

theorem start_serves : Server.start.Serves ChatService.start :=
  ⟨ClientList.empty_wellFormed.1, rfl, ⟨rfl, fun _ => rfl⟩, Nat.zero_le _, nofun⟩

/-- **The server refines the chat service.** On every sequence of commands from any addresses
and passes of the connection manager the server sends what the service sends, in order, or
faults as the service does. -/
theorem server_refines_chat_service (events : List ServerEvent) :
    (handleEvents Server.start events).map Prod.snd =
      (ChatService.start.serveEvents events).map Prod.snd := by
  have alike := start_serves.handleEvents events
  revert alike
  generalize handleEvents Server.start events = handled
  generalize ChatService.start.serveEvents events = served
  rintro (⟨-⟩ | fault)
  · rfl
  · rfl

end MultithreadedChat
