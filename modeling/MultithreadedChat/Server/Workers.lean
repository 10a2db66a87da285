import MultithreadedChat.Server.Handlers

/-! # Workers and the connection manager, section by section

The handlers again, cut where another thread can come in between: every section
guarded by the monitor is one step, and so is every read of the list head or through a
node pointer outside a section. A location holds what the thread has obtained so far,
node pointers included.

A worker that is never interrupted does what its handler says
(`MultithreadedChat.executeCommand_eq_run`), and so does a pass of the connection
manager (`MultithreadedChat.connectionManager_eq_run`).
-/

namespace MultithreadedChat

open CString LinkedList

/-- What a worker does next, and with what. -/
inductive WorkerLoc
  | connectInsert (request : Request)
  | connectReply (request : Request)
  | saytoLookup (request : Request)
  | saytoDeliver (command : Command) (client fromWho : Ptr)
  | saytoAnswer (response : List UInt8) (fromWho : Ptr)
  | sayReadHead (request : Request)
  | sayFindSender (request : Request) (node : Ptr)
  | sayFormat (command : Command) (node fromWho : Ptr)
  | sayRecord (message : List UInt8) (node : Ptr)
  | sayBroadcast (message : List UInt8) (node : Ptr)
  | disconnectLookup (request : Request)
  | disconnectRemove (node : ℕ)
  | renameWrite (request : Request)
  | kickCheck (request : Request)
  | kickRemove (request : Request)
  | kickConfirm (name : Name) (addr : SockAddrIn)
  | kickBroadcast (name : Name)
  | reply (datagram : Datagram)

namespace WorkerLoc

/-- Where the worker of a command starts, if there is one. -/
def start (request : Request) : Option WorkerLoc :=
  match request.command.kind with
  | .conn => some (.connectInsert request)
  | .say => some (.sayReadHead request)
  | .sayto => some (.saytoLookup request)
  | .disconn => some (.disconnectLookup request)
  | .mute => some (.reply (answer request (ascii "mute$ ")))
  | .unmute => some (.reply (answer request (ascii "unmute$ ")))
  | .rename => some (.renameWrite request)
  | .kick => some (.kickCheck request)
  | .unknown => some (.reply (unknownCommand request.fromAddr))
  | .retping | .connSuccess | .connFailed | .disconnResponse | .ping | .error => none

/-- The next step of a worker; the last one leaves no location. -/
def step (server : Server) (now : ℤ) :
    WorkerLoc → Except Fault (Server × List Datagram × Option WorkerLoc)
  | .connectInsert request => do
    let clients ← addClientToList server.clients request.fromAddr (request.command.args 0) now
    return ({ server with clients := clients }, [], some (.connectReply request))
  | .connectReply request =>
    return (server, connsuccess request :: server.replay request.fromAddr, none)
  | .saytoLookup request => do
    let client ← findClient server.clients (request.command.args 0)
    let fromWho ← findClientByAddress server.clients request.fromAddr
    match client with
    | some _ => return (server, [], some (.saytoDeliver request.command client fromWho))
    | none =>
      return (server, [], some (.saytoAnswer (saytoMissingResponse request.command) fromWho))
  | .saytoDeliver command client fromWho => do
    let sender ← server.clients.heap.load fromWho
    let recipient ← server.clients.heap.load client
    return (server,
      [⟨recipient.value.clientAddress, saytoReceiverResponse sender.value.clientName command,
        responseBufferSize⟩],
      some (.saytoAnswer (saytoSenderResponse command) fromWho))
  | .saytoAnswer response fromWho => do
    let sender ← server.clients.heap.load fromWho
    return (server, [⟨sender.value.clientAddress, response, responseBufferSize⟩], none)
  | .sayReadHead request =>
    return (server, [], some (.sayFindSender request server.clients.head))
  | .sayFindSender request node => do
    let fromWho ← findClientByAddress server.clients request.fromAddr
    return (server, [], some (.sayFormat request.command node fromWho))
  | .sayFormat command node fromWho => do
    let sender ← server.clients.heap.load fromWho
    return (server, [], some (.sayRecord (fullMessage sender.value.clientName command) node))
  | .sayRecord message node =>
    return (server.record message, [], some (.sayBroadcast message node))
  | .sayBroadcast message node => do
    let sent ← broadcast server.clients node (sayResponse message)
    return (server, sent, none)
  | .disconnectLookup request => do
    match ← findClientByAddress server.clients request.fromAddr with
    | none => return (server, [], none)
    | some node => return (server, [], some (.disconnectRemove node))
  | .disconnectRemove node =>
    match server.clients.head with
    | none => return (server, [], none)
    | some _ => do
      -- the name is still in the node, and is compared with the names in the list
      let requester ← server.clients.heap.load (some node)
      let (clients, clientAddress) ←
        removeClientFromList server.clients requester.value.clientName
      return ({ server with clients := clients }, [],
        clientAddress.map fun addr => .reply (disconnresponse addr))
  | .renameWrite request => do
    let clients ← MultithreadedChat.renameWrite server.clients request
    return ({ server with clients := clients }, [],
      some (.reply (answer request (ascii "rename$ "))))
  | .kickCheck request => do
    if ← isAdmin server.clients request.fromAddr then
      return (server, [], some (.kickRemove request))
    else return (server, [], some (.reply (permissionDenied request.fromAddr)))
  | .kickRemove request => do
    let name := request.command.args 0
    let (clients, clientAddress) ← removeClientFromList server.clients name
    return ({ server with clients := clients }, [], clientAddress.map (.kickConfirm name))
  | .kickConfirm name addr => return (server, [disconnresponse addr], some (.kickBroadcast name))
  | .kickBroadcast name => do
    let sent ← broadcast server.clients server.clients.head (kickedResponse name)
    return (server, sent, none)
  | .reply datagram => return (server, [datagram], none)

/-- A worker run alone to its end, within so many steps. -/
def run (now : ℤ) : ℕ → Server → WorkerLoc → Except Fault (Server × List Datagram)
  | 0, _, _ => .error .unending
  | steps + 1, server, loc => do
    let (server, sent, next) ← loc.step server now
    match next with
    | none => return (server, sent)
    | some loc =>
      let (server, rest) ← run now steps server loc
      return (server, sent ++ rest)

end WorkerLoc

/-- What the connection manager does next, and with what. The times at which it made a
choice or sent a ping are remembered for the specification. -/
inductive ManagerLoc
  | asleep
  | timed (currentTime : ℤ)
  | pinging (node : ℕ) (currentTime : ℤ)
  | recording (node : ℕ) (currentTime : ℤ)
  | reporting (node : ℕ)
  | notifying (node : ℕ) (kickName : Name) (scanned : ℤ)
  | removing (node : ℕ) (kickName : Name) (scanned : ℤ)

/-- The next step of the connection manager; `now` is what the clock shows. -/
def ManagerLoc.step (server : Server) (now : ℤ) :
    ManagerLoc → Except Fault (Server × List Datagram × ManagerLoc)
  | .asleep => return (server, [], .timed now)
  | .timed currentTime => do
    let selected ← server.clients.heap.seek (fun client => client.overdue currentTime)
      server.clients.heap.fresh server.clients.head
    match selected with
    | none => return (server, [], .asleep)
    | some node =>
      let chosen ← server.clients.heap.load selected
      if chosen.value.pingSent = 0 then return (server, [], .pinging node currentTime)
      else return (server, [], .notifying node chosen.value.clientName now)
  | .pinging node currentTime => do
    let toPing ← server.clients.heap.load (some node)
    return (server, [ping toPing.value.clientAddress], .recording node currentTime)
  | .recording node currentTime => do
    let clients ← server.clients.write (some node) fun client =>
      { client with pingSent := currentTime }
    return ({ server with clients := clients }, [], .reporting node)
  | .reporting node => do
    -- the name in the node is printed
    let _toPing ← server.clients.heap.load (some node)
    return (server, [], .asleep)
  | .notifying node kickName scanned => do
    let toKick ← server.clients.heap.load (some node)
    return (server, [disconnresponse toKick.value.clientAddress], .removing node kickName scanned)
  | .removing _ kickName _ => do
    let (clients, _) ← removeClientFromList server.clients kickName
    return ({ server with clients := clients }, [], .asleep)

/-- The connection manager run alone until it sleeps, within so many steps. -/
def ManagerLoc.run (now : ℤ) : ℕ → Server → ManagerLoc → Except Fault (Server × List Datagram)
  | _, server, .asleep => .ok (server, [])
  | 0, _, _ => .error .unending
  | steps + 1, server, loc => do
    let (server, sent, next) ← loc.step server now
    let (server, rest) ← run now steps server next
    return (server, sent ++ rest)

section Alone

variable (server : Server) (request : Request) (now : ℤ)

theorem say_eq_workerRun :
    say server request = (WorkerLoc.sayReadHead request).run now 5 server := by
  simp only [say, WorkerLoc.run, WorkerLoc.step, ok_bind, pure_eq_ok]
  cases findClientByAddress server.clients request.fromAddr with
  | error fault => rfl
  | ok fromWho =>
      simp only [ok_bind]
      cases server.clients.heap.load fromWho with
      | error fault => rfl
      | ok sender =>
          simp only [ok_bind, Server.record_clients]
          cases broadcast server.clients server.clients.head
            (sayResponse (fullMessage sender.value.clientName request.command)) <;> rfl

theorem sayto_eq_workerRun :
    sayto server request = (WorkerLoc.saytoLookup request).run now 5 server := by
  simp only [sayto, WorkerLoc.run, WorkerLoc.step, pure_eq_ok]
  cases findClient server.clients (request.command.args 0) with
  | error fault => rfl
  | ok client =>
      simp only [ok_bind]
      cases findClientByAddress server.clients request.fromAddr with
      | error fault => rfl
      | ok fromWho =>
          cases client with
          | none =>
              simp only [ok_bind]
              cases server.clients.heap.load fromWho <;> rfl
          | some client =>
              simp only [ok_bind]
              cases sent : server.clients.heap.load fromWho with
              | error fault => rfl
              | ok sender =>
                  simp only [ok_bind]
                  cases server.clients.heap.load (some client) with
                  | error fault => rfl
                  | ok recipient => simp only [ok_bind, sent]; rfl

theorem disconnect_eq_workerRun :
    disconnect server request = (WorkerLoc.disconnectLookup request).run now 5 server := by
  simp only [disconnect, WorkerLoc.run, WorkerLoc.step, pure_eq_ok]
  cases found : findClientByAddress server.clients request.fromAddr with
  | error fault => rfl
  | ok node =>
      cases node with
      | none => rfl
      | some node =>
          have occupied : server.clients.head ≠ none := by
            intro empty
            rw [findClientByAddress, empty] at found
            cases rounds : server.clients.heap.fresh <;> rw [rounds] at found <;> cases found
          obtain ⟨first, heads⟩ := Option.ne_none_iff_exists'.mp occupied
          simp only [ok_bind, heads]
          cases server.clients.heap.load (some node) with
          | error fault => rfl
          | ok requester =>
              simp only [ok_bind]
              cases removeClientFromList server.clients requester.value.clientName with
              | error fault => rfl
              | ok removal =>
                  obtain ⟨clients, clientAddress⟩ := removal
                  cases clientAddress <;> rfl

theorem kick_eq_workerRun :
    kick server request = (WorkerLoc.kickCheck request).run now 5 server := by
  simp only [kick, WorkerLoc.run, WorkerLoc.step, pure_eq_ok]
  cases isAdmin server.clients request.fromAddr with
  | error fault => rfl
  | ok admin =>
      cases admin with
      | false => rfl
      | true =>
          simp only [ok_bind, ↓reduceIte]
          cases removeClientFromList server.clients (request.command.args 0) with
          | error fault => rfl
          | ok removal =>
              obtain ⟨clients, clientAddress⟩ := removal
              cases clientAddress with
              | none => rfl
              | some address =>
                  simp only [ok_bind, Option.map_some]
                  cases broadcast clients clients.head
                    (kickedResponse (request.command.args 0)) <;> simp

/-- A worker run alone does what the handler of its command does. -/
theorem executeCommand_eq_run :
    executeCommand server request now =
      match WorkerLoc.start request with
      | none => .ok (server, [])
      | some loc => loc.run now 5 server := by
  unfold executeCommand WorkerLoc.start
  cases request.command.kind with
  | conn =>
      simp only [connectToServer, WorkerLoc.run, WorkerLoc.step]
      cases addClientToList server.clients request.fromAddr (request.command.args 0) now <;> rfl
  | say => exact say_eq_workerRun server request now
  | sayto => exact sayto_eq_workerRun server request now
  | disconn => exact disconnect_eq_workerRun server request now
  | rename =>
      simp only [renameClient, WorkerLoc.run, WorkerLoc.step, pure_eq_ok]
      cases renameWrite server.clients request <;> rfl
  | kick => exact kick_eq_workerRun server request now
  | _ => rfl

/-- A pass of the connection manager run alone is the pass of the handlers. -/
theorem connectionManager_eq_run (currentTime : ℤ) :
    connectionManager server currentTime =
      (ManagerLoc.timed currentTime).run now 4 server := by
  unfold connectionManager
  simp only [ManagerLoc.run, ManagerLoc.step, pure_eq_ok]
  cases server.clients.heap.seek (fun client => client.overdue currentTime)
      server.clients.heap.fresh server.clients.head with
  | error fault => rfl
  | ok selected =>
      cases selected with
      | none => rfl
      | some node =>
          simp only [ok_bind]
          cases loaded : server.clients.heap.load (some node) with
          | error fault => rfl
          | ok chosen =>
              simp only [ok_bind]
              by_cases unpinged : chosen.value.pingSent = 0
              · simp only [unpinged, ↓reduceIte, ok_bind, ManagerLoc.run, ManagerLoc.step, loaded,
                  pure_eq_ok]
                cases written : server.clients.write (some node) fun client =>
                    { client with pingSent := currentTime } with
                | error fault => rfl
                | ok clients =>
                    obtain ⟨cell, reloaded⟩ := ClientList.exists_load_of_write written
                    have reports : (ManagerLoc.reporting node).run now 1
                        { server with clients := clients } =
                        .ok ({ server with clients := clients }, []) := by
                      simp only [ManagerLoc.run, ManagerLoc.step, reloaded, ok_bind, pure_eq_ok]
                      rfl
                    simp only [ok_bind, reports]
                    rfl
              · simp only [unpinged, ↓reduceIte, ok_bind, ManagerLoc.run, ManagerLoc.step, loaded,
                  pure_eq_ok]
                cases removeClientFromList server.clients chosen.value.clientName <;> rfl

end Alone

end MultithreadedChat
