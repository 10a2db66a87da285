import MultithreadedChat.Foundation.TransitionSystem
import MultithreadedChat.Server.Registry

/-! # Commands handled one at a time

The server as a transition system whose steps are whole commands and whole passes
of the connection manager. Its client list stays well formed, and its nodes change
as the registry says (`MultithreadedChat.handle_refines`).

Each handler has one lemma that says what it returns on a well-formed list. Only
`say`, `sayto` and `rename_client` follow the pointer they got for the sender
without a test, and fault when the sender is not in the list.
-/

namespace MultithreadedChat

open CString LinkedList

/-- Handling one event to its end. -/
def handle (server : Server) : ServerEvent → Except Fault (Server × List Datagram)
  | .command request now => spawnExecuteCommandThreads server request now
  | .managerPass currentTime => connectionManager server currentTime

/-- Handling events one after the other. -/
def handleEvents : Server → List ServerEvent → Except Fault (Server × List Datagram)
  | server, [] => .ok (server, [])
  | server, event :: events => do
    let (server, sent) ← handle server event
    let (server, later) ← handleEvents server events
    return (server, sent ++ later)

/-- The runs of the server from its start. -/
def serverSystem : TransitionSystem Server ServerEvent where
  initial server := server = Server.start
  step server event server' := ∃ sent, handle server event = .ok (server', sent)

section Returns

variable {server server' : Server} {request : Request} {sent : List Datagram}

/-- A disconnection of a listed client removes by a name, and answers the address it got. -/
theorem disconnect_cases (done : disconnect server request = .ok (server', sent)) :
    server' = server ∧ sent = [] ∨
      ∃ name clients address, removeClientFromList server.clients name = .ok (clients, address) ∧
        server' = { server with clients := clients } ∧
        sent = (address.map disconnresponse).toList := by
  obtain ⟨found, -, done⟩ := exists_of_bind_eq_ok done
  cases found with
  | none =>
      cases done
      exact .inl ⟨rfl, rfl⟩
  | some node =>
      obtain ⟨requester, -, done⟩ := exists_of_bind_eq_ok done
      obtain ⟨⟨clients, address⟩, taken, done⟩ := exists_of_bind_eq_ok done
      cases address <;> cases done <;> exact .inr ⟨_, _, _, taken, rfl, rfl⟩

/-- A kick is refused, or removes by the name that is kicked. -/
theorem kick_cases (done : kick server request = .ok (server', sent)) :
    server' = server ∨ ∃ clients address,
      removeClientFromList server.clients (request.command.args 0) = .ok (clients, address) ∧
        server' = { server with clients := clients } := by
  obtain ⟨admin, -, done⟩ := exists_of_bind_eq_ok done
  cases admin with
  | false =>
      cases done
      exact .inl rfl
  | true =>
      obtain ⟨⟨clients, address⟩, taken, done⟩ := exists_of_bind_eq_ok done
      cases address with
      | none =>
          cases done
          exact .inr ⟨_, _, taken, rfl⟩
      | some address =>
          obtain ⟨told, -, done⟩ := exists_of_bind_eq_ok done
          cases done
          exact .inr ⟨_, _, taken, rfl⟩

/-- A private message leaves the server as it is. -/
theorem sayto_server (done : sayto server request = .ok (server', sent)) : server' = server := by
  obtain ⟨client, -, done⟩ := exists_of_bind_eq_ok done
  obtain ⟨fromWho, -, done⟩ := exists_of_bind_eq_ok done
  cases client with
  | none =>
      obtain ⟨sender, -, done⟩ := exists_of_bind_eq_ok done
      cases done
      rfl
  | some node =>
      obtain ⟨sender, -, done⟩ := exists_of_bind_eq_ok done
      obtain ⟨recipient, -, done⟩ := exists_of_bind_eq_ok done
      cases done
      rfl

/-- The worker of anything but a connection leaves the clients, renames one, or removes by
a name. -/
theorem executeCommand_clients {now : ℤ} (other : request.command.kind ≠ .conn)
    (done : executeCommand server request now = .ok (server', sent)) :
    server'.clients = server.clients ∨ renameWrite server.clients request = .ok server'.clients ∨
      ∃ name address,
        removeClientFromList server.clients name = .ok (server'.clients, address) := by
  unfold executeCommand at done
  cases kind : request.command.kind with
  | conn => exact (other kind).elim
  | say =>
      rw [kind] at done
      obtain ⟨fromWho, -, done⟩ := exists_of_bind_eq_ok done
      obtain ⟨sender, -, done⟩ := exists_of_bind_eq_ok done
      obtain ⟨told, -, done⟩ := exists_of_bind_eq_ok done
      cases done
      exact .inl (Server.record_clients ..)
  | sayto =>
      rw [kind] at done
      rw [sayto_server done]
      exact .inl rfl
  | rename =>
      rw [kind] at done
      obtain ⟨clients, written, done⟩ := exists_of_bind_eq_ok done
      cases done
      exact .inr (.inl written)
  | disconn =>
      rw [kind] at done
      obtain ⟨rfl, -⟩ | ⟨name, clients, address, taken, rfl, -⟩ := disconnect_cases done
      · exact .inl rfl
      · exact .inr (.inr ⟨name, address, taken⟩)
  | kick =>
      rw [kind] at done
      obtain rfl | ⟨clients, address, taken, rfl⟩ := kick_cases done
      · exact .inl rfl
      · exact .inr (.inr ⟨_, address, taken⟩)
  | _ =>
      rw [kind] at done
      cases done
      exact .inl rfl

end Returns

section Handlers

variable {server : Server} (formed : server.clients.WellFormed) {request : Request}
include formed

variable (request) in
theorem connectToServer_spec (now : ℤ) :
    ∃ clients, connectToServer server request now = .ok ({ server with clients := clients },
        connsuccess request :: server.replay request.fromAddr) ∧
      clients.WellFormed ∧ clients.nodes = server.clients.nodes ++
        [(server.clients.heap.fresh, ⟨request.fromAddr, request.command.args 0, now, 0⟩)] := by
  obtain ⟨clients, added, formed', nodes, -⟩ :=
    formed.addClientToList_spec request.fromAddr (request.command.args 0) now
  refine ⟨clients, ?_, formed', nodes⟩
  simp only [connectToServer, added, ok_bind, pure_eq_ok]

/-- The pointer `find_client_by_address` returns for a sender not in the list is
`NULL`. -/
theorem findSender_absent (absent : server.registry.atAddress request.fromAddr = none) :
    findClientByAddress server.clients request.fromAddr = .ok none := by
  rw [formed.findSender_eq, absent, Option.map_none]

theorem findSender_present {id : ℕ} {sender : Client}
    (present : server.registry.atAddress request.fromAddr = some (id, sender)) :
    findClientByAddress server.clients request.fromAddr = .ok (some id) ∧
      ∃ next, server.clients.heap.load (some id) = .ok ⟨sender, next⟩ := by
  refine ⟨?_, formed.load_eq (List.mem_of_find?_eq_some present)⟩
  rw [formed.findSender_eq, present, Option.map_some]

theorem say_absent (absent : server.registry.atAddress request.fromAddr = none) :
    say server request = .error .null := by
  simp only [say, findSender_absent formed absent, ok_bind, Heap.load, error_bind]

theorem say_present {sender : Name}
    (present : server.registry.nameAt request.fromAddr = some sender) :
    say server request = .ok (server.record (fullMessage sender request.command),
      server.registry.map fun node => ⟨node.2.clientAddress,
        sayResponse (fullMessage sender request.command), responseBufferSize⟩) := by
  obtain ⟨⟨id, client⟩, stored, rfl⟩ := Option.map_eq_some_iff.mp present
  obtain ⟨found, next, loaded⟩ := findSender_present formed stored
  simp only [say, found, loaded, formed.broadcast_eq, ok_bind, pure_eq_ok]
  rfl

theorem sayto_absent (absent : server.registry.atAddress request.fromAddr = none) :
    sayto server request = .error .null := by
  simp only [sayto, formed.findRecipient_eq, findSender_absent formed absent, ok_bind, Heap.load]
  cases server.registry.named (request.command.args 0) <;> rfl

theorem sayto_present {id : ℕ} {sender : Client}
    (present : server.registry.atAddress request.fromAddr = some (id, sender)) :
    ∃ sent, sayto server request = .ok (server, sent) := by
  obtain ⟨found, next, loaded⟩ := findSender_present formed present
  simp only [sayto, formed.findRecipient_eq, found, loaded, ok_bind]
  cases named : server.registry.named (request.command.args 0) with
  | none => exact ⟨_, rfl⟩
  | some recipient =>
      obtain ⟨next, reached⟩ := formed.load_eq (List.mem_of_find?_eq_some named)
      simp only [Option.map_some, reached, ok_bind]
      exact ⟨_, rfl⟩

theorem disconnect_absent (absent : server.registry.atAddress request.fromAddr = none) :
    disconnect server request = .ok (server, []) := by
  simp only [disconnect, findSender_absent formed absent, ok_bind, pure_eq_ok]

/-- The first node of the requester's name is removed, and its address is answered. -/
theorem disconnect_present {id : ℕ} {requester : Client}
    (present : server.registry.atAddress request.fromAddr = some (id, requester)) :
    ∃ clients removed, server.registry.named requester.clientName = some removed ∧
      disconnect server request = .ok ({ server with clients := clients },
        [disconnresponse removed.2.clientAddress]) ∧
      clients.WellFormed ∧ clients.nodes = server.registry.remove requester.clientName := by
  obtain ⟨found, next, loaded⟩ := findSender_present formed present
  obtain ⟨clients, taken, formed', -, nodes⟩ := formed.remove_eq requester.clientName
  obtain ⟨removed, first⟩ :
      ∃ removed, server.registry.named requester.clientName = some removed := by
    apply Option.isSome_iff_exists.mp
    rw [Registry.named, List.find?_isSome]
    exact ⟨(id, requester), List.mem_of_find?_eq_some present, by simp⟩
  refine ⟨clients, removed, first, ?_, formed', nodes⟩
  rw [first] at taken
  simp only [disconnect, found, loaded, taken, ok_bind, Option.map_some, pure_eq_ok]

theorem renameClient_absent (absent : server.registry.atAddress request.fromAddr = none) :
    renameClient server request = .error .null := by
  simp only [renameClient, renameWrite, findSender_absent formed absent, ok_bind, ClientList.write,
    Heap.update, error_bind]

theorem renameClient_present {id : ℕ} {client : Client}
    (present : server.registry.atAddress request.fromAddr = some (id, client)) :
    ∃ clients, renameClient server request = .ok ({ server with clients := clients },
        [answer request (ascii "rename$ ")]) ∧
      clients.WellFormed ∧ clients.nodes = server.registry.writeAt request.fromAddr
        fun client => { client with clientName := request.command.args 0 } := by
  obtain ⟨found, -⟩ := findSender_present formed present
  obtain ⟨clients, wrote, formed', nodes, -⟩ := formed.write_spec
    (List.mem_map_of_mem (List.mem_of_find?_eq_some present))
    fun client => { client with clientName := request.command.args 0 }
  refine ⟨clients, ?_, formed', ?_⟩
  · simp only [renameClient, renameWrite, found, wrote, ok_bind, pure_eq_ok]
  · rw [Registry.writeAt, present]
    exact nodes

theorem kick_denied (denied : server.registry.administers request.fromAddr = false) :
    kick server request = .ok (server, [permissionDenied request.fromAddr]) := by
  simp [kick, formed.isAdmin_eq, denied]

/-- The admin's kick removes the first node of the name, and tells everybody left. -/
theorem kick_granted (granted : server.registry.administers request.fromAddr = true) :
    ∃ clients, kick server request = .ok ({ server with clients := clients },
        match server.registry.named (request.command.args 0) with
        | none => []
        | some removed => disconnresponse removed.2.clientAddress ::
            clients.nodes.map fun node => ⟨node.2.clientAddress,
              kickedResponse (request.command.args 0), responseBufferSize⟩) ∧
      clients.WellFormed ∧
      clients.nodes = server.registry.remove (request.command.args 0) := by
  obtain ⟨clients, taken, formed', -, nodes⟩ := formed.remove_eq (request.command.args 0)
  refine ⟨clients, ?_, formed', nodes⟩
  cases found : server.registry.named (request.command.args 0) with
  | none => simp [kick, formed.isAdmin_eq, granted, taken, found]
  | some removed =>
      simp only [kick, formed.isAdmin_eq, granted, taken, found, formed'.broadcast_eq, ok_bind,
        ↓reduceIte, Option.map_some, pure_eq_ok]

theorem connectionManager_idle {currentTime : ℤ}
    (nobody : (server.registry.find? fun node => node.2.overdue currentTime) = none) :
    connectionManager server currentTime = .ok (server, []) := by
  simp only [connectionManager, formed.scan_eq, nobody, ok_bind, Option.map_none, pure_eq_ok]

/-- An overdue client without an outstanding ping is pinged. -/
theorem connectionManager_ping {currentTime : ℤ} {id : ℕ} {client : Client}
    (found : (server.registry.find? fun node => node.2.overdue currentTime) = some (id, client))
    (unpinged : client.pingSent = 0) :
    ∃ clients, connectionManager server currentTime =
        .ok ({ server with clients := clients }, [ping client.clientAddress]) ∧
      clients.WellFormed ∧ clients.nodes =
        writeNode id (fun client => { client with pingSent := currentTime }) server.registry := by
  have member := List.mem_of_find?_eq_some found
  obtain ⟨next, loaded⟩ := formed.load_eq member
  obtain ⟨clients, wrote, formed', nodes, -⟩ := formed.write_spec
    (List.mem_map_of_mem member) fun client => { client with pingSent := currentTime }
  refine ⟨clients, ?_, formed', nodes⟩
  simp only [connectionManager, formed.scan_eq, found, ok_bind, Option.map_some, loaded,
    unpinged, ↓reduceIte, wrote, pure_eq_ok]

/-- An overdue client that has been pinged is told to disconnect, and the first node of
its name is removed. -/
theorem connectionManager_remove {currentTime : ℤ} {id : ℕ} {client : Client}
    (found : (server.registry.find? fun node => node.2.overdue currentTime) = some (id, client))
    (pinged : client.pingSent ≠ 0) :
    ∃ clients, connectionManager server currentTime =
        .ok ({ server with clients := clients }, [disconnresponse client.clientAddress]) ∧
      clients.WellFormed ∧ clients.nodes = server.registry.remove client.clientName := by
  obtain ⟨next, loaded⟩ := formed.load_eq (List.mem_of_find?_eq_some found)
  obtain ⟨clients, taken, formed', -, nodes⟩ := formed.remove_eq client.clientName
  refine ⟨clients, ?_, formed', nodes⟩
  simp only [connectionManager, formed.scan_eq, found, ok_bind, Option.map_some, loaded,
    pinged, ↓reduceIte, taken, pure_eq_ok]

/-- A pass of the connection manager acts on the first node that is overdue. -/
theorem connectionManager_spec (currentTime : ℤ) :
    ∃ clients sent, connectionManager server currentTime =
        .ok ({ server with clients := clients }, sent) ∧
      clients.WellFormed ∧ clients.nodes = server.registry.pass currentTime := by
  rw [Registry.pass]
  cases found : server.registry.find? fun node => node.2.overdue currentTime with
  | none => exact ⟨_, _, connectionManager_idle formed found, formed, rfl⟩
  | some node =>
      obtain ⟨id, client⟩ := node
      by_cases unpinged : client.pingSent = 0
      · obtain ⟨clients, done, formed', nodes⟩ := connectionManager_ping formed found unpinged
        refine ⟨clients, _, done, formed', ?_⟩
        simpa only [unpinged, ↓reduceIte] using nodes
      · obtain ⟨clients, done, formed', nodes⟩ := connectionManager_remove formed found unpinged
        refine ⟨clients, _, done, formed', ?_⟩
        simpa only [unpinged, ↓reduceIte] using nodes

end Handlers

/-- The commands whose handlers follow the pointer to the sender without a test. -/
def CommandKind.followsSender : CommandKind → Bool
  | .say | .sayto | .rename => true
  | _ => false

section Dispatch

variable {server : Server} (formed : server.clients.WellFormed) (request : Request)
include formed

theorem disconnect_spec :
    ∃ clients sent, disconnect server request = .ok ({ server with clients := clients }, sent) ∧
      clients.WellFormed ∧ clients.nodes =
        match server.registry.atAddress request.fromAddr with
        | none => server.registry
        | some node => server.registry.remove node.2.clientName := by
  cases sender : server.registry.atAddress request.fromAddr with
  | none => exact ⟨_, _, disconnect_absent formed sender, formed, rfl⟩
  | some node =>
      obtain ⟨clients, removed, -, done, formed', nodes⟩ := disconnect_present formed sender
      exact ⟨_, _, done, formed', nodes⟩

theorem kick_spec :
    ∃ clients sent, kick server request = .ok ({ server with clients := clients }, sent) ∧
      clients.WellFormed ∧ clients.nodes =
        if server.registry.administers request.fromAddr
        then server.registry.remove (request.command.args 0) else server.registry := by
  cases admin : server.registry.administers request.fromAddr with
  | false => exact ⟨_, _, kick_denied formed admin, formed, rfl⟩
  | true =>
      obtain ⟨clients, done, formed', nodes⟩ := kick_granted formed admin
      exact ⟨_, _, done, formed', nodes⟩

/-- A worker that need not follow a pointer to a missing sender runs to its end, with
the effect the registry says. Only `say` changes the history. -/
theorem executeCommand_spec (now : ℤ)
    (safe : request.command.kind.followsSender = true →
      ∃ node, server.registry.atAddress request.fromAddr = some node) :
    ∃ server' sent, executeCommand server request now = .ok (server', sent) ∧
      server'.clients.WellFormed ∧ server'.registry =
        server.registry.execute server.clients.heap.fresh request now ∧
      (request.command.kind ≠ .say → server' = { server with clients := server'.clients }) := by
  unfold executeCommand Registry.execute
  cases kind : request.command.kind with
  | conn =>
      obtain ⟨clients, done, formed', nodes⟩ := connectToServer_spec formed request now
      exact ⟨_, _, done, formed', nodes, fun _ => rfl⟩
  | say =>
      obtain ⟨node, present⟩ := safe (by rw [kind]; rfl)
      have named : server.registry.nameAt request.fromAddr = some node.2.clientName := by
        rw [Registry.nameAt, present, Option.map_some]
      refine ⟨_, _, say_present formed named, ?_, ?_, fun other => (other rfl).elim⟩
      · rwa [Server.record_clients]
      · rw [Server.registry, Server.record_clients]
        rfl
  | sayto =>
      obtain ⟨node, present⟩ := safe (by rw [kind]; rfl)
      obtain ⟨sent, done⟩ := sayto_present formed present
      exact ⟨server, sent, done, formed, rfl, fun _ => rfl⟩
  | rename =>
      obtain ⟨node, present⟩ := safe (by rw [kind]; rfl)
      obtain ⟨clients, done, formed', nodes⟩ := renameClient_present formed present
      exact ⟨_, _, done, formed', nodes, fun _ => rfl⟩
  | disconn =>
      obtain ⟨clients, sent, done, formed', nodes⟩ := disconnect_spec formed request
      exact ⟨_, _, done, formed', nodes, fun _ => rfl⟩
  | kick =>
      obtain ⟨clients, sent, done, formed', nodes⟩ := kick_spec formed request
      exact ⟨_, _, done, formed', nodes, fun _ => rfl⟩
  | _ => exact ⟨server, _, rfl, formed, rfl, fun _ => rfl⟩

/-- A worker that follows the pointer to a missing sender faults. -/
theorem executeCommand_absent (now : ℤ)
    (follows : request.command.kind.followsSender = true)
    (absent : server.registry.atAddress request.fromAddr = none) :
    executeCommand server request now = .error .null := by
  unfold executeCommand
  cases kind : request.command.kind with
  | say => exact say_absent formed absent
  | sayto => exact sayto_absent formed absent
  | rename => exact renameClient_absent formed absent
  | _ =>
      rw [kind] at follows
      cases follows

/-- The worker starts from the server that has marked the activity of the sender. -/
theorem spawn_eq_execute (now : ℤ) :
    ∃ clients, spawnExecuteCommandThreads server request now =
        executeCommand { server with clients := clients } request now ∧
      clients.WellFormed ∧ clients.heap.fresh = server.clients.heap.fresh ∧
      clients.nodes = server.registry.mark request now := by
  obtain ⟨clients, marked, formed', fresh, nodes⟩ := markActivity_spec formed request now
  refine ⟨clients, ?_, formed', fresh, nodes⟩
  rw [spawnExecuteCommandThreads, marked, ok_bind]

/-- A command that is served leaves a well-formed list, with the registry's effect. -/
theorem spawn_spec (now : ℤ)
    (safe : request.command.kind.followsSender = true →
      request.fromAddr ∈ server.registry.addresses) :
    ∃ server' sent, spawnExecuteCommandThreads server request now = .ok (server', sent) ∧
      server'.clients.WellFormed ∧ server'.registry =
        server.registry.serve server.clients.heap.fresh request now ∧
      (request.command.kind ≠ .say → server' = { server with clients := server'.clients }) := by
  obtain ⟨clients, same, formed', fresh, nodes⟩ := spawn_eq_execute formed request now
  have registry : ({ server with clients := clients } : Server).registry =
      server.registry.mark request now := nodes
  have present : request.command.kind.followsSender = true → ∃ node,
      ({ server with clients := clients } : Server).registry.atAddress request.fromAddr =
        some node := by
    intro follows
    rw [Registry.exists_atAddress, registry, Registry.addresses_mark]
    exact safe follows
  have formedThere : ({ server with clients := clients } : Server).clients.WellFormed := formed'
  obtain ⟨server', sent, done, formed'', effect, kept⟩ :=
    executeCommand_spec formedThere request now present
  refine ⟨server', sent, same.trans done, formed'', effect.trans ?_, kept⟩
  rw [registry]
  simp only [fresh]
  rfl

/-- A `say` of a known sender is sent to every client and recorded. -/
theorem spawn_say (now : ℤ) (said : request.command.kind = .say) {sender : Name}
    (present : server.registry.nameAt request.fromAddr = some sender) :
    ∃ clients, spawnExecuteCommandThreads server request now =
        .ok (({ server with clients := clients } : Server).record
            (fullMessage sender request.command),
          server.registry.addresses.map fun address =>
            ⟨address, sayResponse (fullMessage sender request.command), responseBufferSize⟩) ∧
      clients.WellFormed ∧ clients.nodes = server.registry.mark request now := by
  obtain ⟨clients, same, formed', -, nodes⟩ := spawn_eq_execute formed request now
  have formedThere : ({ server with clients := clients } : Server).clients.WellFormed := formed'
  have named : ({ server with clients := clients } : Server).registry.nameAt request.fromAddr =
      some sender := by
    rw [Server.registry, nodes, Registry.nameAt_mark]
    exact present
  refine ⟨clients, ?_, formed', nodes⟩
  rw [same, executeCommand, said]
  simp only
  rw [say_present formedThere named, ← Registry.addresses_mark _ request now, ← nodes,
    Registry.addresses, List.map_map]
  rfl

/-- A command of an unknown sender that follows its pointer faults. -/
theorem spawn_absent (now : ℤ) (follows : request.command.kind.followsSender = true)
    (absent : request.fromAddr ∉ server.registry.addresses) :
    spawnExecuteCommandThreads server request now = .error .null := by
  obtain ⟨clients, same, formed', -, nodes⟩ := spawn_eq_execute formed request now
  have formedThere : ({ server with clients := clients } : Server).clients.WellFormed := formed'
  rw [same]
  refine executeCommand_absent formedThere request now follows ?_
  rw [Registry.atAddress_eq_none, Server.registry, nodes, Registry.addresses_mark]
  exact absent

end Dispatch

/-- An event that is handled leaves a well-formed list, with the registry's effect. -/
theorem handle_refines {server server' : Server} (formed : server.clients.WellFormed)
    {event : ServerEvent} {sent : List Datagram}
    (handled : handle server event = .ok (server', sent)) :
    server'.clients.WellFormed ∧
      server'.registry = server.registry.apply server.clients.heap.fresh event := by
  cases event with
  | command request now =>
      have safe : request.command.kind.followsSender = true →
          request.fromAddr ∈ server.registry.addresses := by
        intro follows
        by_contra absent
        rw [handle, spawn_absent formed request now follows absent] at handled
        cases handled
      obtain ⟨other, _, done, formed', effect, -⟩ := spawn_spec formed request now safe
      rw [handle, done] at handled
      cases handled
      exact ⟨formed', effect⟩
  | managerPass currentTime =>
      obtain ⟨clients, _, done, formed', effect⟩ := connectionManager_spec formed currentTime
      rw [handle, done] at handled
      cases handled
      exact ⟨formed', effect⟩

/-- The client list is well formed in every reachable state. -/
theorem wellFormed_of_reachable {server : Server} (reachable : serverSystem.Reachable server) :
    server.clients.WellFormed := by
  refine reachable.invariant (I := fun server => server.clients.WellFormed) ?_ ?_
  · rintro server rfl
    exact ClientList.empty_wellFormed.1
  · rintro server event server' formed ⟨sent, handled⟩
    exact (handle_refines formed handled).1

/-! ## Commands of unknown senders -/

/-- The command is handled to its end, and if its sender is unknown and it is not a
connection, the server stays as it is. -/
def HandledSafely (server : Server) (request : Request) (now : ℤ) : Prop :=
  ∃ server' sent, spawnExecuteCommandThreads server request now = .ok (server', sent) ∧
    (request.command.kind ≠ .conn → request.fromAddr ∉ server.registry.addresses →
      server' = server)

/-- A worker of an unknown sender, if it is safe, changes nothing. -/
theorem executeCommand_unknown {server : Server} (formed : server.clients.WellFormed)
    {request : Request} (now : ℤ) (other : request.command.kind ≠ .conn)
    (safe : request.command.kind.followsSender = false)
    (absent : request.fromAddr ∉ server.registry.addresses) :
    ∃ sent, executeCommand server request now = .ok (server, sent) := by
  have missing := Registry.atAddress_eq_none.mpr absent
  unfold executeCommand
  cases kind : request.command.kind with
  | conn => exact (other kind).elim
  | say | sayto | rename =>
      rw [kind] at safe
      cases safe
  | disconn => exact ⟨_, disconnect_absent formed missing⟩
  | kick =>
      refine ⟨_, kick_denied formed ?_⟩
      cases shape : server.registry with
      | nil => rfl
      | cons node rest =>
          have different : node.2.clientAddress ≠ request.fromAddr := by
            intro same
            exact absent (by simp [shape, Registry.addresses, same])
          simpa [Registry.administers] using different
  | _ => exact ⟨_, rfl⟩

/-- **Which commands are handled safely.** In every reachable state, exactly the
commands other than `say`, `sayto` and `rename` from a sender that is not in the list. -/
theorem handledSafely_iff {server : Server} (reachable : serverSystem.Reachable server)
    (request : Request) (now : ℤ) :
    HandledSafely server request now ↔
      (request.command.kind.followsSender = true →
        request.fromAddr ∈ server.registry.addresses) := by
  have formed := wellFormed_of_reachable reachable
  constructor
  · rintro ⟨server', sent, done, -⟩ follows
    by_contra absent
    rw [spawn_absent formed request now follows absent] at done
    cases done
  · intro safe
    obtain ⟨server', sent, done, -⟩ := spawn_spec formed request now safe
    refine ⟨server', sent, done, ?_⟩
    intro other absent
    have unfollowed : request.command.kind.followsSender = false := by
      by_contra follows
      exact absent (safe (by simpa using follows))
    obtain ⟨sent', same⟩ := executeCommand_unknown formed now other unfollowed absent
    rw [spawnExecuteCommandThreads, markActivity_absent formed now absent] at done
    have equal := done.symm.trans same
    cases equal
    rfl

theorem handled_step {server server' : Server} {sent : List Datagram} (event : ServerEvent)
    (handled : handle server event = .ok (server', sent)) :
    serverSystem.step server event server' :=
  ⟨sent, handled⟩

/-- A command with one argument from a port of the local host. -/
def sampleRequest (kind : CommandKind) (port : UInt16) (arg : String) : Request :=
  ⟨⟨kind, fun slot => if slot = 0 then ofBytes nameSize (ascii arg) else .empty nameSize⟩,
    ⟨2, port, 16777343, 0⟩⟩

/-- A connected client says something. -/
theorem handledSafely_say_known :
    ∃ server, serverSystem.Reachable server ∧ server.registry.addresses ≠ [] ∧
      HandledSafely server (sampleRequest .say 1 "hello") 0 := by
  have start : serverSystem.Reachable Server.start := .start rfl
  have connected := start.step (handled_step (.command (sampleRequest .conn 1 "A") 0) rfl)
  exact ⟨_, connected, by decide, (handledSafely_iff connected _ 0).mpr fun _ => by decide⟩

/-- A `say` reaches the server before anybody has connected. -/
theorem stranger_say_faults :
    serverSystem.Reachable Server.start ∧
      ¬ HandledSafely Server.start (sampleRequest .say 1 "hello") 0 := by
  refine ⟨.start rfl, ?_⟩
  rintro ⟨server', sent, done, -⟩
  cases done

end MultithreadedChat
