import MultithreadedChat.Server.LiveNodes

/-! # Where names and datagrams come from

Everything the server holds and sends goes back to a request, in every interleaving: a client
is in the list at an address that asked to be connected, under a name that this address asked
for, and each datagram is due to a request (`MultithreadedChat.datagrams_warranted`). In
particular a line of chat carries a name that the address which said it asked to have
(`MultithreadedChat.Said`), also when the worker reads the name through a pointer from an
earlier section.
-/

namespace MultithreadedChat

open CString LinkedList

/-! ## What the requests ask for -/

section Requests

variable (requests : List Request)

/-- The address has asked to be connected. -/
def Connects (address : SockAddrIn) : Prop :=
  ∃ request ∈ requests, request.command.kind = .conn ∧ request.fromAddr = address

/-- The address has asked to be called so. -/
def CallsItself (address : SockAddrIn) (name : Name) : Prop :=
  ∃ request ∈ requests, (request.command.kind = .conn ∨ request.command.kind = .rename) ∧
    request.fromAddr = address ∧ request.command.args 0 = name

/-- A line of chat: a text said from an address under a name that it asked for. -/
def Said (message : List UInt8) : Prop :=
  ∃ request ∈ requests, request.command.kind = .say ∧
    ∃ name, CallsItself requests request.fromAddr name ∧ message = fullMessage name request.command

/-- The keyword of an answer to the requester itself. -/
def answerKeyword : CommandKind → Option (List UInt8)
  | .mute => some (ascii "mute$ ")
  | .unmute => some (ascii "unmute$ ")
  | .rename => some (ascii "rename$ ")
  | _ => none

/-- What the server may send, and to whom. -/
inductive Warranted : Datagram → Prop
  | connected {request : Request} : request ∈ requests → request.command.kind = .conn →
      Warranted (connsuccess request)
  | said {message : List UInt8} {address : SockAddrIn} : Said requests message →
      Connects requests address →
      Warranted ⟨address, sayResponse message, responseBufferSize⟩
  | delivered {request : Request} {sender : Name} {address : SockAddrIn} : request ∈ requests →
      request.command.kind = .sayto → CallsItself requests request.fromAddr sender →
      CallsItself requests address (request.command.args 0) →
      Warranted ⟨address, saytoReceiverResponse sender request.command, responseBufferSize⟩
  | confirmed {request : Request} : request ∈ requests → request.command.kind = .sayto →
      Warranted ⟨request.fromAddr, saytoSenderResponse request.command, responseBufferSize⟩
  | missed {request : Request} : request ∈ requests → request.command.kind = .sayto →
      Warranted ⟨request.fromAddr, saytoMissingResponse request.command, responseBufferSize⟩
  | announced {request : Request} {address : SockAddrIn} : request ∈ requests →
      request.command.kind = .kick → Connects requests address →
      Warranted ⟨address, kickedResponse (request.command.args 0), responseBufferSize⟩
  | denied {request : Request} : request ∈ requests → request.command.kind = .kick →
      Warranted (permissionDenied request.fromAddr)
  | answered {request : Request} {keyword : List UInt8} : request ∈ requests →
      answerKeyword request.command.kind = some keyword → Warranted (answer request keyword)
  | unknown {request : Request} : request ∈ requests → request.command.kind = .unknown →
      Warranted (unknownCommand request.fromAddr)
  | pinged {address : SockAddrIn} : Connects requests address → Warranted (ping address)
  | closed {address : SockAddrIn} : Connects requests address →
      Warranted (disconnresponse address)

end Requests

section Monotone

variable {requests later : List Request} (grows : requests ⊆ later)
include grows

theorem Connects.mono {address : SockAddrIn} (connects : Connects requests address) :
    Connects later address := by
  obtain ⟨request, asked, rest⟩ := connects
  exact ⟨request, grows asked, rest⟩

theorem CallsItself.mono {address : SockAddrIn} {name : Name}
    (calls : CallsItself requests address name) : CallsItself later address name := by
  obtain ⟨request, asked, rest⟩ := calls
  exact ⟨request, grows asked, rest⟩

theorem Said.mono {message : List UInt8} (said : Said requests message) : Said later message := by
  obtain ⟨request, asked, kind, name, calls, same⟩ := said
  exact ⟨request, grows asked, kind, name, calls.mono grows, same⟩

theorem Warranted.mono {datagram : Datagram} (warranted : Warranted requests datagram) :
    Warranted later datagram := by
  cases warranted with
  | connected asked kind => exact .connected (grows asked) kind
  | said said connects => exact .said (said.mono grows) (connects.mono grows)
  | delivered asked kind sender recipient =>
      exact .delivered (grows asked) kind (sender.mono grows) (recipient.mono grows)
  | confirmed asked kind => exact .confirmed (grows asked) kind
  | missed asked kind => exact .missed (grows asked) kind
  | announced asked kind connects => exact .announced (grows asked) kind (connects.mono grows)
  | denied asked kind => exact .denied (grows asked) kind
  | answered asked keyword => exact .answered (grows asked) keyword
  | unknown asked kind => exact .unknown (grows asked) kind
  | pinged connects => exact .pinged (connects.mono grows)
  | closed connects => exact .closed (connects.mono grows)

end Monotone

theorem CallsItself.asked {requests : List Request} {address : SockAddrIn} {name : Name}
    (calls : CallsItself requests address name) :
    ∃ request ∈ requests, request.fromAddr = address := by
  obtain ⟨request, asked, -, same, -⟩ := calls
  exact ⟨request, asked, same⟩

/-- Nothing is sent to an address from which nothing has come. -/
theorem Warranted.asked {requests : List Request} {datagram : Datagram}
    (warranted : Warranted requests datagram) :
    ∃ request ∈ requests, request.fromAddr = datagram.addr := by
  have connected : ∀ {address}, Connects requests address →
      ∃ request ∈ requests, request.fromAddr = address := by
    rintro address ⟨request, asked, -, same⟩
    exact ⟨request, asked, same⟩
  cases warranted with
  | said _ connects | announced _ _ connects | pinged connects | closed connects =>
      exact connected connects
  | delivered _ _ _ recipient => exact recipient.asked
  | connected asked | confirmed asked | missed asked | denied asked | answered asked
  | unknown asked => exact ⟨_, asked, rfl⟩

/-! ## What the threads hold -/

/-- A pointer to a node leads to a client at an address, if anywhere. -/
def Server.Leads (server : Server) (node : Ptr) (address : SockAddrIn) : Prop :=
  ∀ id, node = some id → id < server.clients.heap.fresh ∧
    ∀ listed ∈ server.registry, listed.1 = id → listed.2.clientAddress = address

/-- What a worker goes by was asked for, and its pointers lead to those who asked. -/
def WorkerLoc.Accounted (requests : List Request) (server : Server) : WorkerLoc → Prop
  | .connectInsert request | .connectReply request =>
    request ∈ requests ∧ request.command.kind = .conn
  | .saytoLookup request => request ∈ requests ∧ request.command.kind = .sayto
  | .saytoDeliver command client fromWho =>
    ∃ request ∈ requests, request.command.kind = .sayto ∧ request.command = command ∧
      server.Leads fromWho request.fromAddr ∧
      ∃ address, server.Leads client address ∧ CallsItself requests address (command.args 0)
  | .saytoAnswer response fromWho =>
    ∃ request ∈ requests, request.command.kind = .sayto ∧ server.Leads fromWho request.fromAddr ∧
      (response = saytoSenderResponse request.command ∨
        response = saytoMissingResponse request.command)
  | .sayReadHead request | .sayFindSender request _ =>
    request ∈ requests ∧ request.command.kind = .say
  | .sayFormat command _ fromWho =>
    ∃ request ∈ requests, request.command.kind = .say ∧ request.command = command ∧
      server.Leads fromWho request.fromAddr
  | .sayRecord message _ | .sayBroadcast message _ => Said requests message
  | .disconnectLookup _ | .disconnectRemove _ => True
  | .renameWrite request => request ∈ requests ∧ request.command.kind = .rename
  | .kickCheck request | .kickRemove request => request ∈ requests ∧ request.command.kind = .kick
  | .kickConfirm name address =>
    Connects requests address ∧
      ∃ request ∈ requests, request.command.kind = .kick ∧ request.command.args 0 = name
  | .kickBroadcast name =>
    ∃ request ∈ requests, request.command.kind = .kick ∧ request.command.args 0 = name
  | .reply datagram => Warranted requests datagram

/-- What the server holds was asked for. -/
structure Server.Accounted (requests : List Request) (server : Server) : Prop where
  formed : server.clients.WellFormed
  tight : server.clients.Tight
  listed : ∀ node ∈ server.registry, Connects requests node.2.clientAddress ∧
    CallsItself requests node.2.clientAddress node.2.clientName
  recorded : ∀ slot line, server.chatHistory slot = some line → Said requests line

namespace Server.Accounted

variable {requests : List Request} {server : Server} (accounted : server.Accounted requests)
include accounted

/-- Whom a pointer is followed to. -/
theorem of_load {node : Ptr} {address : SockAddrIn} (leads : server.Leads node address)
    {cell : Cell Client} (loaded : server.clients.heap.load node = .ok cell) :
    cell.value.clientAddress = address ∧ Connects requests address ∧
      CallsItself requests address cell.value.clientName := by
  obtain ⟨id, rfl, member⟩ := accounted.tight.load_mem accounted.formed loaded
  have same := (leads id rfl).2 _ member rfl
  obtain ⟨connects, calls⟩ := accounted.listed _ member
  exact ⟨same, same ▸ connects, same ▸ calls⟩

/-- A search by address leads to the address. -/
theorem leads_sender (address : SockAddrIn) :
    server.Leads ((server.registry.atAddress address).map Prod.fst) address := by
  intro id found
  obtain ⟨node, first, rfl⟩ := Option.map_eq_some_iff.mp found
  have member := List.mem_of_find?_eq_some first
  refine ⟨accounted.formed.lt_fresh (List.mem_map_of_mem member), fun listed present same => ?_⟩
  obtain rfl := List.inj_on_of_nodup_map accounted.formed.nodup present member same
  simpa using List.find?_some first

/-- A search by name leads to someone who asked for the name. -/
theorem leads_named {name : Name} {node : ℕ × Client}
    (found : server.registry.named name = some node) :
    server.Leads (some node.1) node.2.clientAddress ∧
      CallsItself requests node.2.clientAddress name := by
  have member := List.mem_of_find?_eq_some found
  have called : node.2.clientName = name := by simpa using List.find?_some found
  refine ⟨?_, called ▸ (accounted.listed node member).2⟩
  rintro id same
  cases same
  refine ⟨accounted.formed.lt_fresh (List.mem_map_of_mem member), fun listed present same => ?_⟩
  rw [List.inj_on_of_nodup_map accounted.formed.nodup present member same]

/-- Whoever is removed had asked to be connected. -/
theorem connects_removed {name : Name} {clients : ClientList} {address : SockAddrIn}
    (removed : removeClientFromList server.clients name = .ok (clients, some address)) :
    Connects requests address := by
  obtain ⟨other, done, -⟩ := accounted.formed.removeClientFromList_spec name
  rw [done] at removed
  obtain ⟨-, found⟩ := Prod.mk.inj (Except.ok.inj removed)
  obtain ⟨node, first, rfl⟩ := Option.map_eq_some_iff.mp found
  exact (accounted.listed node (List.mem_of_find?_eq_some first)).1

/-- A broadcast goes to those who asked to be connected. -/
theorem connects_broadcast {node : Ptr} {response : List UInt8} {sent : List Datagram}
    (done : broadcast server.clients node response = .ok sent) {datagram : Datagram}
    (member : datagram ∈ sent) :
    ∃ address, Connects requests address ∧ datagram = ⟨address, response, responseBufferSize⟩ := by
  obtain ⟨reached, listed, rfl⟩ := accounted.tight.broadcast_mem accounted.formed done member
  exact ⟨_, (accounted.listed reached listed).1, rfl⟩

end Server.Accounted

/-! ## What a step does -/

/-- The clients of a list, those of an earlier one and perhaps a new one, asked for what
they are. -/
def Registry.Continues (requests : List Request) (fresh : ℕ) (before after : Registry) : Prop :=
  ∀ node ∈ after,
    (node.1 = fresh ∨
      ∃ old ∈ before, old.1 = node.1 ∧ old.2.clientAddress = node.2.clientAddress) ∧
    Connects requests node.2.clientAddress ∧
    CallsItself requests node.2.clientAddress node.2.clientName

theorem mem_writeNode {id : ℕ} {f : Client → Client} {nodes : List (ℕ × Client)}
    {node : ℕ × Client} (member : node ∈ writeNode id f nodes) :
    node ∈ nodes ∨ ∃ old ∈ nodes, old.1 = id ∧ node = (old.1, f old.2) := by
  obtain ⟨old, listed, same⟩ := List.mem_map.mp member
  by_cases written : old.1 = id
  · rw [if_pos written] at same
    exact .inr ⟨old, listed, written, same.symm⟩
  · rw [if_neg written] at same
    exact .inl (same ▸ listed)

namespace Server.Accounted

variable {requests : List Request} {server server' : Server}
  (accounted : server.Accounted requests)
include accounted

theorem continues_subset {after : Registry} (fewer : after ⊆ server.registry) (fresh : ℕ) :
    Registry.Continues requests fresh server.registry after := by
  intro node member
  exact ⟨.inr ⟨node, fewer member, rfl, rfl⟩, accounted.listed node (fewer member)⟩

theorem continues_writeNode (id : ℕ) (f : Client → Client)
    (place : ∀ client, (f client).clientAddress = client.clientAddress)
    (name : ∀ client, (id, client) ∈ server.registry → (f client).clientName = client.clientName ∨
      CallsItself requests client.clientAddress (f client).clientName) (fresh : ℕ) :
    Registry.Continues requests fresh server.registry (writeNode id f server.registry) := by
  intro node member
  rcases mem_writeNode member with kept | ⟨⟨same, client⟩, listed, rfl, rfl⟩
  · exact accounted.continues_subset (List.Subset.refl _) fresh node kept
  · obtain ⟨connects, calls⟩ := accounted.listed _ listed
    refine ⟨.inr ⟨_, listed, rfl, (place client).symm⟩, (place client).symm ▸ connects, ?_⟩
    rw [place client]
    rcases name client listed with unchanged | asked
    · rw [unchanged]
      exact calls
    · exact asked

theorem continues_writeAt (address : SockAddrIn) (f : Client → Client)
    (place : ∀ client, (f client).clientAddress = client.clientAddress)
    (name : ∀ client, (f client).clientName = client.clientName ∨
      CallsItself requests address (f client).clientName) (fresh : ℕ) :
    Registry.Continues requests fresh server.registry (server.registry.writeAt address f) := by
  rw [Registry.writeAt]
  cases found : server.registry.atAddress address with
  | none => exact accounted.continues_subset (List.Subset.refl _) fresh
  | some node =>
      refine accounted.continues_writeNode node.1 f place (fun client listed => ?_) fresh
      have same := (accounted.leads_sender address node.1 (by rw [found]; rfl)).2 _ listed rfl
      rw [show client.clientAddress = address from same]
      exact name client

theorem continues_mark (request : Request) (now : ℤ) (fresh : ℕ) :
    Registry.Continues requests fresh server.registry (server.registry.mark request now) := by
  unfold Registry.mark
  split
  · exact accounted.continues_writeAt _ (Client.touched now) (fun _ => rfl) (fun _ => .inl rfl)
      fresh
  · exact accounted.continues_subset (List.Subset.refl _) fresh

/-- A worker leaves clients that asked for what they are. -/
theorem continues_worker {loc : WorkerLoc} (here : loc.Accounted requests server) (now : ℤ) :
    Registry.Continues requests server.clients.heap.fresh server.registry
      (loc.effect server now) := by
  cases loc with
  | connectInsert request =>
      obtain ⟨asked, kind⟩ := here
      intro node member
      rcases List.mem_append.mp member with old | new
      · exact accounted.continues_subset (List.Subset.refl _) _ node old
      · obtain rfl := List.mem_singleton.mp new
        exact ⟨.inl rfl, ⟨request, asked, kind, rfl⟩, request, asked, .inl kind, rfl, rfl⟩
  | renameWrite request =>
      obtain ⟨asked, kind⟩ := here
      exact accounted.continues_writeAt _
        (fun client => { client with clientName := request.command.args 0 }) (fun _ => rfl)
        (fun _ => .inr ⟨request, asked, .inr kind, rfl, rfl⟩) _
  | _ =>
      simp only [WorkerLoc.effect]
      split
      · exact accounted.continues_subset (List.Subset.refl _) _
      · exact accounted.continues_subset List.eraseP_subset _

theorem continues_manager (loc : ManagerLoc) :
    Registry.Continues requests server.clients.heap.fresh server.registry (loc.effect server) := by
  cases loc with
  | recording node currentTime =>
      exact accounted.continues_writeNode node
        (fun client => { client with pingSent := currentTime }) (fun _ => rfl)
        (fun _ _ => .inl rfl) _
  | removing node kickName scanned => exact accounted.continues_subset List.eraseP_subset _
  | _ => exact accounted.continues_subset (List.Subset.refl _) _

omit accounted in
/-- Pointers lead to the same addresses. -/
theorem leads_continues {later : List Request}
    (fresh : server.clients.heap.fresh ≤ server'.clients.heap.fresh)
    (continues : Registry.Continues later server.clients.heap.fresh server.registry
      server'.registry) {node : Ptr} {address : SockAddrIn} (leads : server.Leads node address) :
    server'.Leads node address := by
  intro id found
  obtain ⟨below, place⟩ := leads id found
  refine ⟨below.trans_le fresh, fun listed member same => ?_⟩
  rcases (continues listed member).1 with new | ⟨old, present, identity, address⟩
  · omega
  · rw [← address]
    exact place old present (identity.trans same)

/-- The lines of the history were said. -/
theorem warranted_replay {address : SockAddrIn} (connects : Connects requests address)
    {datagram : Datagram} (member : datagram ∈ server.replay address) :
    Warranted requests datagram := by
  obtain ⟨slot, -, kept⟩ := List.mem_filterMap.mp member
  obtain ⟨line, stored, rfl⟩ := Option.map_eq_some_iff.mp kept
  exact .said (accounted.recorded slot line stored) connects

theorem recorded_record {message : List UInt8} (said : Said requests message) (slot : ℕ)
    (line : List UInt8) (stored : (server.record message).chatHistory slot = some line) :
    Said requests line := by
  unfold Server.record at stored
  split at stored
  · dsimp only at stored
    by_cases new : slot = server.chatHistoryc
    · subst new
      rw [Function.update_self] at stored
      cases stored
      exact said
    · rw [Function.update_of_ne new] at stored
      exact accounted.recorded slot line stored
  · exact accounted.recorded slot line stored

end Server.Accounted

/-- Where the worker of a request starts. -/
theorem WorkerLoc.start_accounted {requests : List Request} {request : Request}
    (asked : request ∈ requests) {loc : WorkerLoc} (begins : start request = some loc)
    (server : Server) : loc.Accounted requests server := by
  unfold start at begins
  split at begins <;> rename_i kind <;> cases begins
  · exact ⟨asked, kind⟩
  · exact ⟨asked, kind⟩
  · exact ⟨asked, kind⟩
  · trivial
  · exact .answered asked (by rw [kind]; rfl)
  · exact .answered asked (by rw [kind]; rfl)
  · exact ⟨asked, kind⟩
  · exact ⟨asked, kind⟩
  · exact .unknown asked kind

/-- More requests and other lists of the same pointers keep a worker accounted for. -/
theorem WorkerLoc.Accounted.mono {requests later : List Request} {server server' : Server}
    {loc : WorkerLoc} (here : loc.Accounted requests server) (grows : requests ⊆ later)
    (leads : ∀ node address, server.Leads node address → server'.Leads node address) :
    loc.Accounted later server' := by
  cases loc with
  | connectInsert | connectReply | saytoLookup | sayReadHead | sayFindSender | renameWrite
  | kickCheck | kickRemove => exact ⟨grows here.1, here.2⟩
  | disconnectLookup | disconnectRemove => trivial
  | sayRecord | sayBroadcast => exact Said.mono grows here
  | reply => exact Warranted.mono grows here
  | saytoDeliver =>
      obtain ⟨request, asked, kind, command, sender, address, recipient, calls⟩ := here
      exact ⟨request, grows asked, kind, command, leads _ _ sender, address, leads _ _ recipient,
        calls.mono grows⟩
  | saytoAnswer =>
      obtain ⟨request, asked, kind, sender, response⟩ := here
      exact ⟨request, grows asked, kind, leads _ _ sender, response⟩
  | sayFormat =>
      obtain ⟨request, asked, kind, command, sender⟩ := here
      exact ⟨request, grows asked, kind, command, leads _ _ sender⟩
  | kickConfirm =>
      obtain ⟨connects, request, asked, rest⟩ := here
      exact ⟨connects.mono grows, request, grows asked, rest⟩
  | kickBroadcast =>
      obtain ⟨request, asked, rest⟩ := here
      exact ⟨request, grows asked, rest⟩

section Steps

variable {requests : List Request} {server server' : Server}
  (accounted : server.Accounted requests) {now : ℤ} {sent : List Datagram}
include accounted

/-- A worker sends what is due, and goes on by what was asked for. -/
theorem WorkerLoc.step_accounted {loc : WorkerLoc} {next : Option WorkerLoc}
    (here : loc.Accounted requests server)
    (moved : loc.step server now = .ok (server', sent, next)) :
    (∀ datagram ∈ sent, Warranted requests datagram) ∧
      (∀ after, next = some after → after.Accounted requests server) ∧
      ∀ slot line, server'.chatHistory slot = some line → Said requests line := by
  have recorded := accounted.recorded
  have ends : ∀ after : WorkerLoc, none = some after → after.Accounted requests server := by
    intro after nothing
    cases nothing
  cases loc with
  | connectInsert request =>
      obtain ⟨clients, -, moved⟩ := exists_of_bind_eq_ok moved
      cases moved
      exact ⟨nofun, by rintro after ⟨⟩; exact here, recorded⟩
  | connectReply request =>
      cases moved
      obtain ⟨asked, kind⟩ := here
      refine ⟨fun datagram member => ?_, ends, recorded⟩
      rcases List.mem_cons.mp member with rfl | replayed
      · exact .connected asked kind
      · exact accounted.warranted_replay ⟨request, asked, kind, rfl⟩ replayed
  | saytoLookup request =>
      obtain ⟨asked, kind⟩ := here
      have sender := accounted.leads_sender request.fromAddr
      simp only [step, accounted.formed.findRecipient_eq, accounted.formed.findSender_eq,
        ok_bind] at moved
      cases recipient : server.registry.named (request.command.args 0) with
      | none =>
          rw [recipient] at moved
          cases moved
          refine ⟨nofun, ?_, recorded⟩
          rintro after ⟨⟩
          exact ⟨request, asked, kind, sender, .inr rfl⟩
      | some node =>
          rw [recipient] at moved
          cases moved
          obtain ⟨leads, calls⟩ := accounted.leads_named recipient
          refine ⟨nofun, ?_, recorded⟩
          rintro after ⟨⟩
          exact ⟨request, asked, kind, rfl, sender, _, leads, calls⟩
  | saytoDeliver command client fromWho =>
      obtain ⟨request, asked, kind, rfl, leads, address, reaches, calls⟩ := here
      obtain ⟨sender, loaded, moved⟩ := exists_of_bind_eq_ok moved
      obtain ⟨recipient, found, moved⟩ := exists_of_bind_eq_ok moved
      cases moved
      obtain ⟨-, -, named⟩ := accounted.of_load leads loaded
      obtain ⟨rfl, -, -⟩ := accounted.of_load reaches found
      refine ⟨fun datagram member => ?_, ?_, recorded⟩
      · obtain rfl := List.mem_singleton.mp member
        exact .delivered asked kind named calls
      · rintro after ⟨⟩
        exact ⟨request, asked, kind, leads, .inl rfl⟩
  | saytoAnswer response fromWho =>
      obtain ⟨request, asked, kind, leads, response⟩ := here
      obtain ⟨sender, loaded, moved⟩ := exists_of_bind_eq_ok moved
      cases moved
      refine ⟨fun datagram member => ?_, ends, recorded⟩
      obtain rfl := List.mem_singleton.mp member
      rw [(accounted.of_load leads loaded).1]
      rcases response with rfl | rfl
      · exact .confirmed asked kind
      · exact .missed asked kind
  | sayReadHead request =>
      cases moved
      exact ⟨nofun, by rintro after ⟨⟩; exact here, recorded⟩
  | sayFindSender request node =>
      obtain ⟨asked, kind⟩ := here
      simp only [step, accounted.formed.findSender_eq, ok_bind, pure_eq_ok] at moved
      cases moved
      refine ⟨nofun, ?_, recorded⟩
      rintro after ⟨⟩
      exact ⟨request, asked, kind, rfl, accounted.leads_sender request.fromAddr⟩
  | sayFormat command node fromWho =>
      obtain ⟨request, asked, kind, rfl, leads⟩ := here
      obtain ⟨sender, loaded, moved⟩ := exists_of_bind_eq_ok moved
      cases moved
      refine ⟨nofun, ?_, recorded⟩
      rintro after ⟨⟩
      -- the name is the one in the node now, which its address asked for at some time
      exact ⟨request, asked, kind, _, (accounted.of_load leads loaded).2.2, rfl⟩
  | sayRecord message node =>
      cases moved
      exact ⟨nofun, by rintro after ⟨⟩; exact here, accounted.recorded_record here⟩
  | sayBroadcast message node =>
      obtain ⟨reached, done, moved⟩ := exists_of_bind_eq_ok moved
      cases moved
      refine ⟨fun datagram member => ?_, ends, recorded⟩
      obtain ⟨address, connects, rfl⟩ := accounted.connects_broadcast done member
      exact .said here connects
  | disconnectLookup request =>
      obtain ⟨node, -, moved⟩ := exists_of_bind_eq_ok moved
      cases node <;> cases moved
      · exact ⟨nofun, ends, recorded⟩
      · exact ⟨nofun, by rintro after ⟨⟩; trivial, recorded⟩
  | disconnectRemove node =>
      simp only [step] at moved
      split at moved
      · cases moved
        exact ⟨nofun, ends, recorded⟩
      · obtain ⟨requester, -, moved⟩ := exists_of_bind_eq_ok moved
        obtain ⟨⟨clients, address⟩, taken, moved⟩ := exists_of_bind_eq_ok moved
        cases moved
        refine ⟨nofun, ?_, recorded⟩
        intro after continues
        obtain ⟨removed, rfl, rfl⟩ := Option.map_eq_some_iff.mp continues
        exact .closed (accounted.connects_removed taken)
  | renameWrite request =>
      obtain ⟨asked, kind⟩ := here
      obtain ⟨clients, -, moved⟩ := exists_of_bind_eq_ok moved
      cases moved
      refine ⟨nofun, ?_, recorded⟩
      rintro after ⟨⟩
      exact .answered asked (by rw [kind]; rfl)
  | kickCheck request =>
      obtain ⟨admin, -, moved⟩ := exists_of_bind_eq_ok moved
      cases admin <;> cases moved
      · refine ⟨nofun, ?_, recorded⟩
        rintro after ⟨⟩
        exact .denied here.1 here.2
      · exact ⟨nofun, by rintro after ⟨⟩; exact here, recorded⟩
  | kickRemove request =>
      obtain ⟨⟨clients, address⟩, taken, moved⟩ := exists_of_bind_eq_ok moved
      cases moved
      refine ⟨nofun, ?_, recorded⟩
      intro after continues
      obtain ⟨removed, rfl, rfl⟩ := Option.map_eq_some_iff.mp continues
      exact ⟨accounted.connects_removed taken, request, here.1, here.2, rfl⟩
  | kickConfirm name address =>
      obtain ⟨connects, kicks⟩ := here
      cases moved
      refine ⟨fun datagram member => ?_, by rintro after ⟨⟩; exact kicks, recorded⟩
      obtain rfl := List.mem_singleton.mp member
      exact .closed connects
  | kickBroadcast name =>
      obtain ⟨request, asked, kind, rfl⟩ := here
      obtain ⟨reached, done, moved⟩ := exists_of_bind_eq_ok moved
      cases moved
      refine ⟨fun datagram member => ?_, ends, recorded⟩
      obtain ⟨address, connects, rfl⟩ := accounted.connects_broadcast done member
      exact .announced asked kind connects
  | reply datagram =>
      cases moved
      refine ⟨fun datagram member => ?_, ends, recorded⟩
      obtain rfl := List.mem_singleton.mp member
      exact here

/-- The connection manager writes to those who asked to be connected. -/
theorem ManagerLoc.step_accounted {loc next : ManagerLoc}
    (moved : loc.step server now = .ok (server', sent, next)) :
    (∀ datagram ∈ sent, Warranted requests datagram) ∧
      server'.chatHistory = server.chatHistory := by
  cases loc with
  | asleep =>
      cases moved
      exact ⟨nofun, rfl⟩
  | timed currentTime =>
      obtain ⟨selected, -, moved⟩ := exists_of_bind_eq_ok moved
      cases selected with
      | none =>
          cases moved
          exact ⟨nofun, rfl⟩
      | some node =>
          obtain ⟨chosen, -, moved⟩ := exists_of_bind_eq_ok moved
          split at moved <;> cases moved <;> exact ⟨nofun, rfl⟩
  | pinging node currentTime =>
      obtain ⟨cell, loaded, moved⟩ := exists_of_bind_eq_ok moved
      cases moved
      obtain ⟨id, -, listed⟩ := accounted.tight.load_mem accounted.formed loaded
      refine ⟨fun datagram member => ?_, rfl⟩
      obtain rfl := List.mem_singleton.mp member
      exact .pinged (accounted.listed _ listed).1
  | notifying node kickName scanned =>
      obtain ⟨cell, loaded, moved⟩ := exists_of_bind_eq_ok moved
      cases moved
      obtain ⟨id, -, listed⟩ := accounted.tight.load_mem accounted.formed loaded
      refine ⟨fun datagram member => ?_, rfl⟩
      obtain rfl := List.mem_singleton.mp member
      exact .closed (accounted.listed _ listed).1
  | recording | reporting =>
      obtain ⟨result, -, moved⟩ := exists_of_bind_eq_ok moved
      cases moved
      exact ⟨nofun, rfl⟩
  | removing node kickName scanned =>
      obtain ⟨⟨clients, address⟩, -, moved⟩ := exists_of_bind_eq_ok moved
      cases moved
      exact ⟨nofun, rfl⟩

end Steps

/-! ## The whole server -/

variable {ι : Type*}

/-- The requests for which the queue manager has started workers in a run. -/
def requests (trace : List (ConcurrentServer ι × ThreadLabel ι)) : List Request :=
  trace.filterMap fun
    | (_, .receive _ request) => some request
    | _ => none

/-- The server, its workers and what it has sent are accounted for by the requests. -/
structure ConcurrentServer.Accounted (requests : List Request) (state : ConcurrentServer ι) :
    Prop where
  server : state.server.Accounted requests
  workers : ∀ worker loc, state.workers worker = some loc → loc.Accounted requests state.server
  sent : ∀ datagram ∈ state.sent, Warranted requests datagram

variable [DecidableEq ι]

/-- A step keeps everything accounted for, by one more request if it starts a worker. -/
theorem ConcurrentStep.accounted {before after : ConcurrentServer ι} {label : ThreadLabel ι}
    {asked : List Request} (accounted : before.Accounted asked)
    (moved : ConcurrentStep before label after) :
    after.Accounted (asked ++ requests [(before, label)]) := by
  obtain ⟨server, workers, sent⟩ := accounted
  have formed := (moved.spec server.formed).1
  have tight := moved.tight server.formed server.tight
  have fresh := (moved.spec server.formed).2.1
  have effect := (moved.spec server.formed).2.2
  have grows := List.subset_append_left asked (requests [(before, label)])
  have settled : Registry.Continues asked before.server.clients.heap.fresh before.server.registry
      (before.effect label) →
      (∀ slot line, after.server.chatHistory slot = some line → Said asked line) →
      after.server.Accounted (asked ++ requests [(before, label)]) ∧
        ∀ node address, before.server.Leads node address → after.server.Leads node address := by
    intro continues recorded
    rw [← effect] at continues
    refine ⟨⟨formed, tight, fun node member => ?_, fun slot line stored =>
      (recorded slot line stored).mono grows⟩, fun node address =>
        Server.Accounted.leads_continues fresh continues⟩
    exact ⟨(continues node member).2.1.mono grows, (continues node member).2.2.mono grows⟩
  cases moved with
  | tick now =>
      obtain ⟨served, leads⟩ := settled (server.continues_subset (List.Subset.refl _) _)
        server.recorded
      exact ⟨served, fun worker loc here => (workers worker loc here).mono grows leads,
        fun datagram member => (sent datagram member).mono grows⟩
  | receive started request _ marked =>
      obtain ⟨clients, done, -⟩ := markActivity_spec server.formed request before.clock
      obtain rfl := Except.ok.inj (done.symm.trans marked)
      obtain ⟨served, leads⟩ := settled (server.continues_mark request before.clock _)
        server.recorded
      refine ⟨served, fun worker loc here => ?_,
        fun datagram member => (sent datagram member).mono grows⟩
      by_cases same : worker = started
      · subst same
        simp only [Function.update_self] at here
        refine WorkerLoc.start_accounted ?_ here _
        exact List.mem_append_right _ (List.mem_singleton_self request)
      · simp only [Function.update_of_ne same] at here
        exact (workers worker loc here).mono grows leads
  | worker acting running stepped =>
      rename_i loc _ new next
      have here := workers acting loc running
      obtain ⟨due, goes, recorded⟩ := WorkerLoc.step_accounted server here stepped
      have continues := server.continues_worker here before.clock
      obtain ⟨served, leads⟩ := settled (by simpa only [ConcurrentServer.effect, running]) recorded
      refine ⟨served, fun worker loc here => ?_, fun datagram member => ?_⟩
      · by_cases same : worker = acting
        · subst same
          simp only [Function.update_self] at here
          exact (goes loc here).mono grows leads
        · simp only [Function.update_of_ne same] at here
          exact (workers worker loc here).mono grows leads
      · rcases List.mem_append.mp member with old | now
        · exact (sent datagram old).mono grows
        · exact (due datagram now).mono grows
  | manager stepped =>
      obtain ⟨due, history⟩ := ManagerLoc.step_accounted server stepped
      obtain ⟨served, leads⟩ := settled (server.continues_manager before.manager)
        (fun slot line stored => server.recorded slot line (history ▸ stored))
      refine ⟨served, fun worker loc here => (workers worker loc here).mono grows leads,
        fun datagram member => ?_⟩
      rcases List.mem_append.mp member with old | now
      · exact (sent datagram old).mono grows
      · exact (due datagram now).mono grows

end MultithreadedChat
