import MultithreadedChat.Foundation.TransitionSystem
import MultithreadedChat.Server.Registry
import MultithreadedChat.Server.Workers

/-! # The server with all its threads

Any number of workers, the queue manager that starts them, the connection manager and
a clock that does not run backwards, interleaved step by step. The list stays well
formed, and each step changes the registry in one of few ways
(`MultithreadedChat.ConcurrentStep.spec`); a step removes a node only in the critical
sections of `disconnect`, of `kick` and of the connection manager
(`MultithreadedChat.ConcurrentServer.removed`).
-/

namespace MultithreadedChat

open CString LinkedList

/-- The threads of the server and what they share. `sent` collects the datagrams.
`pinged` is kept for the specification: the time of the last ping sent to a node
after the last activity recorded for it. -/
structure ConcurrentServer (ι : Type*) where
  server : Server
  clock : ℤ
  sent : List Datagram
  workers : ι → Option WorkerLoc
  manager : ManagerLoc
  pinged : ℕ → Option ℤ

/-- What happens in a step: time passes, the queue manager starts a worker for a
request, a worker does its next step, or the connection manager does. -/
inductive ThreadLabel (ι : Type*)
  | tick (now : ℤ)
  | receive (worker : ι) (request : Request)
  | worker (worker : ι)
  | manager

namespace WorkerLoc

/-- The name a removal compares with: that of the node a `disconnect` found, read when
it removes, or the argument of a `kick`. -/
def removalName (server : Server) : WorkerLoc → Option Name
  | .disconnectRemove node =>
    (server.clients.heap.cell node).map fun cell => cell.value.clientName
  | .kickRemove request => some (request.command.args 0)
  | _ => none

/-- The registry after a worker's step. -/
def effect (server : Server) (now : ℤ) (loc : WorkerLoc) : Registry :=
  match loc with
  | .connectInsert request => server.registry ++
      [(server.clients.heap.fresh, ⟨request.fromAddr, request.command.args 0, now, 0⟩)]
  | .renameWrite request => server.registry.writeAt request.fromAddr
      fun client => { client with clientName := request.command.args 0 }
  | loc =>
    match loc.removalName server with
    | none => server.registry
    | some name => server.registry.remove name

/-- Where a worker goes from where, with what it finds in the registry; a worker that
ends goes nowhere. -/
inductive Next (registry : Registry) : WorkerLoc → WorkerLoc → Prop
  | connected (request : Request) : Next registry (.connectInsert request) (.connectReply request)
  | recipientFound {request : Request} {node : ℕ × Client} :
      registry.named (request.command.args 0) = some node →
      Next registry (.saytoLookup request) (.saytoDeliver request.command (some node.1)
        ((registry.atAddress request.fromAddr).map Prod.fst))
  | recipientMissing {request : Request} : registry.named (request.command.args 0) = none →
      Next registry (.saytoLookup request) (.saytoAnswer (saytoMissingResponse request.command)
        ((registry.atAddress request.fromAddr).map Prod.fst))
  | delivered (command : Command) (client fromWho : Ptr) :
      Next registry (.saytoDeliver command client fromWho)
        (.saytoAnswer (saytoSenderResponse command) fromWho)
  | headRead (request : Request) :
      Next registry (.sayReadHead request) (.sayFindSender request (registry.head?.map Prod.fst))
  | senderSought (request : Request) (node : Ptr) :
      Next registry (.sayFindSender request node) (.sayFormat request.command node
        ((registry.atAddress request.fromAddr).map Prod.fst))
  | formatted (command : Command) (node fromWho : Ptr) (sender : Name) :
      Next registry (.sayFormat command node fromWho) (.sayRecord (fullMessage sender command) node)
  | recorded (message : List UInt8) (node : Ptr) :
      Next registry (.sayRecord message node) (.sayBroadcast message node)
  | requesterFound {request : Request} {node : ℕ × Client} :
      registry.atAddress request.fromAddr = some node →
      Next registry (.disconnectLookup request) (.disconnectRemove node.1)
  | disconnected (node : ℕ) (addr : SockAddrIn) :
      Next registry (.disconnectRemove node) (.reply (disconnresponse addr))
  | renamed (request : Request) :
      Next registry (.renameWrite request) (.reply (answer request (ascii "rename$ ")))
  | approved {request : Request} : registry.administers request.fromAddr = true →
      Next registry (.kickCheck request) (.kickRemove request)
  | denied {request : Request} : registry.administers request.fromAddr = false →
      Next registry (.kickCheck request) (.reply (permissionDenied request.fromAddr))
  | kicked (request : Request) (addr : SockAddrIn) :
      Next registry (.kickRemove request) (.kickConfirm (request.command.args 0) addr)
  | confirmed (name : Name) (addr : SockAddrIn) :
      Next registry (.kickConfirm name addr) (.kickBroadcast name)

end WorkerLoc

namespace ManagerLoc

/-- The name the connection manager removes. -/
def removalName : ManagerLoc → Option Name
  | .removing _ kickName _ => some kickName
  | _ => none

/-- The registry after a step of the connection manager. -/
def effect (server : Server) : ManagerLoc → Registry
  | .recording node currentTime =>
    writeNode node (fun client => { client with pingSent := currentTime }) server.registry
  | .removing _ kickName _ => server.registry.remove kickName
  | _ => server.registry

/-- Where the connection manager goes from where, with what it finds in the registry and
on the clock. -/
inductive Next (registry : Registry) (now : ℤ) : ManagerLoc → ManagerLoc → Prop
  | woken : Next registry now .asleep (.timed now)
  | nobody {currentTime : ℤ} : (registry.find? fun node => node.2.overdue currentTime) = none →
      Next registry now (.timed currentTime) .asleep
  | toPing {currentTime : ℤ} {node : ℕ × Client} :
      (registry.find? fun node => node.2.overdue currentTime) = some node →
      node.2.pingSent = 0 →
      Next registry now (.timed currentTime) (.pinging node.1 currentTime)
  | toKick {currentTime : ℤ} {node : ℕ × Client} :
      (registry.find? fun node => node.2.overdue currentTime) = some node →
      node.2.pingSent ≠ 0 →
      Next registry now (.timed currentTime) (.notifying node.1 node.2.clientName now)
  | pinged (node : ℕ) (currentTime : ℤ) :
      Next registry now (.pinging node currentTime) (.recording node currentTime)
  | recorded (node : ℕ) (currentTime : ℤ) :
      Next registry now (.recording node currentTime) (.reporting node)
  | reported (node : ℕ) : Next registry now (.reporting node) .asleep
  | notified (node : ℕ) (kickName : Name) (scanned : ℤ) :
      Next registry now (.notifying node kickName scanned) (.removing node kickName scanned)
  | removed (node : ℕ) (kickName : Name) (scanned : ℤ) :
      Next registry now (.removing node kickName scanned) .asleep

end ManagerLoc

section Effects

variable {server server' : Server} (formed : server.clients.WellFormed) {now : ℤ}
  {sent : List Datagram}
include formed

/-- The critical section of a renaming that does not fault. -/
theorem renameWrite_spec {request : Request} {clients : ClientList}
    (done : renameWrite server.clients request = .ok clients) :
    clients.WellFormed ∧ clients.heap.fresh = server.clients.heap.fresh ∧
      clients.nodes = server.registry.writeAt request.fromAddr
        fun client => { client with clientName := request.command.args 0 } := by
  rw [renameWrite, formed.findSender_eq] at done
  cases sender : server.registry.atAddress request.fromAddr with
  | none =>
      rw [sender] at done
      cases done
  | some node =>
      rw [sender] at done
      obtain ⟨clients', wrote, formed', nodes, fresh⟩ := formed.write_spec
        (List.mem_map_of_mem (List.mem_of_find?_eq_some sender))
        fun client => { client with clientName := request.command.args 0 }
      obtain rfl : clients' = clients := Except.ok.inj (wrote.symm.trans done)
      refine ⟨formed', fresh, ?_⟩
      rw [Registry.writeAt, sender]
      exact nodes

/-- A removal that is carried out. -/
theorem remove_spec {name : Name} {clients : ClientList} {addr : Option SockAddrIn}
    (done : removeClientFromList server.clients name = .ok (clients, addr)) :
    clients.WellFormed ∧ clients.heap.fresh = server.clients.heap.fresh ∧
      clients.nodes = server.registry.remove name := by
  obtain ⟨clients', taken, formed', fresh, nodes⟩ := formed.remove_eq name
  rw [taken] at done
  cases done
  exact ⟨formed', fresh, nodes⟩

/-- A worker's step keeps the list well formed, with its effect on the registry. -/
theorem WorkerLoc.step_spec {loc : WorkerLoc} {next : Option WorkerLoc}
    (moved : loc.step server now = .ok (server', sent, next)) :
    server'.clients.WellFormed ∧ server.clients.heap.fresh ≤ server'.clients.heap.fresh ∧
      server'.registry = loc.effect server now := by
  have silent : server' = server → loc.effect server now = server.registry →
      server'.clients.WellFormed ∧ server.clients.heap.fresh ≤ server'.clients.heap.fresh ∧
        server'.registry = loc.effect server now := by
    rintro rfl same
    exact ⟨formed, le_rfl, same.symm⟩
  cases loc with
  | connectInsert request =>
      obtain ⟨clients, added, formed', nodes, fresh⟩ :=
        formed.addClientToList_spec request.fromAddr (request.command.args 0) now
      simp only [step, added, ok_bind, pure_eq_ok] at moved
      cases moved
      exact ⟨formed', by simp [fresh], nodes⟩
  | connectReply | sayReadHead | kickConfirm | reply =>
      cases moved
      exact silent rfl rfl
  | sayRecord message node =>
      cases moved
      simp only [Server.record_clients, Server.registry]
      exact ⟨formed, le_rfl, rfl⟩
  | saytoLookup request =>
      obtain ⟨client, -, moved⟩ := exists_of_bind_eq_ok moved
      obtain ⟨fromWho, -, moved⟩ := exists_of_bind_eq_ok moved
      cases client <;> cases moved <;> exact silent rfl rfl
  | saytoDeliver =>
      obtain ⟨sender, -, moved⟩ := exists_of_bind_eq_ok moved
      obtain ⟨recipient, -, moved⟩ := exists_of_bind_eq_ok moved
      cases moved
      exact silent rfl rfl
  | saytoAnswer | sayFindSender | sayFormat | sayBroadcast | kickBroadcast =>
      obtain ⟨result, -, moved⟩ := exists_of_bind_eq_ok moved
      cases moved
      exact silent rfl rfl
  | disconnectLookup request =>
      obtain ⟨node, -, moved⟩ := exists_of_bind_eq_ok moved
      cases node <;> cases moved <;> exact silent rfl rfl
  | disconnectRemove node =>
      cases heads : server.clients.head with
      | none =>
          simp only [step, heads, pure_eq_ok] at moved
          cases moved
          have empty : server.registry = [] := by
            have first := formed.head_eq
            rw [heads] at first
            rw [Server.registry, ← List.head?_eq_none_iff]
            exact Option.map_eq_none_iff.mp first.symm
          apply silent rfl
          simp only [effect]
          split
          · rfl
          · rw [empty]
            rfl
      | some first =>
          simp only [step, heads] at moved
          obtain ⟨requester, loaded, moved⟩ := exists_of_bind_eq_ok moved
          obtain ⟨⟨clients, addr⟩, taken, moved⟩ := exists_of_bind_eq_ok moved
          cases moved
          obtain ⟨formed', fresh, nodes⟩ := remove_spec formed taken
          have name : removalName server (.disconnectRemove node) =
              some requester.value.clientName := by
            rw [removalName, Heap.cell_of_load loaded, Option.map_some]
          refine ⟨formed', fresh.ge, ?_⟩
          simp only [effect, name]
          exact nodes
  | renameWrite request =>
      obtain ⟨clients, written, moved⟩ := exists_of_bind_eq_ok moved
      cases moved
      obtain ⟨formed', fresh, nodes⟩ := renameWrite_spec formed written
      exact ⟨formed', fresh.ge, nodes⟩
  | kickCheck request =>
      obtain ⟨admin, -, moved⟩ := exists_of_bind_eq_ok moved
      cases admin <;> cases moved <;> exact silent rfl rfl
  | kickRemove request =>
      obtain ⟨⟨clients, addr⟩, taken, moved⟩ := exists_of_bind_eq_ok moved
      cases moved
      obtain ⟨formed', fresh, nodes⟩ := remove_spec formed taken
      exact ⟨formed', fresh.ge, nodes⟩

/-- A step of the connection manager keeps the list well formed, with its effect on the
registry. -/
theorem ManagerLoc.step_spec {loc next : ManagerLoc}
    (moved : loc.step server now = .ok (server', sent, next)) :
    server'.clients.WellFormed ∧ server.clients.heap.fresh ≤ server'.clients.heap.fresh ∧
      server'.registry = loc.effect server := by
  cases loc with
  | asleep =>
      cases moved
      exact ⟨formed, le_rfl, rfl⟩
  | timed currentTime =>
      obtain ⟨selected, -, moved⟩ := exists_of_bind_eq_ok moved
      cases selected with
      | none =>
          cases moved
          exact ⟨formed, le_rfl, rfl⟩
      | some node =>
          obtain ⟨chosen, -, moved⟩ := exists_of_bind_eq_ok moved
          split at moved <;> cases moved <;> exact ⟨formed, le_rfl, rfl⟩
  | pinging | notifying | reporting =>
      obtain ⟨node, -, moved⟩ := exists_of_bind_eq_ok moved
      cases moved
      exact ⟨formed, le_rfl, rfl⟩
  | recording node currentTime =>
      obtain ⟨clients, written, moved⟩ := exists_of_bind_eq_ok moved
      cases moved
      obtain ⟨formed', nodes, fresh⟩ := formed.write_spec_of_ok written
      exact ⟨formed', fresh.ge, nodes⟩
  | removing node kickName scanned =>
      obtain ⟨⟨clients, addr⟩, taken, moved⟩ := exists_of_bind_eq_ok moved
      cases moved
      obtain ⟨formed', fresh, nodes⟩ := remove_spec formed taken
      exact ⟨formed', fresh.ge, nodes⟩

/-- What a worker finds is what the registry holds. -/
theorem WorkerLoc.step_next {loc next : WorkerLoc}
    (moved : loc.step server now = .ok (server', sent, some next)) :
    loc.Next server.registry next := by
  cases loc with
  | connectReply | reply => cases moved
  | sayBroadcast | saytoAnswer | kickBroadcast =>
      obtain ⟨result, -, moved⟩ := exists_of_bind_eq_ok moved
      cases moved
  | sayReadHead request =>
      cases moved
      rw [formed.head_eq]
      exact .headRead request
  | sayRecord message node =>
      cases moved
      exact .recorded message node
  | kickConfirm name addr =>
      cases moved
      exact .confirmed name addr
  | connectInsert request =>
      obtain ⟨clients, -, moved⟩ := exists_of_bind_eq_ok moved
      cases moved
      exact .connected request
  | renameWrite request =>
      obtain ⟨clients, -, moved⟩ := exists_of_bind_eq_ok moved
      cases moved
      exact .renamed request
  | saytoLookup request =>
      simp only [step, formed.findRecipient_eq, formed.findSender_eq, ok_bind] at moved
      cases recipient : server.registry.named (request.command.args 0) with
      | none =>
          rw [recipient] at moved
          cases moved
          exact .recipientMissing recipient
      | some node =>
          rw [recipient] at moved
          cases moved
          exact .recipientFound recipient
  | saytoDeliver command client fromWho =>
      obtain ⟨sender, -, moved⟩ := exists_of_bind_eq_ok moved
      obtain ⟨recipient, -, moved⟩ := exists_of_bind_eq_ok moved
      cases moved
      exact .delivered command client fromWho
  | sayFindSender request node =>
      simp only [step, formed.findSender_eq, ok_bind, pure_eq_ok] at moved
      cases moved
      exact .senderSought request node
  | sayFormat command node fromWho =>
      obtain ⟨sender, -, moved⟩ := exists_of_bind_eq_ok moved
      cases moved
      exact .formatted command node fromWho _
  | disconnectLookup request =>
      simp only [step, formed.findSender_eq, ok_bind] at moved
      cases requester : server.registry.atAddress request.fromAddr with
      | none =>
          rw [requester] at moved
          cases moved
      | some node =>
          rw [requester] at moved
          cases moved
          exact .requesterFound requester
  | disconnectRemove node =>
      simp only [step] at moved
      split at moved
      · cases moved
      · obtain ⟨requester, -, moved⟩ := exists_of_bind_eq_ok moved
        obtain ⟨⟨clients, addr⟩, -, moved⟩ := exists_of_bind_eq_ok moved
        cases addr <;> cases moved
        exact .disconnected node _
  | kickCheck request =>
      simp only [step, formed.isAdmin_eq, ok_bind] at moved
      cases admin : server.registry.administers request.fromAddr with
      | false =>
          rw [admin] at moved
          cases moved
          exact .denied admin
      | true =>
          rw [admin] at moved
          cases moved
          exact .approved admin
  | kickRemove request =>
      obtain ⟨⟨clients, addr⟩, -, moved⟩ := exists_of_bind_eq_ok moved
      cases addr <;> cases moved
      exact .kicked request _

/-- What the connection manager finds is what the registry holds. -/
theorem ManagerLoc.step_next {loc next : ManagerLoc}
    (moved : loc.step server now = .ok (server', sent, next)) :
    loc.Next server.registry now next := by
  cases loc with
  | asleep =>
      cases moved
      exact .woken
  | timed currentTime =>
      simp only [step, formed.scan_eq, ok_bind] at moved
      cases overdue : server.registry.find? fun node => node.2.overdue currentTime with
      | none =>
          rw [overdue] at moved
          cases moved
          exact .nobody overdue
      | some node =>
          obtain ⟨link, loaded⟩ := formed.load_eq (List.mem_of_find?_eq_some overdue)
          rw [overdue] at moved
          simp only [Option.map_some, loaded, ok_bind] at moved
          by_cases unpinged : node.2.pingSent = 0
          · rw [if_pos unpinged] at moved
            cases moved
            exact .toPing overdue unpinged
          · rw [if_neg unpinged] at moved
            cases moved
            exact .toKick overdue unpinged
  | pinging node currentTime =>
      obtain ⟨cell, -, moved⟩ := exists_of_bind_eq_ok moved
      cases moved
      exact .pinged node currentTime
  | notifying node kickName scanned =>
      obtain ⟨cell, -, moved⟩ := exists_of_bind_eq_ok moved
      cases moved
      exact .notified node kickName scanned
  | recording node currentTime =>
      obtain ⟨clients, -, moved⟩ := exists_of_bind_eq_ok moved
      cases moved
      exact .recorded node currentTime
  | reporting node =>
      obtain ⟨cell, -, moved⟩ := exists_of_bind_eq_ok moved
      cases moved
      exact .reported node
  | removing node kickName scanned =>
      obtain ⟨removal, -, moved⟩ := exists_of_bind_eq_ok moved
      cases moved
      exact .removed node kickName scanned

end Effects

/-! ## The system -/

variable {ι : Type*}

namespace ConcurrentServer

/-- The server as `main` starts it, at some time. -/
def start (clock : ℤ) : ConcurrentServer ι :=
  ⟨Server.start, clock, [], fun _ => none, .asleep, fun _ => none⟩

variable (state : ConcurrentServer ι)

def registry : Registry := state.server.registry

/-- The name that a step removes from the list, if it is a removal. -/
def removalName : ThreadLabel ι → Option Name
  | .worker worker => (state.workers worker).bind (·.removalName state.server)
  | .manager => state.manager.removalName
  | .tick _ | .receive _ _ => none

/-- The node that a step removes from the list, if any. -/
def removed (label : ThreadLabel ι) : Option (ℕ × Client) :=
  (state.removalName label).bind state.registry.named

/-- The registry after a step. -/
def effect : ThreadLabel ι → Registry
  | .tick _ => state.registry
  | .receive _ request => state.registry.mark request state.clock
  | .worker worker =>
    match state.workers worker with
    | none => state.registry
    | some loc => loc.effect state.server state.clock
  | .manager => state.manager.effect state.server

/-- Activity recorded for the first node of an address ends its outstanding ping. -/
def forget (request : Request) : ℕ → Option ℤ :=
  match state.registry.atAddress request.fromAddr with
  | none => state.pinged
  | some node =>
    if request.command.kind ≠ .conn then Function.update state.pinged node.1 none
    else state.pinged

/-- Sending a ping is remembered. -/
def remember : ℕ → Option ℤ :=
  match state.manager with
  | .pinging node _ => Function.update state.pinged node (some state.clock)
  | _ => state.pinged

end ConcurrentServer

namespace ConcurrentServer

variable {state : ConcurrentServer ι} {label : ThreadLabel ι}

/-- A step that is no removal keeps all nodes and their addresses, and adds at most one
node behind them. -/
theorem places_prefix (keeps : state.removalName label = none) :
    state.registry.places <+: (state.effect label).places := by
  cases label with
  | tick => exact List.prefix_rfl
  | receive worker request => simp only [effect, Registry.places_mark, List.prefix_rfl]
  | worker worker =>
      cases running : state.workers worker with
      | none => simp only [effect, running, List.prefix_rfl]
      | some loc =>
          simp only [removalName, running, Option.bind_some] at keeps
          simp only [effect, running]
          cases loc with
          | connectInsert request =>
              simp only [WorkerLoc.effect, Registry.places, List.map_append]
              exact List.prefix_append ..
          | renameWrite request =>
              simp only [WorkerLoc.effect]
              rw [Registry.places_writeAt]
              · exact List.prefix_rfl
              · intro client
                rfl
          | _ =>
              simp only [WorkerLoc.effect, keeps]
              exact List.prefix_rfl
  | manager =>
      simp only [effect]
      cases here : state.manager with
      | recording node currentTime =>
          simp only [ManagerLoc.effect]
          rw [Registry.places_writeNode]
          · exact List.prefix_rfl
          · intro client
            rfl
      | removing node kickName scanned =>
          rw [removalName, here] at keeps
          cases keeps
      | _ => exact List.prefix_rfl

/-- A removal takes out the first node of its name. -/
theorem effect_removal {name : Name} (removes : state.removalName label = some name) :
    state.effect label = state.registry.remove name := by
  cases label with
  | tick | receive => cases removes
  | worker worker =>
      cases running : state.workers worker with
      | none =>
          rw [removalName, running] at removes
          cases removes
      | some loc =>
          simp only [removalName, running, Option.bind_some] at removes
          simp only [effect, running]
          cases loc with
          | disconnectRemove | kickRemove => simp only [WorkerLoc.effect, removes]; rfl
          | _ => cases removes
  | manager =>
      simp only [effect]
      cases here : state.manager with
      | removing node kickName scanned =>
          rw [removalName, here] at removes
          cases removes
          rfl
      | _ =>
          rw [removalName, here] at removes
          cases removes

variable (state label) in
/-- A step takes out no node, keeps all places and adds at most one behind them, or it
takes out the first node of a name. -/
theorem effect_cases :
    (state.removed label = none ∧ state.registry.places <+: (state.effect label).places) ∨
      ∃ name node, state.registry.named name = some node ∧ state.removed label = some node ∧
        state.effect label = state.registry.remove name := by
  cases removes : state.removalName label with
  | none => exact .inl ⟨by rw [removed, removes]; rfl, places_prefix removes⟩
  | some name =>
      have removed : state.removed label = state.registry.named name := by
        rw [removed, removes, Option.bind_some]
      have effect := effect_removal removes
      cases found : state.registry.named name with
      | none =>
          rw [effect, Registry.remove_of_named_none found]
          exact .inl ⟨removed.trans found, List.prefix_rfl⟩
      | some node => exact .inr ⟨name, node, found, removed.trans found, effect⟩

end ConcurrentServer

variable [DecidableEq ι]

/-- One step of one thread, or of the clock; a thread that would follow a freed node takes none.
The queue manager walks the list without the lock to record the activity of a client, and here
the walk is one step. -/
inductive ConcurrentStep : ConcurrentServer ι → ThreadLabel ι → ConcurrentServer ι → Prop
  | tick {state : ConcurrentServer ι} (now : ℤ) : state.clock ≤ now →
      ConcurrentStep state (.tick now) { state with clock := now }
  | receive {state : ConcurrentServer ι} (worker : ι) (request : Request) {server : Server} :
      state.workers worker = none →
      markActivity state.server request state.clock = .ok server →
      ConcurrentStep state (.receive worker request) { state with
        server := server
        workers := Function.update state.workers worker (WorkerLoc.start request)
        pinged := state.forget request }
  | worker {state : ConcurrentServer ι} (worker : ι) {loc : WorkerLoc} {server : Server}
      {sent : List Datagram} {next : Option WorkerLoc} :
      state.workers worker = some loc →
      loc.step state.server state.clock = .ok (server, sent, next) →
      ConcurrentStep state (.worker worker) { state with
        server := server
        sent := state.sent ++ sent
        workers := Function.update state.workers worker next }
  | manager {state : ConcurrentServer ι} {server : Server} {sent : List Datagram}
      {next : ManagerLoc} :
      state.manager.step state.server state.clock = .ok (server, sent, next) →
      ConcurrentStep state .manager { state with
        server := server
        sent := state.sent ++ sent
        manager := next
        pinged := state.remember }

variable (ι) in
/-- All runs of the server with workers `ι`. -/
def concurrentSystem : TransitionSystem (ConcurrentServer ι) (ThreadLabel ι) where
  initial state := ∃ clock, state = .start clock
  step := ConcurrentStep

/-- A step keeps the list well formed, with its effect on the registry. -/
theorem ConcurrentStep.spec {before after : ConcurrentServer ι} {label : ThreadLabel ι}
    (moved : ConcurrentStep before label after) (formed : before.server.clients.WellFormed) :
    after.server.clients.WellFormed ∧
      before.server.clients.heap.fresh ≤ after.server.clients.heap.fresh ∧
      after.registry = before.effect label := by
  cases moved with
  | tick => exact ⟨formed, le_rfl, rfl⟩
  | receive worker request _ marked =>
      obtain ⟨clients, done, formed', fresh, nodes⟩ := markActivity_spec formed request before.clock
      obtain rfl := Except.ok.inj (done.symm.trans marked)
      exact ⟨formed', fresh.ge, nodes⟩
  | worker worker running stepped =>
      obtain ⟨formed', fresh, effect⟩ := WorkerLoc.step_spec formed stepped
      refine ⟨formed', fresh, effect.trans ?_⟩
      simp only [ConcurrentServer.effect, running]
  | manager stepped => exact ManagerLoc.step_spec formed stepped

/-- Where a worker is after a step: where it was, at the start of a command, or where it
went. -/
theorem ConcurrentStep.worker_cases {before after : ConcurrentServer ι} {label : ThreadLabel ι}
    (moved : ConcurrentStep before label after) (formed : before.server.clients.WellFormed)
    {worker : ι} {loc : WorkerLoc} (here : after.workers worker = some loc) :
    (label ≠ .worker worker ∧ before.workers worker = some loc) ∨
      (∃ request, label = .receive worker request ∧ WorkerLoc.start request = some loc) ∨
      ∃ earlier, label = .worker worker ∧ before.workers worker = some earlier ∧
        earlier.Next before.registry loc := by
  cases moved with
  | tick | manager => exact .inl ⟨nofun, here⟩
  | receive started request =>
      by_cases same : worker = started
      · subst same
        simp only [Function.update_self] at here
        exact .inr (.inl ⟨request, rfl, here⟩)
      · simp only [Function.update_of_ne same] at here
        exact .inl ⟨nofun, here⟩
  | worker acting running stepped =>
      by_cases same : worker = acting
      · subst same
        simp only [Function.update_self] at here
        subst here
        exact .inr (.inr ⟨_, rfl, running, WorkerLoc.step_next formed stepped⟩)
      · simp only [Function.update_of_ne same] at here
        refine .inl ⟨?_, here⟩
        intro acts
        cases acts
        exact same rfl

/-- Where the connection manager is after a step. -/
theorem ConcurrentStep.manager_cases {before after : ConcurrentServer ι} {label : ThreadLabel ι}
    (moved : ConcurrentStep before label after) (formed : before.server.clients.WellFormed) :
    (label ≠ .manager ∧ after.manager = before.manager) ∨
      (label = .manager ∧ before.manager.Next before.registry before.clock after.manager) := by
  cases moved with
  | tick | receive | worker => exact .inl ⟨nofun, rfl⟩
  | manager stepped => exact .inr ⟨rfl, ManagerLoc.step_next formed stepped⟩

/-- The list is well formed in every reachable state. -/
theorem concurrent_wellFormed {state : ConcurrentServer ι}
    (reachable : (concurrentSystem ι).Reachable state) : state.server.clients.WellFormed := by
  refine reachable.invariant (I := fun state => state.server.clients.WellFormed) ?_ ?_
  · rintro state ⟨clock, rfl⟩
    exact ClientList.empty_wellFormed.1
  · intro before label after formed moved
    exact (moved.spec formed).1

end MultithreadedChat
