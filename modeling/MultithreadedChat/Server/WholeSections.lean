import MultithreadedChat.Server.Concurrent
import MultithreadedChat.Server.Sequential
import MultithreadedChat.Server.UnstampedList

/-! # Sections of the list run whole

The workers and the connection manager run each section of the client list as one step: a
routine of the list, and what they go on with (`MultithreadedChat.WorkerLoc.step_eq_perform`,
`MultithreadedChat.ManagerLoc.step_eq_perform`). So the list of the server with all its threads,
without the activity fields, is the one that whole sections leave, one after the other
(`MultithreadedChat.concurrent_list_sections`).
-/

namespace MultithreadedChat

open CString LinkedList

/-! ## Sections as steps -/

/-- The section of the list that a worker's step is. -/
def WorkerLoc.task (now : ℤ) : WorkerLoc → Option ListTask
  | .connectInsert request => some (.insert request now)
  | .saytoLookup request => some (.findBoth (request.command.args 0) request.fromAddr)
  | .sayFindSender request _ => some (.findSender request.fromAddr)
  | .sayBroadcast message node => some (.announceFrom node (sayResponse message))
  | .disconnectLookup request => some (.findSender request.fromAddr)
  | .disconnectRemove node => some (.removeNode node)
  | .renameWrite request => some (.rename request)
  | .kickCheck request => some (.checkAdmin request.fromAddr)
  | .kickRemove request => some (.remove (request.command.args 0))
  | .kickBroadcast name => some (.announce (kickedResponse name))
  | .connectReply _ | .saytoDeliver .. | .saytoAnswer .. | .sayReadHead _ | .sayFormat ..
  | .sayRecord .. | .kickConfirm .. | .reply _ => none

/-- The section of the list that a step of the connection manager is. -/
def ManagerLoc.task : ManagerLoc → Option ListTask
  | .timed currentTime => some (.scan currentTime)
  | .removing _ kickName _ => some (.remove kickName)
  | .asleep | .pinging .. | .recording .. | .reporting _ | .notifying .. => none

/-- What a worker sends, and where it goes on, with the result of its section. -/
def WorkerLoc.resume : WorkerLoc → ListResult → List Datagram × Option WorkerLoc
  | .connectInsert request, _ => ([], some (.connectReply request))
  | .saytoLookup request, .both (some client) fromWho =>
    ([], some (.saytoDeliver request.command (some client) fromWho))
  | .saytoLookup request, .both none fromWho =>
    ([], some (.saytoAnswer (saytoMissingResponse request.command) fromWho))
  | .sayFindSender request node, .sender fromWho =>
    ([], some (.sayFormat request.command node fromWho))
  | .sayBroadcast .., .announced sent | .kickBroadcast _, .announced sent => (sent, none)
  | .disconnectLookup _, .sender (some node) => ([], some (.disconnectRemove node))
  | .disconnectRemove _, .removed clientAddress =>
    ([], clientAddress.map fun addr => .reply (disconnresponse addr))
  | .renameWrite request, _ => ([], some (.reply (answer request (ascii "rename$ "))))
  | .kickCheck request, .admin true => ([], some (.kickRemove request))
  | .kickCheck request, _ => ([], some (.reply (permissionDenied request.fromAddr)))
  | .kickRemove request, .removed clientAddress =>
    ([], clientAddress.map (.kickConfirm (request.command.args 0)))
  | _, _ => ([], none)

/-- Where the connection manager goes on with the result of its section. -/
def ManagerLoc.resume (now : ℤ) : ManagerLoc → ListResult → List Datagram × ManagerLoc
  | .timed currentTime, .selected (some (node, chosen)) =>
    if chosen.pingSent = 0 then ([], .pinging node currentTime)
    else ([], .notifying node chosen.clientName now)
  | _, _ => ([], .asleep)

/-- A worker's step with a section is that section, run whole, and what follows from its
result. -/
theorem WorkerLoc.step_eq_perform {loc : WorkerLoc} {now : ℤ} {task : ListTask}
    (runs : loc.task now = some task) :
    ∃ next : ListResult → List Datagram × Option WorkerLoc, ∀ server : Server,
      loc.step server now = task.perform server.clients >>= fun left =>
        .ok ({ server with clients := left.1 }, next left.2) := by
  refine ⟨loc.resume, fun server => ?_⟩
  cases loc with
  | connectReply | saytoDeliver | saytoAnswer | sayReadHead | sayFormat | sayRecord
  | kickConfirm | reply => cases runs
  | connectInsert request =>
      cases runs
      simp only [step, ListTask.perform]
      cases addClientToList server.clients request.fromAddr (request.command.args 0) now <;> rfl
  | saytoLookup request =>
      cases runs
      simp only [step, ListTask.perform]
      cases findClient server.clients (request.command.args 0) with
      | error fault => rfl
      | ok client =>
          cases findClientByAddress server.clients request.fromAddr with
          | error fault => rfl
          | ok fromWho => cases client <;> rfl
  | sayFindSender request node =>
      cases runs
      simp only [step, ListTask.perform]
      cases findClientByAddress server.clients request.fromAddr <;> rfl
  | sayBroadcast message node =>
      cases runs
      simp only [step, ListTask.perform]
      cases broadcast server.clients node (sayResponse message) <;> rfl
  | disconnectLookup request =>
      cases runs
      simp only [step, ListTask.perform]
      cases findClientByAddress server.clients request.fromAddr with
      | error fault => rfl
      | ok node => cases node <;> rfl
  | disconnectRemove node =>
      cases runs
      simp only [step, ListTask.perform]
      cases server.clients.head with
      | none => rfl
      | some first =>
          cases server.clients.heap.load (some node) with
          | error fault => rfl
          | ok requester =>
              simp only [ok_bind]
              cases removeClientFromList server.clients requester.value.clientName <;> rfl
  | renameWrite request =>
      cases runs
      simp only [step, ListTask.perform]
      cases MultithreadedChat.renameWrite server.clients request <;> rfl
  | kickCheck request =>
      cases runs
      simp only [step, ListTask.perform]
      cases isAdmin server.clients request.fromAddr with
      | error fault => rfl
      | ok admin => cases admin <;> rfl
  | kickRemove request =>
      cases runs
      simp only [step, ListTask.perform]
      cases removeClientFromList server.clients (request.command.args 0) <;> rfl
  | kickBroadcast name =>
      cases runs
      simp only [step, ListTask.perform]
      cases broadcast server.clients server.clients.head (kickedResponse name) <;> rfl

/-- A worker's other steps leave the list. -/
theorem WorkerLoc.step_clients {loc : WorkerLoc} {now : ℤ} (runs : loc.task now = none)
    {server server' : Server} {sent : List Datagram} {next : Option WorkerLoc}
    (moved : loc.step server now = .ok (server', sent, next)) :
    server'.clients = server.clients := by
  cases loc with
  | connectReply | sayReadHead | kickConfirm | reply =>
      cases moved
      rfl
  | sayRecord message node =>
      cases moved
      exact server.record_clients message
  | saytoDeliver =>
      obtain ⟨sender, -, moved⟩ := exists_of_bind_eq_ok moved
      obtain ⟨recipient, -, moved⟩ := exists_of_bind_eq_ok moved
      cases moved
      rfl
  | saytoAnswer | sayFormat =>
      obtain ⟨sender, -, moved⟩ := exists_of_bind_eq_ok moved
      cases moved
      rfl
  | connectInsert | saytoLookup | sayFindSender | sayBroadcast | disconnectLookup
  | disconnectRemove | renameWrite | kickCheck | kickRemove | kickBroadcast => cases runs

/-- A step of the connection manager with a section is that section, run whole, and what
follows from its result. -/
theorem ManagerLoc.step_eq_perform {loc : ManagerLoc} {task : ListTask}
    (runs : loc.task = some task) (now : ℤ) :
    ∃ next : ListResult → List Datagram × ManagerLoc, ∀ server : Server,
      loc.step server now = task.perform server.clients >>= fun left =>
        .ok ({ server with clients := left.1 }, next left.2) := by
  refine ⟨loc.resume now, fun server => ?_⟩
  cases loc with
  | asleep | pinging | recording | reporting | notifying => cases runs
  | timed currentTime =>
      cases runs
      simp only [step, ListTask.perform]
      cases server.clients.heap.seek (fun client => client.overdue currentTime)
          server.clients.heap.fresh server.clients.head with
      | error fault => rfl
      | ok selected =>
          cases selected with
          | none => rfl
          | some node =>
              simp only [ok_bind]
              cases server.clients.heap.load (some node) with
              | error fault => rfl
              | ok chosen =>
                  simp only [ok_bind, pure_eq_ok, resume]
                  split <;> rfl
  | removing node kickName scanned =>
      cases runs
      simp only [step, ListTask.perform]
      cases removeClientFromList server.clients kickName <;> rfl

/-- Its other steps change activity fields at most. -/
theorem ManagerLoc.step_unstamped {loc : ManagerLoc} (runs : loc.task = none) {now : ℤ}
    {server server' : Server} {sent : List Datagram} {next : ManagerLoc}
    (moved : loc.step server now = .ok (server', sent, next)) :
    server'.clients.unstamped = server.clients.unstamped := by
  cases loc with
  | asleep =>
      cases moved
      rfl
  | pinging | notifying | reporting =>
      obtain ⟨node, -, moved⟩ := exists_of_bind_eq_ok moved
      cases moved
      rfl
  | recording node currentTime =>
      obtain ⟨clients, wrote, moved⟩ := exists_of_bind_eq_ok moved
      cases moved
      have stamps : ∀ client : Client,
          ({ client with pingSent := currentTime } : Client).unstamped = client.unstamped :=
        fun _ => rfl
      exact ClientList.write_unstamped stamps wrote
  | timed | removing => cases runs

/-- The searches and the announcement from the head, the insertion and the removal of a given
name. -/
def ListTask.rooted : ListTask → Bool
  | findSender .. | findBoth .. | checkAdmin .. | announce .. | insert .. | remove .. => true
  | announceFrom .. | scan .. | removeNode .. | rename .. => false

/-- They never fault. -/
theorem ListTask.perform_rooted {task : ListTask} (rooted : task.rooted = true)
    {list : ClientList} (formed : list.WellFormed) : ∃ left, task.perform list = .ok left := by
  cases task with
  | findSender address =>
      simp only [perform, formed.findClientByAddress_eq, ok_bind]
      exact ⟨_, rfl⟩
  | findBoth who address =>
      simp only [perform, formed.findClientByAddress_eq, formed.findClient_eq, ok_bind]
      exact ⟨_, rfl⟩
  | checkAdmin address =>
      have at_server : (⟨list, fun _ => none, 0⟩ : Server).clients.WellFormed := formed
      have answered : isAdmin list address = _ := at_server.isAdmin_eq address
      simp only [perform, answered, ok_bind]
      exact ⟨_, rfl⟩
  | announce response =>
      simp only [perform, formed.broadcast_eq, ok_bind]
      exact ⟨_, rfl⟩
  | insert request now =>
      obtain ⟨list', added, -⟩ :=
        formed.addClientToList_spec request.fromAddr (request.command.args 0) now
      simp only [perform, added]
      exact ⟨_, rfl⟩
  | remove name =>
      obtain ⟨list', removed, -⟩ := formed.removeClientFromList_spec name
      simp only [perform, removed]
      exact ⟨_, rfl⟩
  | announceFrom | scan | removeNode | rename => cases rooted

/-! ## Runs of whole sections -/

variable {ι : Type*}

variable (ι) in
/-- The runs of whole sections on the list without its activity fields, each with the thread
that runs it and its result. -/
def wholeSections : TransitionSystem ClientList (ι × ListTask × ListResult) where
  initial list := list = .empty
  step list label list' := ∃ left, label.2.1.perform list = .ok (left, label.2.2) ∧
    left.unstamped = list'

variable [DecidableEq ι]

/-- What a section on a list is to the sections run whole. -/
def ListTask.outcome (list : ClientList) (thread : Option ι) (task : ListTask) :
    Option (Option ι × ListTask × ListResult) :=
  match task.perform list with
  | .ok left => if task.blind then some (thread, task, left.2) else none
  | .error _ => none

omit [DecidableEq ι] in
/-- A section that is performed is a blind one run whole, or leaves the list. -/
theorem ListTask.outcome_cases {list : ClientList} {task : ListTask}
    {left : ClientList × ListResult} (performed : task.perform list = .ok left)
    (thread : Option ι) :
    (task.outcome list thread = some (thread, task, left.2) ∧
      (wholeSections (Option ι)).step list.unstamped (thread, task, left.2) left.1.unstamped) ∨
      (task.outcome list thread = none ∧ left.1 = list) := by
  cases blind : task.blind with
  | true =>
      refine .inl ⟨?_, ListTask.perform_unstamped blind performed⟩
      simp only [outcome, performed, blind, ↓reduceIte]
  | false =>
      refine .inr ⟨by simp [outcome, performed, blind], ?_⟩
      rw [← run_eq] at performed
      exact (task.code_reads (reads_of_sighted blind)).run_mem performed

/-- The blind section that a step of the server with all its threads is, with its result; the
connection manager is the thread `none`. -/
def ConcurrentServer.listSection (state : ConcurrentServer ι) :
    ThreadLabel ι → Option (Option ι × ListTask × ListResult)
  | .tick _ | .receive _ _ => none
  | .worker worker => ((state.workers worker).bind (·.task state.clock)).bind
      fun task => task.outcome state.server.clients (some worker)
  | .manager => state.manager.task.bind fun task => task.outcome state.server.clients none

/-- Marking a client as active writes activity fields only. -/
theorem markActivity_unstamped {server server' : Server} {request : Request} {now : ℤ}
    (marked : markActivity server request now = .ok server') :
    server'.clients.unstamped = server.clients.unstamped := by
  simp only [markActivity] at marked
  split at marked
  · obtain ⟨clients, updated, marked⟩ := exists_of_bind_eq_ok marked
    cases marked
    obtain ⟨node, -, updated⟩ := exists_of_bind_eq_ok updated
    cases node with
    | none =>
        cases updated
        rfl
    | some node =>
        have stamps : ∀ client, (Client.touched now client).unstamped = client.unstamped :=
          fun _ => rfl
        exact ClientList.write_unstamped stamps updated
  · cases marked
    rfl

/-- A step of the server is a whole section, or it changes activity fields at most. -/
theorem ConcurrentStep.section_cases {before after : ConcurrentServer ι} {label : ThreadLabel ι}
    (moved : ConcurrentStep before label after) :
    (∃ done, before.listSection label = some done ∧ (wholeSections (Option ι)).step
      before.server.clients.unstamped done after.server.clients.unstamped) ∨
      (before.listSection label = none ∧
        after.server.clients.unstamped = before.server.clients.unstamped) := by
  cases moved with
  | tick => exact .inr ⟨rfl, rfl⟩
  | receive worker request _ marked => exact .inr ⟨rfl, markActivity_unstamped marked⟩
  | worker worker running stepped =>
      simp only [ConcurrentServer.listSection, running, Option.bind_some]
      cases runs : WorkerLoc.task before.clock _ with
      | none => exact .inr ⟨rfl, congrArg _ (WorkerLoc.step_clients runs stepped)⟩
      | some task =>
          obtain ⟨follow, step⟩ := WorkerLoc.step_eq_perform runs
          rw [step] at stepped
          obtain ⟨left, performed, same⟩ := exists_of_bind_eq_ok stepped
          have clients := congrArg (·.1.clients) (Except.ok.inj same)
          obtain ⟨seen, whole⟩ | ⟨unseen, left⟩ := task.outcome_cases performed (some worker)
          · exact .inl ⟨_, seen, clients ▸ whole⟩
          · exact .inr ⟨unseen, congrArg _ (clients.symm.trans left)⟩
  | manager stepped =>
      simp only [ConcurrentServer.listSection]
      cases runs : before.manager.task with
      | none => exact .inr ⟨rfl, ManagerLoc.step_unstamped runs stepped⟩
      | some task =>
          obtain ⟨follow, step⟩ := ManagerLoc.step_eq_perform runs before.clock
          rw [step] at stepped
          obtain ⟨left, performed, same⟩ := exists_of_bind_eq_ok stepped
          have clients := congrArg (·.1.clients) (Except.ok.inj same)
          obtain ⟨seen, whole⟩ | ⟨unseen, left⟩ := task.outcome_cases performed none
          · exact .inl ⟨_, seen, clients ▸ whole⟩
          · exact .inr ⟨unseen, congrArg _ (clients.symm.trans left)⟩

/-- What the threads of the server do to the list, they do in whole sections; all else is
activity. -/
def concurrentSections : (concurrentSystem ι).StutteringSimulation (wholeSections (Option ι)) where
  states state list := list = state.server.clients.unstamped
  visible := ConcurrentServer.listSection
  initially := by
    rintro state ⟨clock, rfl⟩
    exact ⟨.empty, rfl, rfl⟩
  hidden := by
    rintro before label after _ rfl moved unseen
    obtain ⟨done, seen, -⟩ | ⟨-, same⟩ := moved.section_cases
    · rw [unseen] at seen
      cases seen
    · exact same.symm
  matched := by
    rintro before label after _ done rfl moved seen
    obtain ⟨done', seen', whole⟩ | ⟨unseen, -⟩ := moved.section_cases
    · rw [seen] at seen'
      cases seen'
      exact ⟨_, whole, rfl⟩
    · rw [seen] at unseen
      cases unseen

/-- The list of the server with all its threads, without the activity fields, is the one that
whole sections leave, one after the other. -/
theorem concurrent_list_sections {trace : List (ConcurrentServer ι × ThreadLabel ι)}
    {state : ConcurrentServer ι} (execution : (concurrentSystem ι).Execution trace state) :
    ∃ order, (wholeSections (Option ι)).Execution order state.server.clients.unstamped ∧
      order.map Prod.snd = trace.filterMap fun visit => visit.1.listSection visit.2 := by
  obtain ⟨order, _, whole, rfl, labels⟩ := concurrentSections.execution execution
  exact ⟨order, whole, labels⟩

end MultithreadedChat
