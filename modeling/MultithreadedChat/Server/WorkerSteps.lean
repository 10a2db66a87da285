import MultithreadedChat.Server.LiveNodes
import MultithreadedChat.Server.StaleNodes

/-! # Steps that go through

In every interleaving a worker, or the connection manager, makes its next step exactly if the
pointers it follows then lead to nodes of the list; otherwise it follows `NULL` or a pointer to
a node that has been freed. No loop over the list runs on forever, and a worker needs at most
five steps for a command (`MultithreadedChat.workers_end`). As long as no step removes a node
that another thread holds, they all go on (`MultithreadedChat.threads_go_on`).
-/

namespace MultithreadedChat

open CString LinkedList

/-- The pointer leads to a node of the list. -/
def Server.Lists (server : Server) (node : Ptr) : Prop :=
  ∃ id, node = some id ∧ id ∈ server.registry.ids

/-- The pointers that a worker follows in its next step, apart from those of the loops. -/
def WorkerLoc.follows (server : Server) : WorkerLoc → List Ptr
  | .saytoDeliver _ client fromWho => [fromWho, client]
  | .saytoAnswer _ fromWho | .sayFormat _ _ fromWho => [fromWho]
  -- the loop of the broadcast does not run on `NULL`
  | .sayBroadcast _ node => node.toList.map some
  | .disconnectRemove node => if server.clients.head = none then [] else [some node]
  -- the sender's node is looked up and written to
  | .renameWrite request => [(server.registry.atAddress request.fromAddr).map Prod.fst]
  | _ => []

/-- The pointers that the connection manager follows in its next step. -/
def ManagerLoc.follows : ManagerLoc → List Ptr
  | .pinging node _ | .recording node _ | .reporting node | .notifying node _ _ => [some node]
  | _ => []

section Steps

variable {server : Server} (formed : server.clients.WellFormed) (tight : server.clients.Tight)
include formed tight

theorem lists_iff (node : Ptr) :
    (∃ id, node = some id ∧ server.clients.heap.cell id ≠ none) ↔ server.Lists node := by
  refine exists_congr fun id => and_congr_right fun _ => ⟨tight id, fun listed => ?_⟩
  obtain ⟨⟨same, client⟩, member, rfl⟩ := List.mem_map.mp listed
  obtain ⟨next, here⟩ := formed.chain.mem_cell member
  rw [here]
  exact Option.some_ne_none _

theorem load_ends (node : Ptr) : Ends (server.clients.heap.load node) (server.Lists node) :=
  (server.clients.heap.load_ends node).congr (lists_iff formed tight node)

theorem write_ends (node : Ptr) (f : Client → Client) :
    Ends (server.clients.write node f) (server.Lists node) :=
  ((server.clients.heap.update_ends _ node).congr (lists_iff formed tight node)).bind_ok _

/-- A broadcast reaches the end of the list from any of its nodes. -/
theorem broadcast_ends {node : Ptr}
    (allocated : ∀ id, node = some id → id < server.clients.heap.fresh) (response : List UInt8) :
    Ends (broadcast server.clients node response)
      (∀ other ∈ node.toList.map some, server.Lists other) := by
  refine Ends.bind_ok ?_ _
  cases node with
  | none =>
      have nobody : server.clients.heap.collect server.clients.heap.fresh none = .ok [] := by
        cases server.clients.heap.fresh <;> rfl
      exact (Ends.of_ok nobody).congr (by simp)
  | some id =>
      have single : (∀ other ∈ (some id).toList.map some, server.Lists other) ↔
          server.Lists (some id) := by simp
      by_cases listed : server.Lists (some id)
      · have leads := listed
        obtain ⟨same, found, member⟩ := leads
        cases found
        obtain ⟨⟨same, client⟩, listing, rfl⟩ := List.mem_map.mp member
        obtain ⟨before, after, shape⟩ := List.append_of_mem listing
        have chain := formed.chain
        have shorter := formed.length_le
        rw [show server.clients.nodes = before ++ _ from shape] at chain shorter
        obtain ⟨middle, -, back⟩ := chain.split
        obtain ⟨rfl, -⟩ := back.cons_inv
        rw [List.length_append] at shorter
        have reached := back.collect_eq ((Nat.le_add_left ..).trans shorter)
        exact (Ends.of_ok reached).congr (iff_of_true trivial (single.mpr listed))
      · have freed : server.clients.heap.cell id = none := by
          by_contra used
          exact listed ((lists_iff formed tight (some id)).mp ⟨id, rfl, used⟩)
        obtain ⟨rounds, more⟩ :=
          Nat.exists_eq_add_one_of_ne_zero (Nat.ne_zero_of_lt (allocated id rfl))
        have faults : server.clients.heap.collect server.clients.heap.fresh (some id) =
            .error .dangling := by
          rw [more, Heap.collect, freed]
        rw [faults]
        refine ⟨iff_of_false ?_ (single.not.mpr listed), ?_⟩ <;> simp

theorem WorkerLoc.step_ends {loc : WorkerLoc}
    (allocated : ∀ id ∈ loc.holds, id < server.clients.heap.fresh) (now : ℤ) :
    Ends (loc.step server now) (∀ node ∈ loc.follows server, server.Lists node) := by
  have unconditional : ∀ {computation : Except Fault (Server × List Datagram × Option WorkerLoc)}
      {result}, computation = .ok result → loc.follows server = [] →
      Ends computation (∀ node ∈ loc.follows server, server.Lists node) := by
    intro computation result done none
    exact (Ends.of_ok done).congr (by simp [none])
  cases loc with
  | connectReply | sayReadHead | kickConfirm | reply | sayRecord => exact unconditional rfl rfl
  | connectInsert request =>
      obtain ⟨clients, added, -⟩ :=
        formed.addClientToList_spec request.fromAddr (request.command.args 0) now
      exact unconditional (by rw [step, added]; rfl) rfl
  | saytoLookup request =>
      simp only [step, formed.findRecipient_eq, formed.findSender_eq, ok_bind]
      cases server.registry.named (request.command.args 0) with
      | none => exact unconditional rfl rfl
      | some node => exact unconditional rfl rfl
  | saytoDeliver command client fromWho =>
      refine ((load_ends formed tight fromWho).bind fun sender _ =>
        (load_ends formed tight client).bind_ok _).congr ?_
      simp [follows]
  | saytoAnswer response fromWho =>
      exact ((load_ends formed tight fromWho).bind_ok _).congr (by simp [follows])
  | sayFindSender request node =>
      exact unconditional (by rw [step, formed.findSender_eq]; rfl) rfl
  | sayFormat command node fromWho =>
      exact ((load_ends formed tight fromWho).bind_ok _).congr (by simp [follows])
  | sayBroadcast message node =>
      have reached : ∀ id, node = some id → id < server.clients.heap.fresh :=
        fun id same => allocated id (by simp [holds, same])
      exact (broadcast_ends formed tight reached (sayResponse message)).bind_ok _
  | kickBroadcast name =>
      have whole : broadcast server.clients server.clients.head (kickedResponse name) = .ok _ :=
        formed.broadcast_eq (kickedResponse name)
      exact unconditional (by rw [step, whole]; rfl) rfl
  | disconnectLookup request =>
      simp only [step, formed.findSender_eq, ok_bind]
      cases server.registry.atAddress request.fromAddr with
      | none => exact unconditional rfl rfl
      | some node => exact unconditional rfl rfl
  | disconnectRemove node =>
      simp only [step, follows]
      cases server.clients.head with
      | none => exact (Ends.ok _).congr (by simp)
      | some first =>
          refine ((load_ends formed tight (some node)).bind fun requester _ => ?_).congr
            (by simp : server.Lists (some node) ∧ True ↔ _)
          obtain ⟨clients, removed, -⟩ :=
            formed.removeClientFromList_spec requester.value.clientName
          rw [removed]
          exact .ok _
  | renameWrite request =>
      rw [step, MultithreadedChat.renameWrite, formed.findSender_eq, ok_bind]
      exact ((write_ends formed tight _ _).bind_ok _).congr (by simp [follows])
  | kickCheck request =>
      rw [step, formed.isAdmin_eq, ok_bind]
      cases server.registry.administers request.fromAddr with
      | false => exact unconditional rfl rfl
      | true => exact unconditional rfl rfl
  | kickRemove request =>
      obtain ⟨clients, removed, -⟩ :=
        formed.removeClientFromList_spec (request.command.args 0)
      exact unconditional (by rw [step, removed]; rfl) rfl

theorem ManagerLoc.step_ends (loc : ManagerLoc) (now : ℤ) :
    Ends (loc.step server now) (∀ node ∈ loc.follows, server.Lists node) := by
  have unconditional : ∀ {computation : Except Fault (Server × List Datagram × ManagerLoc)}
      {result}, computation = .ok result → loc.follows = [] →
      Ends computation (∀ node ∈ loc.follows, server.Lists node) := by
    intro computation result done none
    exact (Ends.of_ok done).congr (by simp [none])
  cases loc with
  | asleep => exact unconditional rfl rfl
  | timed currentTime =>
      rw [step, formed.scan_eq, ok_bind]
      cases found : server.registry.find? fun node => node.2.overdue currentTime with
      | none => exact unconditional rfl rfl
      | some node =>
          obtain ⟨next, loaded⟩ := formed.load_eq (List.mem_of_find?_eq_some found)
          simp only [Option.map_some, loaded, ok_bind]
          split
          · exact unconditional rfl rfl
          · exact unconditional rfl rfl
  | pinging node | notifying node | reporting node =>
      exact ((load_ends formed tight (some node)).bind_ok _).congr (by simp [follows])
  | recording node currentTime =>
      exact ((write_ends formed tight (some node) _).bind_ok _).congr (by simp [follows])
  | removing node kickName =>
      obtain ⟨clients, removed, -⟩ := formed.removeClientFromList_spec kickName
      exact unconditional (by rw [step, removed]; rfl) rfl

end Steps

/-! ## How many steps -/

/-- The most steps that a worker still has to make. -/
def WorkerLoc.remaining : WorkerLoc → ℕ
  | .sayReadHead _ => 5
  | .sayFindSender .. | .kickCheck _ => 4
  | .sayFormat .. | .saytoLookup _ | .disconnectLookup _ | .kickRemove _ => 3
  | .sayRecord .. | .saytoDeliver .. | .disconnectRemove _ | .kickConfirm .. | .connectInsert _
  | .renameWrite _ => 2
  | .sayBroadcast .. | .saytoAnswer .. | .kickBroadcast _ | .connectReply _ | .reply _ => 1

theorem WorkerLoc.remaining_start {request : Request} {loc : WorkerLoc}
    (begins : start request = some loc) : loc.remaining ≤ 5 := by
  unfold start at begins
  split at begins <;> cases begins <;> simp [remaining]

/-- The steps that a worker still has to make, if it is at work. -/
def remainingOf (loc : Option WorkerLoc) : ℕ := (loc.map WorkerLoc.remaining).getD 0

theorem WorkerLoc.Next.remaining_lt {registry : Registry} {loc next : WorkerLoc}
    (went : loc.Next registry next) : next.remaining < loc.remaining := by
  cases went <;> simp [remaining]

/-- Every step is one less to make. -/
theorem WorkerLoc.remainingOf_lt {server server' : Server} (formed : server.clients.WellFormed)
    {now : ℤ} {loc : WorkerLoc} {sent : List Datagram} {next : Option WorkerLoc}
    (moved : loc.step server now = .ok (server', sent, next)) :
    remainingOf next < loc.remaining := by
  cases next with
  | none => cases loc <;> simp [remainingOf, remaining]
  | some next => exact (step_next formed moved).remaining_lt

variable {ι : Type*} [DecidableEq ι]

/-- The steps of a worker in a run. -/
def stepsOf (worker : ι) (trace : List (ConcurrentServer ι × ThreadLabel ι)) : ℕ :=
  trace.countP fun
    | (_, .worker acting) => acting = worker
    | _ => false

/-- The commands for which a worker has been started in a run. -/
def commandsOf (worker : ι) (trace : List (ConcurrentServer ι × ThreadLabel ι)) : ℕ :=
  trace.countP fun
    | (_, .receive started _) => started = worker
    | _ => false

theorem stepsOf_le {trace : List (ConcurrentServer ι × ThreadLabel ι)}
    {state : ConcurrentServer ι} (execution : (concurrentSystem ι).Execution trace state)
    (worker : ι) :
    stepsOf worker trace + remainingOf (state.workers worker) ≤ 5 * commandsOf worker trace := by
  induction execution with
  | start initial =>
      obtain ⟨clock, rfl⟩ := initial
      exact le_rfl
  | @step trace before after label execution moved ih =>
      simp only [stepsOf, commandsOf, List.countP_append, List.countP_singleton] at ih ⊢
      cases moved with
      | tick | manager => simpa using ih
      | receive started request idle =>
          by_cases same : started = worker
          · subst same
            have few : remainingOf (WorkerLoc.start request) ≤ 5 := by
              cases begins : WorkerLoc.start request with
              | none => exact Nat.zero_le 5
              | some loc => exact WorkerLoc.remaining_start begins
            simp only [Function.update_self, decide_true, ↓reduceIte, Bool.false_eq_true]
            omega
          · simpa [same, Function.update_of_ne (Ne.symm same)] using ih
      | worker acting running stepped =>
          by_cases same : acting = worker
          · subst same
            have less := WorkerLoc.remainingOf_lt (concurrent_wellFormed ⟨_, execution⟩) stepped
            have now : remainingOf (before.workers acting) = WorkerLoc.remaining _ :=
              congrArg remainingOf running
            simp only [Function.update_self, decide_true, ↓reduceIte, Bool.false_eq_true]
            omega
          · simpa [same, Function.update_of_ne (Ne.symm same)] using ih

/-- Whatever a thread holds was allocated. -/
theorem held_lt_fresh {state : ConcurrentServer ι}
    (reachable : (concurrentSystem ι).Reachable state) :
    ∀ thread, ∀ id ∈ state.holds thread, id < state.server.clients.heap.fresh := by
  have both : state.server.clients.WellFormed ∧
      ∀ thread, ∀ id ∈ state.holds thread, id < state.server.clients.heap.fresh := by
    refine reachable.invariant (I := fun state => state.server.clients.WellFormed ∧
      ∀ thread, ∀ id ∈ state.holds thread, id < state.server.clients.heap.fresh) ?_ ?_
    · rintro state ⟨clock, rfl⟩
      refine ⟨ClientList.empty_wellFormed.1, fun thread id held => ?_⟩
      cases thread <;> cases held
    · rintro before label after ⟨formed, allocated⟩ moved
      obtain ⟨formed', grows, -⟩ := moved.spec formed
      refine ⟨formed', fun thread id held => lt_of_lt_of_le ?_ grows⟩
      rcases moved.mem_holds formed held with ⟨-, old⟩ | ⟨-, old | listed⟩
      · exact allocated thread id old
      · exact allocated thread id old
      · exact formed.lt_fresh listed
  exact both.2

theorem worker_ends {state : ConcurrentServer ι}
    (reachable : (concurrentSystem ι).Reachable state)
    {worker : ι} {loc : WorkerLoc} (running : state.workers worker = some loc) :
    Ends (loc.step state.server state.clock)
      (∀ node ∈ loc.follows state.server, state.server.Lists node) := by
  refine WorkerLoc.step_ends (concurrent_wellFormed reachable) (concurrent_tight reachable)
    (fun id held => held_lt_fresh reachable (.worker worker) id ?_) state.clock
  rwa [ConcurrentServer.holds, running]

/-- **Workers come to an end.** In every interleaving a worker makes at most five steps for a
command; its next step, and that of the connection manager, goes through exactly if the
pointers it follows lead to nodes of the list, and never runs on forever. -/
theorem workers_end {trace : List (ConcurrentServer ι × ThreadLabel ι)}
    {state : ConcurrentServer ι} (execution : (concurrentSystem ι).Execution trace state) :
    (∀ worker, stepsOf worker trace ≤ 5 * commandsOf worker trace) ∧
      (∀ worker loc, state.workers worker = some loc → Ends (loc.step state.server state.clock)
        (∀ node ∈ loc.follows state.server, state.server.Lists node)) ∧
      Ends (state.manager.step state.server state.clock)
        (∀ node ∈ state.manager.follows, state.server.Lists node) := by
  have reachable : (concurrentSystem ι).Reachable state := ⟨trace, execution⟩
  refine ⟨fun worker => (Nat.le_add_right ..).trans (stepsOf_le execution worker),
    fun worker loc running => worker_ends reachable running, ?_⟩
  exact ManagerLoc.step_ends (concurrent_wellFormed reachable) (concurrent_tight reachable)
    state.manager state.clock

/-- The recipient of a private message leaves before it is delivered. -/
theorem workers_end_sayto :
    ∃ (trace : List (ConcurrentServer (Fin 2) × ThreadLabel (Fin 2)))
      (state : ConcurrentServer (Fin 2)) (loc : WorkerLoc),
      (concurrentSystem (Fin 2)).Execution trace state ∧ state.workers 0 = some loc ∧
        stepsOf 0 trace = 3 ∧ ¬ ∃ result, loc.step state.server state.clock = .ok result := by
  have start : (concurrentSystem (Fin 2)).Execution [] (.start 0) := .start ⟨0, rfl⟩
  have oneConnects := (start.step (.receive 0 (sampleRequest .conn 1 "A") rfl rfl)).step
    (.worker 0 rfl rfl)
  have twoConnects := (oneConnects.step (.receive 1 (sampleRequest .conn 2 "B") rfl rfl)).step
    (.worker 1 rfl rfl)
  have connected := (twoConnects.step (.worker 0 rfl rfl)).step (.worker 1 rfl rfl)
  have bothFound := (connected.step (.receive 0 (sampleRequest .sayto 1 "B") rfl rfl)).step
    (.worker 0 rfl rfl)
  have recipientFound := (bothFound.step (.receive 1 (sampleRequest .disconn 2 "") rfl rfl)).step
    (.worker 1 rfl rfl)
  have recipientGone := recipientFound.step (.worker 1 rfl rfl)
  refine ⟨_, _, _, recipientGone, rfl, rfl, ?_⟩
  rw [((workers_end recipientGone).2.1 0 _ rfl).ok_iff]
  intro lists
  obtain ⟨id, same, listed⟩ := lists (some 1) (by decide)
  cases same
  exact absurd listed (by decide)

/-! ## Runs without faults -/

theorem ManagerLoc.mem_follows (loc : ManagerLoc) {node : Ptr} (member : node ∈ loc.follows) :
    ∃ id, node = some id ∧ id ∈ loc.holds := by
  cases loc with
  | pinging id | recording id | reporting id | notifying id =>
      exact ⟨id, List.mem_singleton.mp member, List.mem_singleton_self id⟩
  | _ => cases member

omit [DecidableEq ι] in
theorem ConcurrentServer.HeldListed.lists {state : ConcurrentServer ι}
    (listed : state.HeldListed) {worker : ι} {loc : WorkerLoc}
    (running : state.workers worker = some loc) (found : none ∉ loc.follows state.server) :
    ∀ node ∈ loc.follows state.server, state.server.Lists node := by
  have held : ∀ id ∈ loc.holds, id ∈ state.registry.ids := fun id member =>
    listed (.worker worker) id (by rwa [ConcurrentServer.holds, running])
  intro node member
  cases node with
  | none => exact (found member).elim
  | some id =>
      refine ⟨id, rfl, ?_⟩
      cases loc with
      | renameWrite request =>
          obtain ⟨client, present, rfl⟩ :=
            Option.map_eq_some_iff.mp (List.mem_singleton.mp member).symm
          exact List.mem_map_of_mem (List.mem_of_find?_eq_some present)
      | disconnectRemove other =>
          simp only [WorkerLoc.follows] at member
          split at member
          · cases member
          · exact held id (by simpa [WorkerLoc.holds] using member)
      | saytoDeliver command client fromWho =>
          refine held id (List.mem_append.mpr ?_)
          rcases List.mem_pair.mp member with same | same
          · exact .inr (Option.mem_toList.mpr same.symm)
          · exact .inl (Option.mem_toList.mpr same.symm)
      | saytoAnswer response fromWho =>
          exact held id (Option.mem_toList.mpr (List.mem_singleton.mp member).symm)
      | sayFormat command node fromWho =>
          have sender : id ∈ fromWho.toList :=
            Option.mem_toList.mpr (List.mem_singleton.mp member).symm
          exact held id (List.mem_append_right _ sender)
      | sayBroadcast message node =>
          obtain ⟨same, kept, here⟩ := List.mem_map.mp member
          exact held id (Option.some.inj here ▸ kept)
      | _ => cases member

/-- **Threads go on.** As long as no step removes a node that another thread holds, the connection
manager can make its next step, and so can every worker, unless it goes by a sender that it has
not found in the list. -/
theorem threads_go_on {trace : List (ConcurrentServer ι × ThreadLabel ι)}
    {state : ConcurrentServer ι} (execution : (concurrentSystem ι).Execution trace state)
    (spares : ∀ visit ∈ trace, visit.1.SparesHeld visit.2) :
    (∀ worker loc, state.workers worker = some loc → none ∉ loc.follows state.server →
        ∃ after, ConcurrentStep state (.worker worker) after) ∧
      ∃ after, ConcurrentStep state .manager after := by
  have reachable : (concurrentSystem ι).Reachable state := ⟨trace, execution⟩
  have listed := ((held_along_iff execution).mpr spares).2
  constructor
  · intro worker loc running found
    obtain ⟨⟨server, sent, next⟩, stepped⟩ :=
      (worker_ends reachable running).ok_iff.mpr (listed.lists running found)
    exact ⟨_, .worker worker running stepped⟩
  · have ends := ManagerLoc.step_ends (concurrent_wellFormed reachable)
      (concurrent_tight reachable) state.manager state.clock
    have held : ∀ node ∈ state.manager.follows, state.server.Lists node := by
      intro node member
      obtain ⟨id, rfl, held⟩ := state.manager.mem_follows member
      exact ⟨id, rfl, listed .manager id held⟩
    obtain ⟨⟨server, sent, next⟩, stepped⟩ := ends.ok_iff.mpr held
    exact ⟨_, .manager stepped⟩

/-- A private message is about to be delivered. -/
theorem threads_go_on_sayto :
    ∃ (trace : List (ConcurrentServer (Fin 2) × ThreadLabel (Fin 2)))
      (state : ConcurrentServer (Fin 2)), (concurrentSystem (Fin 2)).Execution trace state ∧
      state.workers 0 ≠ none ∧ ∃ after, ConcurrentStep state (.worker 0) after := by
  have start : (concurrentSystem (Fin 2)).Execution [] (.start 0) := .start ⟨0, rfl⟩
  have oneConnects := (start.step (.receive 0 (sampleRequest .conn 1 "A") rfl rfl)).step
    (.worker 0 rfl rfl)
  have twoConnects := (oneConnects.step (.receive 1 (sampleRequest .conn 2 "B") rfl rfl)).step
    (.worker 1 rfl rfl)
  have oneConnected := twoConnects.step (.worker 0 rfl rfl)
  have bothFound := (oneConnected.step (.receive 0 (sampleRequest .sayto 1 "B") rfl rfl)).step
    (.worker 0 rfl rfl)
  have goesOn := threads_go_on bothFound (by
    simp only [List.nil_append, List.cons_append, List.mem_cons, List.not_mem_nil, or_false]
    rintro visit (rfl | rfl | rfl | rfl | rfl | rfl | rfl) node removed <;> cases removed)
  exact ⟨_, _, bothFound, Option.some_ne_none _, goesOn.1 0 _ rfl (by decide)⟩

end MultithreadedChat
