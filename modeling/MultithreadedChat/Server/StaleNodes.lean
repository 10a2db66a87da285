import MultithreadedChat.Server.Concurrent
import MultithreadedChat.Server.Sequential

/-! # Nodes kept across critical sections

A worker or the connection manager that found a node in one step reads or writes
through the pointer in later ones. All nodes held so stay in the list along a run
exactly if no step removes a node that another thread holds
(`MultithreadedChat.held_along_iff`), and then every step finds the nodes it uses in
the list (`MultithreadedChat.used_nodes_listed`). The three removals check nothing of
the kind (`MultithreadedChat.sayto_uses_removed_node`).
-/

namespace MultithreadedChat

open LinkedList

/-- The node that a search returned is in the list. -/
theorem Registry.mem_ids_of_found {registry : Registry} {found : Option (ℕ × Client)} {id : ℕ}
    (listed : ∀ node, found = some node → node ∈ registry)
    (member : id ∈ (found.map Prod.fst).toList) : id ∈ registry.ids := by
  obtain ⟨node, present, rfl⟩ := Option.map_eq_some_iff.mp (Option.mem_toList.mp member)
  exact List.mem_map_of_mem (listed node present)

namespace WorkerLoc

/-- The nodes a worker keeps pointers to. -/
def holds : WorkerLoc → List ℕ
  | .saytoDeliver _ client fromWho => client.toList ++ fromWho.toList
  | .saytoAnswer _ fromWho => fromWho.toList
  | .sayFindSender _ node | .sayRecord _ node | .sayBroadcast _ node => node.toList
  | .sayFormat _ node fromWho => node.toList ++ fromWho.toList
  | .disconnectRemove node => [node]
  | _ => []

/-- The nodes a worker found earlier and reads in its next step. The name in the node
that `disconnect` found is read only to compare it with the names in the list. -/
def uses (server : Server) : WorkerLoc → List ℕ
  | .saytoDeliver _ client fromWho => client.toList ++ fromWho.toList
  | .saytoAnswer _ fromWho | .sayFormat _ _ fromWho => fromWho.toList
  | .sayBroadcast _ node => node.toList
  | .disconnectRemove node => if server.clients.head = none then [] else [node]
  | _ => []

/-- What is used was held. -/
theorem mem_holds_of_uses {server : Server} {loc : WorkerLoc} {id : ℕ}
    (used : id ∈ loc.uses server) : id ∈ loc.holds := by
  cases loc with
  | saytoDeliver | saytoAnswer | sayBroadcast => exact used
  | sayFormat => exact List.mem_append_right _ used
  | disconnectRemove node =>
      simp only [uses] at used
      split at used
      · cases used
      · exact used
  | _ => cases used

/-- A worker that starts holds nothing. -/
theorem holds_of_start {request : Request} {loc : WorkerLoc} (begins : start request = some loc) :
    loc.holds = [] := by
  unfold start at begins
  split at begins <;> cases begins <;> rfl

/-- A worker holds what it held before or what it has just found in the list. -/
theorem Next.mem_holds {registry : Registry} {loc next : WorkerLoc}
    (went : loc.Next registry next) {id : ℕ} (held : id ∈ next.holds) :
    id ∈ loc.holds ∨ id ∈ registry.ids := by
  cases went with
  | delivered => exact .inl (List.mem_append_right _ held)
  | formatted => exact .inl (List.mem_append_left _ held)
  | recorded => exact .inl held
  | recipientFound recipient =>
      rcases List.mem_append.mp held with client | fromWho
      · obtain rfl := List.mem_singleton.mp client
        exact .inr (List.mem_map_of_mem (List.mem_of_find?_eq_some recipient))
      · exact .inr (Registry.mem_ids_of_found (fun _ => List.mem_of_find?_eq_some) fromWho)
  | recipientMissing =>
      exact .inr (Registry.mem_ids_of_found (fun _ => List.mem_of_find?_eq_some) held)
  | headRead => exact .inr (Registry.mem_ids_of_found (fun _ => List.mem_of_mem_head?) held)
  | senderSought =>
      rcases List.mem_append.mp held with node | fromWho
      · exact .inl node
      · exact .inr (Registry.mem_ids_of_found (fun _ => List.mem_of_find?_eq_some) fromWho)
  | requesterFound requester =>
      obtain rfl := List.mem_singleton.mp held
      exact .inr (List.mem_map_of_mem (List.mem_of_find?_eq_some requester))
  | connected | disconnected | renamed | approved | denied | kicked | confirmed => cases held

/-- A worker that has removed a node holds none. -/
theorem Next.holds_of_removal {registry : Registry} {loc next : WorkerLoc}
    (went : loc.Next registry next) (server : Server) (removes : loc.removalName server ≠ none) :
    next.holds = [] := by
  cases went with
  | disconnected | kicked => rfl
  | _ => exact (removes rfl).elim

end WorkerLoc

namespace ManagerLoc

/-- The node the connection manager keeps a pointer to, and uses in its next step: it prints
the name of a client that it has pinged. Once it has told a client that it is removed, it goes
by the name it copied. -/
def holds : ManagerLoc → List ℕ
  | .pinging node _ | .recording node _ | .reporting node | .notifying node _ _ => [node]
  | .asleep | .timed _ | .removing _ _ _ => []

/-- The connection manager holds what it held before or what it has just found. -/
theorem Next.mem_holds {registry : Registry} {now : ℤ} {loc next : ManagerLoc}
    (went : loc.Next registry now next) {id : ℕ} (held : id ∈ next.holds) :
    id ∈ loc.holds ∨ id ∈ registry.ids := by
  cases went with
  | toPing overdue | toKick overdue =>
      obtain rfl := List.mem_singleton.mp held
      exact .inr (List.mem_map_of_mem (List.mem_of_find?_eq_some overdue))
  | pinged | recorded => exact .inl held
  | woken | nobody | reported | notified | removed => cases held

/-- The connection manager holds nothing when it has removed a node. -/
theorem Next.holds_of_removal {registry : Registry} {now : ℤ} {loc next : ManagerLoc}
    (went : loc.Next registry now next) (removes : loc.removalName ≠ none) : next.holds = [] := by
  cases went with
  | removed => rfl
  | _ => exact (removes rfl).elim

end ManagerLoc

/-! ## Along a run -/

variable {ι : Type*}

namespace ConcurrentServer

variable (state : ConcurrentServer ι)

/-- The nodes that the thread of a step keeps pointers to. -/
def holds : ThreadLabel ι → List ℕ
  | .worker worker => ((state.workers worker).map WorkerLoc.holds).getD []
  | .manager => state.manager.holds
  | .tick _ | .receive _ _ => []

/-- The nodes found in an earlier step of the thread that a step reads or writes. -/
def uses : ThreadLabel ι → List ℕ
  | .worker worker => ((state.workers worker).map fun loc => loc.uses state.server).getD []
  | .manager => state.manager.holds
  | .tick _ | .receive _ _ => []

/-- Every node that a thread holds is in the list. -/
def HeldListed : Prop := ∀ thread, ∀ id ∈ state.holds thread, id ∈ state.registry.ids

/-- The step does not remove a node that another thread holds. -/
def SparesHeld (label : ThreadLabel ι) : Prop :=
  ∀ node, state.removed label = some node → ∀ thread, thread ≠ label →
    node.1 ∉ state.holds thread

variable {state} {label : ThreadLabel ι}

theorem mem_holds_of_uses {id : ℕ} (used : id ∈ state.uses label) : id ∈ state.holds label := by
  cases label with
  | tick | receive => cases used
  | manager => exact used
  | worker worker =>
      cases running : state.workers worker with
      | none =>
          rw [uses, running] at used
          cases used
      | some loc =>
          rw [uses, running] at used
          rw [holds, running]
          exact WorkerLoc.mem_holds_of_uses used

/-- A node that a step does not remove stays. -/
theorem mem_ids_effect {id : ℕ} (listed : id ∈ state.registry.ids)
    (spared : ∀ node, state.removed label = some node → node.1 ≠ id) :
    id ∈ (state.effect label).ids := by
  rcases state.effect_cases label with ⟨-, places⟩ | ⟨name, node, found, removed, effect⟩
  · rw [Registry.ids_eq_places] at listed ⊢
    exact (places.map Prod.fst).subset listed
  · obtain ⟨before, after, shape, rest⟩ := Registry.exists_remove_split found
    rw [shape] at listed
    rw [effect, rest]
    have other := spared node removed
    simp only [Registry.ids, List.map_append, List.map_cons, List.mem_append,
      List.mem_cons] at listed ⊢
    rcases listed with front | same | back
    · exact .inl front
    · exact (other same.symm).elim
    · exact .inr back

/-- A node that a step removes is gone. -/
theorem notMem_ids_effect (distinct : state.registry.ids.Nodup) {node : ℕ × Client}
    (removed : state.removed label = some node) : node.1 ∉ (state.effect label).ids := by
  rcases state.effect_cases label with ⟨kept, -⟩ | ⟨name, other, found, taken, effect⟩
  · rw [kept] at removed
    cases removed
  · obtain rfl := Option.some.inj (taken.symm.trans removed)
    obtain ⟨before, after, shape, rest⟩ := Registry.exists_remove_split found
    rw [shape, Registry.ids, List.map_append, List.map_cons] at distinct
    rw [effect, rest, Registry.ids, List.map_append]
    exact (List.nodup_cons.mp (List.perm_middle.nodup_iff.mp distinct)).1

end ConcurrentServer

variable [DecidableEq ι]

/-- What a thread holds after a step. -/
theorem ConcurrentStep.mem_holds {before after : ConcurrentServer ι} {label : ThreadLabel ι}
    (moved : ConcurrentStep before label after) (formed : before.server.clients.WellFormed)
    {thread : ThreadLabel ι} {id : ℕ} (held : id ∈ after.holds thread) :
    (thread ≠ label ∧ id ∈ before.holds thread) ∨
      (before.removed label = none ∧ (id ∈ before.holds thread ∨ id ∈ before.registry.ids)) := by
  cases thread with
  | tick | receive => cases held
  | manager =>
      rcases moved.manager_cases formed with ⟨other, same⟩ | ⟨rfl, went⟩
      · rw [ConcurrentServer.holds, same] at held
        exact .inl ⟨other.symm, held⟩
      · cases removes : before.manager.removalName with
        | none =>
            refine .inr ⟨?_, went.mem_holds held⟩
            rw [ConcurrentServer.removed, ConcurrentServer.removalName, removes, Option.bind_none]
        | some name =>
            rw [ConcurrentServer.holds, went.holds_of_removal (by simp [removes])] at held
            cases held
  | worker worker =>
      cases here : after.workers worker with
      | none =>
          rw [ConcurrentServer.holds, here] at held
          cases held
      | some loc =>
          replace held : id ∈ loc.holds := by rwa [ConcurrentServer.holds, here] at held
          rcases moved.worker_cases formed here with
            ⟨other, same⟩ | ⟨request, -, begins⟩ | ⟨earlier, rfl, running, went⟩
          · refine .inl ⟨other.symm, ?_⟩
            rw [ConcurrentServer.holds, same]
            exact held
          · rw [WorkerLoc.holds_of_start begins] at held
            cases held
          · cases removes : earlier.removalName before.server with
            | none =>
                refine .inr ⟨?_, ?_⟩
                · rw [ConcurrentServer.removed, ConcurrentServer.removalName, running,
                    Option.bind_some, removes, Option.bind_none]
                · rw [ConcurrentServer.holds, running]
                  exact went.mem_holds held
            | some name =>
                rw [went.holds_of_removal before.server (by simp [removes])] at held
                cases held

/-- A removal leaves the other threads what they hold. -/
theorem ConcurrentStep.holds_kept {before after : ConcurrentServer ι} {label : ThreadLabel ι}
    (moved : ConcurrentStep before label after) {node : ℕ × Client}
    (removed : before.removed label = some node) {thread : ThreadLabel ι} (other : thread ≠ label) :
    after.holds thread = before.holds thread := by
  cases moved with
  | tick | receive => cases removed
  | manager =>
      cases thread with
      | manager => exact (other rfl).elim
      | _ => rfl
  | worker acting running stepped =>
      cases thread with
      | worker worker =>
          have different : worker ≠ acting := fun same => other (congrArg _ same)
          simp only [ConcurrentServer.holds, Function.update_of_ne different]
      | _ => rfl

/-- Whether a step leaves every held node in the list. -/
theorem heldListed_step_iff {before after : ConcurrentServer ι} {label : ThreadLabel ι}
    (moved : ConcurrentStep before label after) (formed : before.server.clients.WellFormed)
    (listed : before.HeldListed) : after.HeldListed ↔ before.SparesHeld label := by
  have effect := (moved.spec formed).2.2
  constructor
  · intro keeps node removed thread other held
    have distinct : before.registry.ids.Nodup := formed.nodup
    apply ConcurrentServer.notMem_ids_effect distinct removed
    rw [← moved.holds_kept removed other] at held
    rw [← effect]
    exact keeps thread node.1 held
  · intro spares thread id held
    rw [effect]
    rcases moved.mem_holds formed held with ⟨other, old⟩ | ⟨kept, old | found⟩
    · refine ConcurrentServer.mem_ids_effect (listed thread id old) ?_
      rintro node removed rfl
      exact spares node removed thread other old
    · refine ConcurrentServer.mem_ids_effect (listed thread id old) fun node removed => ?_
      rw [kept] at removed
      cases removed
    · refine ConcurrentServer.mem_ids_effect found fun node removed => ?_
      rw [kept] at removed
      cases removed

/-- **When held nodes stay in the list.** Along a run, every node that a thread holds is
in the list, exactly if no step removes a node that another thread holds. -/
theorem held_along_iff {trace : List (ConcurrentServer ι × ThreadLabel ι)}
    {state : ConcurrentServer ι} (execution : (concurrentSystem ι).Execution trace state) :
    ((∀ visit ∈ trace, visit.1.HeldListed) ∧ state.HeldListed) ↔
      ∀ visit ∈ trace, visit.1.SparesHeld visit.2 := by
  refine execution.along_iff (I := ConcurrentServer.HeldListed)
    (G := ConcurrentServer.SparesHeld) ?_ ?_
  · rintro state ⟨clock, rfl⟩ thread id held
    cases thread <;> cases held
  · intro before label after reachable listed moved
    exact heldListed_step_iff moved (concurrent_wellFormed reachable) listed

/-- **No stale node is used.** In a run in which no step removes a node that another
thread holds, every step finds the nodes it reads or writes, and obtained earlier, in the
list. -/
theorem used_nodes_listed {trace : List (ConcurrentServer ι × ThreadLabel ι)}
    {state : ConcurrentServer ι} (execution : (concurrentSystem ι).Execution trace state)
    (spares : ∀ visit ∈ trace, visit.1.SparesHeld visit.2) (label : ThreadLabel ι) :
    ∀ id ∈ state.uses label, id ∈ state.registry.ids := by
  intro id used
  exact ((held_along_iff execution).mpr spares).2 label id
    (ConcurrentServer.mem_holds_of_uses used)

/-- A private message is about to be delivered, with both clients in the list. -/
theorem used_nodes_listed_sayto :
    ∃ state : ConcurrentServer (Fin 2), state.uses (.worker 0) = [1, 0] ∧
      ∀ id ∈ state.uses (.worker 0), id ∈ state.registry.ids := by
  have start : (concurrentSystem (Fin 2)).Execution [] (.start 0) := .start ⟨0, rfl⟩
  have oneConnects := (start.step (.receive 0 (sampleRequest .conn 1 "A") rfl rfl)).step
    (.worker 0 rfl rfl)
  have twoConnects := (oneConnects.step (.receive 1 (sampleRequest .conn 2 "B") rfl rfl)).step
    (.worker 1 rfl rfl)
  have oneConnected := twoConnects.step (.worker 0 rfl rfl)
  have bothFound := (oneConnected.step (.receive 0 (sampleRequest .sayto 1 "B") rfl rfl)).step
    (.worker 0 rfl rfl)
  have listed := used_nodes_listed bothFound (by
    simp only [List.nil_append, List.cons_append, List.mem_cons, List.not_mem_nil, or_false]
    rintro visit (rfl | rfl | rfl | rfl | rfl | rfl | rfl) node removed <;> cases removed)
  exact ⟨_, rfl, listed (.worker 0)⟩

/-- **A stale node is used.** The recipient of a private message disconnects after
`sayto` has found it and before the message is sent: the node is freed, and `sayto`
reads its address. -/
theorem sayto_uses_removed_node :
    ∃ state : ConcurrentServer (Fin 2), (concurrentSystem (Fin 2)).Reachable state ∧
      ∃ id, id ∈ state.uses (.worker 0) ∧ id ∉ state.registry.ids := by
  have start : (concurrentSystem (Fin 2)).Reachable (.start 0) := .start ⟨0, rfl⟩
  have oneConnects := (start.step (.receive 0 (sampleRequest .conn 1 "A") rfl rfl)).step
    (.worker 0 rfl rfl)
  have twoConnects := (oneConnects.step (.receive 1 (sampleRequest .conn 2 "B") rfl rfl)).step
    (.worker 1 rfl rfl)
  have connected := (twoConnects.step (.worker 0 rfl rfl)).step (.worker 1 rfl rfl)
  have bothFound := (connected.step (.receive 0 (sampleRequest .sayto 1 "B") rfl rfl)).step
    (.worker 0 rfl rfl)
  have recipientFound := (bothFound.step (.receive 1 (sampleRequest .disconn 2 "") rfl rfl)).step
    (.worker 1 rfl rfl)
  have recipientGone := recipientFound.step (.worker 1 rfl rfl)
  exact ⟨_, recipientGone, 1, by decide, by decide⟩

end MultithreadedChat
