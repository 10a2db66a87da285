import MultithreadedChat.Server.Concurrent
import MultithreadedChat.Server.Sequential

/-! # No node is lost

Every cell of the heap that is in use is a node of the list: `add_client_to_list` links what
it allocates and `remove_client_from_list` releases what it unlinks. So whoever follows a
pointer to a node, kept from an earlier critical section or not, either faults or reads a
client that is in the list right now (`MultithreadedChat.ClientList.Tight.load_mem`).
-/

namespace MultithreadedChat

open LinkedList

namespace ClientList

/-- No cell outside the list is in use. -/
def Tight (list : ClientList) : Prop :=
  ∀ id, list.heap.cell id ≠ none → id ∈ list.nodes.map Prod.fst

theorem tight_empty : empty.Tight := fun _ used => (used rfl).elim

variable {list list' : ClientList}

namespace Tight

variable (tight : list.Tight)
include tight

/-- A cell in use is a node of the list. -/
theorem mem_nodes (formed : list.WellFormed) {id : ℕ} {cell : Cell Client}
    (found : list.heap.cell id = some cell) : (id, cell.value) ∈ list.nodes := by
  have used : list.heap.cell id ≠ none := by
    rw [found]
    exact Option.some_ne_none cell
  obtain ⟨⟨same, client⟩, member, rfl⟩ := List.mem_map.mp (tight id used)
  obtain ⟨next, here⟩ := formed.chain.mem_cell member
  rw [found] at here
  cases here
  exact member

/-- A pointer that can be followed leads into the list. -/
theorem load_mem (formed : list.WellFormed) {node : Ptr} {cell : Cell Client}
    (loaded : list.heap.load node = .ok cell) :
    ∃ id, node = some id ∧ (id, cell.value) ∈ list.nodes := by
  cases node with
  | none => cases loaded
  | some id => exact ⟨id, rfl, tight.mem_nodes formed (Heap.cell_of_load loaded)⟩

/-- Whoever is reached from some pointer is in the list. -/
theorem broadcast_mem (formed : list.WellFormed) {node : Ptr} {response : List UInt8}
    {sent : List Datagram} (done : broadcast list node response = .ok sent) {datagram : Datagram}
    (member : datagram ∈ sent) : ∃ reached ∈ list.nodes,
      datagram = ⟨reached.2.clientAddress, response, responseBufferSize⟩ := by
  obtain ⟨entries, collected, done⟩ := exists_of_bind_eq_ok done
  cases done
  obtain ⟨reached, visited, rfl⟩ := List.mem_map.mp member
  obtain ⟨next, found⟩ := Heap.cell_of_collect collected visited
  exact ⟨reached, tight.mem_nodes formed found, rfl⟩

theorem add (formed : list.WellFormed) {addr : SockAddrIn} {name : Name} {now : ℤ}
    (added : addClientToList list addr name now = .ok list') : list'.Tight := by
  obtain ⟨other, done, -, nodes, -⟩ := formed.addClientToList_spec addr name now
  obtain rfl := Except.ok.inj (done.symm.trans added)
  have linked : ∀ id, other.heap.cell id ≠ none → list.heap.cell id ≠ none ∨
      id = list.heap.fresh := by
    intro id used
    by_cases new : id = list.heap.fresh
    · exact .inr new
    · refine .inl fun unused => used ?_
      simp only [addClientToList] at added
      split at added
      · cases added
        exact (Function.update_of_ne new ..).trans unused
      · obtain ⟨heap, updated, added⟩ := exists_of_bind_eq_ok added
        cases added
        exact (Heap.cell_update updated id).mpr ((Function.update_of_ne new ..).trans unused)
  intro id used
  rw [nodes, List.map_append]
  rcases linked id used with old | rfl
  · exact List.mem_append_left _ (tight id old)
  · exact List.mem_append_right _ (List.mem_singleton_self _)

theorem write (formed : list.WellFormed) {id : ℕ} {f : Client → Client}
    (wrote : list.write (some id) f = .ok list') : list'.Tight := by
  obtain ⟨-, nodes, -⟩ := formed.write_spec_of_ok wrote
  obtain ⟨heap, updated, wrote⟩ := exists_of_bind_eq_ok wrote
  cases wrote
  intro other used
  have ids : (writeNode id f list.nodes).map Prod.fst = list.nodes.map Prod.fst := by
    rw [writeNode, List.map_map]
    refine List.map_congr_left fun node _ => ?_
    simp only [Function.comp_apply]
    split <;> rfl
  rw [nodes, ids]
  exact tight other fun unused => used ((Heap.cell_update updated other).mpr unused)

/-- What is unlinked is released. -/
theorem remove (formed : list.WellFormed) {name : Name} {addr : Option SockAddrIn}
    (removed : removeClientFromList list name = .ok (list', addr)) : list'.Tight := by
  obtain ⟨other, done, -, -, nodes⟩ := formed.removeClientFromList_spec name
  obtain ⟨rfl, -⟩ := Prod.mk.inj (Except.ok.inj (done.symm.trans removed))
  cases found : list.nodes.find? fun node => node.2.clientName == name with
  | none =>
      have missed : ∀ node ∈ list.nodes, (node.2.clientName == name) = false := fun node member =>
        Bool.eq_false_iff.mpr (List.find?_eq_none.mp found node member)
      obtain ⟨link, sought⟩ := formed.chain.seekLink_none
        (fun client => client.clientName == name) missed formed.length_le none
      simp only [removeClientFromList, sought, ok_bind, pure_eq_ok] at removed
      cases removed
      exact tight
  | some node =>
      obtain ⟨id, client⟩ := node
      obtain ⟨matched, before, after, shape, missed⟩ := List.find?_eq_some_iff_append.mp found
      have skipped : ∀ node ∈ before, (node.2.clientName == name) = false := fun node member => by
        simpa using missed node member
      have shorter : other.nodes = before ++ after := by
        rw [nodes, shape,
          List.eraseP_append_right _ fun node member => by simp [skipped node member]]
        simp [matched]
      have unused : ∀ cell, list.heap.cell cell = none ∨ cell = id →
          other.heap.cell cell = none := by
        have sought := Segment.seekLink_eq (shape ▸ formed.chain)
          (fun client => client.clientName == name) skipped matched (shape ▸ formed.length_le) none
        simp only [removeClientFromList, sought, ok_bind] at removed
        obtain ⟨node, -, removed⟩ := exists_of_bind_eq_ok removed
        have released : ∀ heap : Heap Client,
            (∀ cell, list.heap.cell cell = none → heap.cell cell = none) →
              ∀ cell, list.heap.cell cell = none ∨ cell = id →
                (heap.release id).cell cell = none := by
          intro heap kept cell gone
          by_cases same : cell = id
          · subst same
            exact Function.update_self ..
          · exact (Function.update_of_ne same ..).trans (kept cell (gone.resolve_right same))
        split at removed
        · cases removed
          exact released list.heap fun _ unused => unused
        · obtain ⟨heap, updated, removed⟩ := exists_of_bind_eq_ok removed
          cases removed
          exact released heap fun cell => (Heap.cell_update updated cell).mpr
      intro cell used
      have listed := tight cell fun gone => used (unused cell (.inl gone))
      have different : cell ≠ id := fun same => used (unused cell (.inr same))
      rw [shape] at listed
      rw [shorter]
      simp only [List.map_append, List.map_cons, List.mem_append, List.mem_cons] at listed ⊢
      rcases listed with front | same | back
      · exact .inl front
      · exact (different same).elim
      · exact .inr back

theorem touch (formed : list.WellFormed) {addr : SockAddrIn} {now : ℤ}
    (touched : updateClientActivity list addr now = .ok list') : list'.Tight := by
  obtain ⟨node, -, touched⟩ := exists_of_bind_eq_ok touched
  cases node with
  | none =>
      cases touched
      exact tight
  | some node => exact tight.write formed touched

end Tight

end ClientList

section Steps

variable {server server' : Server} (formed : server.clients.WellFormed)
  (tight : server.clients.Tight) {now : ℤ} {sent : List Datagram}
include formed tight

theorem markActivity_tight {request : Request}
    (marked : markActivity server request now = .ok server') : server'.clients.Tight := by
  simp only [markActivity] at marked
  split at marked
  · obtain ⟨clients, touched, marked⟩ := exists_of_bind_eq_ok marked
    cases marked
    exact tight.touch formed touched
  · cases marked
    exact tight

theorem WorkerLoc.step_tight {loc : WorkerLoc} {next : Option WorkerLoc}
    (moved : loc.step server now = .ok (server', sent, next)) : server'.clients.Tight := by
  cases loc with
  | connectReply | sayReadHead | kickConfirm | reply =>
      cases moved
      exact tight
  | sayRecord message node =>
      cases moved
      rwa [Server.record_clients]
  | connectInsert request =>
      obtain ⟨clients, added, moved⟩ := exists_of_bind_eq_ok moved
      cases moved
      exact tight.add formed added
  | saytoLookup request =>
      obtain ⟨client, -, moved⟩ := exists_of_bind_eq_ok moved
      obtain ⟨fromWho, -, moved⟩ := exists_of_bind_eq_ok moved
      cases client <;> cases moved <;> exact tight
  | saytoDeliver =>
      obtain ⟨sender, -, moved⟩ := exists_of_bind_eq_ok moved
      obtain ⟨recipient, -, moved⟩ := exists_of_bind_eq_ok moved
      cases moved
      exact tight
  | saytoAnswer | sayFindSender | sayFormat | sayBroadcast | kickBroadcast =>
      obtain ⟨result, -, moved⟩ := exists_of_bind_eq_ok moved
      cases moved
      exact tight
  | disconnectLookup request =>
      obtain ⟨node, -, moved⟩ := exists_of_bind_eq_ok moved
      cases node <;> cases moved <;> exact tight
  | disconnectRemove node =>
      simp only [step] at moved
      split at moved
      · cases moved
        exact tight
      · obtain ⟨requester, -, moved⟩ := exists_of_bind_eq_ok moved
        obtain ⟨⟨clients, addr⟩, taken, moved⟩ := exists_of_bind_eq_ok moved
        cases moved
        exact tight.remove formed taken
  | renameWrite request =>
      obtain ⟨clients, written, moved⟩ := exists_of_bind_eq_ok moved
      cases moved
      obtain ⟨node, -, written⟩ := exists_of_bind_eq_ok written
      cases node with
      | none => cases written
      | some node => exact tight.write formed written
  | kickCheck request =>
      obtain ⟨admin, -, moved⟩ := exists_of_bind_eq_ok moved
      cases admin <;> cases moved <;> exact tight
  | kickRemove request =>
      obtain ⟨⟨clients, addr⟩, taken, moved⟩ := exists_of_bind_eq_ok moved
      cases moved
      exact tight.remove formed taken

theorem ManagerLoc.step_tight {loc next : ManagerLoc}
    (moved : loc.step server now = .ok (server', sent, next)) : server'.clients.Tight := by
  cases loc with
  | asleep =>
      cases moved
      exact tight
  | timed currentTime =>
      obtain ⟨selected, -, moved⟩ := exists_of_bind_eq_ok moved
      cases selected with
      | none =>
          cases moved
          exact tight
      | some node =>
          obtain ⟨chosen, -, moved⟩ := exists_of_bind_eq_ok moved
          split at moved <;> cases moved <;> exact tight
  | pinging | notifying | reporting =>
      obtain ⟨node, -, moved⟩ := exists_of_bind_eq_ok moved
      cases moved
      exact tight
  | recording node currentTime =>
      obtain ⟨clients, written, moved⟩ := exists_of_bind_eq_ok moved
      cases moved
      exact tight.write formed written
  | removing node kickName scanned =>
      obtain ⟨⟨clients, addr⟩, taken, moved⟩ := exists_of_bind_eq_ok moved
      cases moved
      exact tight.remove formed taken

end Steps

variable {ι : Type*} [DecidableEq ι]

theorem ConcurrentStep.tight {before after : ConcurrentServer ι} {label : ThreadLabel ι}
    (moved : ConcurrentStep before label after) (formed : before.server.clients.WellFormed)
    (tight : before.server.clients.Tight) : after.server.clients.Tight := by
  cases moved with
  | tick => exact tight
  | receive _ _ _ marked => exact markActivity_tight formed tight marked
  | worker _ _ stepped => exact WorkerLoc.step_tight formed tight stepped
  | manager stepped => exact ManagerLoc.step_tight formed tight stepped

theorem concurrent_tight {state : ConcurrentServer ι}
    (reachable : (concurrentSystem ι).Reachable state) : state.server.clients.Tight := by
  have both : state.server.clients.WellFormed ∧ state.server.clients.Tight := by
    refine reachable.invariant
      (I := fun state => state.server.clients.WellFormed ∧ state.server.clients.Tight) ?_ ?_
    · rintro state ⟨clock, rfl⟩
      exact ⟨ClientList.empty_wellFormed.1, ClientList.tight_empty⟩
    · rintro before label after ⟨formed, tight⟩ moved
      exact ⟨(moved.spec formed).1, moved.tight formed tight⟩
  exact both.2

/-- **No node is lost.** In every interleaving the cells in use are those of the list, each
once: what is not in the list any more has been freed, and nothing in the list has. -/
theorem nodes_in_use {state : ConcurrentServer ι}
    (reachable : (concurrentSystem ι).Reachable state) :
    (∀ id, state.server.clients.heap.cell id ≠ none ↔ id ∈ state.registry.ids) ∧
      state.registry.ids.Nodup := by
  have formed := concurrent_wellFormed reachable
  refine ⟨fun id => ⟨concurrent_tight reachable id, ?_⟩, formed.nodup⟩
  intro listed
  obtain ⟨⟨same, client⟩, member, rfl⟩ := List.mem_map.mp listed
  obtain ⟨next, here⟩ := formed.chain.mem_cell member
  rw [here]
  exact Option.some_ne_none _

/-- The first of two clients disconnects, and its node is freed. -/
theorem nodes_in_use_after_leaving :
    ∃ state : ConcurrentServer (Fin 2), (concurrentSystem (Fin 2)).Reachable state ∧
      state.server.clients.heap.cell 0 = none ∧ state.server.clients.heap.cell 1 ≠ none := by
  have start : (concurrentSystem (Fin 2)).Reachable (.start 0) := .start ⟨0, rfl⟩
  have oneConnects := (start.step (.receive 0 (sampleRequest .conn 1 "A") rfl rfl)).step
    (.worker 0 rfl rfl)
  have twoConnects := (oneConnects.step (.receive 1 (sampleRequest .conn 2 "B") rfl rfl)).step
    (.worker 1 rfl rfl)
  have connected := twoConnects.step (.worker 0 rfl rfl)
  have oneFound := (connected.step (.receive 0 (sampleRequest .disconn 1 "") rfl rfl)).step
    (.worker 0 rfl rfl)
  have oneGone := oneFound.step (.worker 0 rfl rfl)
  have used := (nodes_in_use oneGone).1
  exact ⟨_, oneGone, Classical.not_not.mp ((used 0).not.mpr (by decide)),
    (used 1).mpr (by decide)⟩

end MultithreadedChat
