import MultithreadedChat.Server.ListSections

/-! # The client list without its activity fields

The activity fields of a node are written outside all sections, by the queue manager and by
the connection manager. All sections but the scan for silent clients are blind to them: they
do on the list without the fields what they do on the list
(`MultithreadedChat.ListTask.code_blind`).
-/

namespace MultithreadedChat

open CString LinkedList CriticalSections

/-- The node without its activity fields. -/
def Client.unstamped (client : Client) : Client := { client with lastActive := 0, pingSent := 0 }

/-- The list without the activity fields of its nodes. -/
def ClientList.unstamped (list : ClientList) : ClientList :=
  { list with heap := list.heap.map Client.unstamped }

theorem Client.map_unstamped (heap : Heap Client) :
    (heap.map unstamped).map unstamped = heap.map unstamped := by
  simp only [Heap.map, Option.map_map]
  rfl

theorem ClientList.unstamped_unstamped (list : ClientList) :
    list.unstamped.unstamped = list.unstamped := by
  simp only [unstamped, Client.map_unstamped]

/-- Writing activity fields is not seen. -/
theorem ClientList.write_unstamped {list list' : ClientList} {node : Ptr} {f : Client → Client}
    (stamps : ∀ client, (f client).unstamped = client.unstamped)
    (wrote : list.write node f = .ok list') : list'.unstamped = list.unstamped := by
  cases node with
  | none => cases wrote
  | some id =>
      cases at_cell : list.heap.cell id with
      | none =>
          simp only [ClientList.write, Heap.update, at_cell, error_bind, reduceCtorEq] at wrote
      | some cell =>
          simp only [ClientList.write, Heap.update, at_cell, ok_bind, pure_eq_ok] at wrote
          cases wrote
          simp only [unstamped, Heap.map_store, ClientList.mk.injEq, and_true]
          simp only [Heap.store, Heap.map, Cell.map, stamps, Heap.mk.injEq, and_true]
          funext other
          by_cases same : other = id
          · simp [same, at_cell, Cell.map]
          · simp [same]

namespace ListCode

open ClientList

/-- A code that does on the list without activity fields what it does on the list. -/
theorem read_blind {Value Result : Type} {value : ClientList → Except Fault Value}
    {next : Value → ListCode Result} (same : ∀ list, value list.unstamped = value list)
    (blindNext : ∀ found, (next found).Blind unstamped) :
    Code.Blind unstamped (.read value next) := by
  refine ⟨fun list list' looks => ?_, blindNext⟩
  rw [← same list, looks, same list']

theorem write_blind {Value Result : Type} {effect : ClientList → Except Fault (ClientList × Value)}
    {next : Value → ListCode Result}
    (same : ∀ list, viewed unstamped (effect list.unstamped) = viewed unstamped (effect list))
    (blindNext : ∀ found, (next found).Blind unstamped) :
    Code.Blind unstamped (.write effect next) := by
  refine ⟨fun list list' looks => ?_, blindNext⟩
  rw [← same list, looks, same list']

theorem fetch_blind {Value : Type} {get : Cell Client → Value}
    (same : ∀ cell, get (cell.map Client.unstamped) = get cell) (node : Ptr) :
    (fetch get node).Blind unstamped := by
  refine read_blind (fun list => ?_) fun _ => trivial
  simp only [unstamped, Heap.load_map]
  cases list.heap.load node with
  | error fault => rfl
  | ok cell => exact congrArg Except.ok (same cell)

theorem readHead_blind : readHead.Blind unstamped := read_blind (fun _ => rfl) fun _ => trivial

theorem readTail_blind : readTail.Blind unstamped := read_blind (fun _ => rfl) fun _ => trivial

theorem rounds_blind : rounds.Blind unstamped := read_blind (fun _ => rfl) fun _ => trivial

theorem writeHead_blind (node : Ptr) : (writeHead node).Blind unstamped := by
  refine write_blind (fun list => ?_) fun _ => trivial
  simp only [viewed, Except.map, unstamped, Client.map_unstamped]

theorem writeTail_blind (node : Ptr) : (writeTail node).Blind unstamped := by
  refine write_blind (fun list => ?_) fun _ => trivial
  simp only [viewed, Except.map, unstamped, Client.map_unstamped]

theorem malloc_blind (node : Cell Client) : (malloc node).Blind unstamped := by
  refine write_blind (fun list => ?_) fun _ => trivial
  simp only [viewed, Except.map, unstamped, Heap.map_allocate, Client.map_unstamped, Heap.map_fresh]

theorem free_blind (id : ℕ) : (free id).Blind unstamped := by
  refine write_blind (fun list => ?_) fun _ => trivial
  simp only [viewed, Except.map, unstamped, Heap.map_release, Client.map_unstamped]

theorem update_blind {f : Cell Client → Cell Client}
    (same : ∀ cell, (f (cell.map Client.unstamped)).map Client.unstamped =
      (f cell).map Client.unstamped) (node : Ptr) : (update f node).Blind unstamped := by
  refine write_blind (fun list => ?_) fun _ => trivial
  cases node with
  | none => rfl
  | some id =>
      cases at_cell : list.heap.cell id with
      | none =>
          have unseen : list.unstamped.heap.cell id = none := by
            simp [unstamped, Heap.map, at_cell]
          simp only [Heap.update, at_cell, unseen]
          rfl
      | some cell =>
          have seen : list.unstamped.heap.cell id = some (cell.map Client.unstamped) := by
            simp [unstamped, Heap.map, at_cell]
          simp only [Heap.update, at_cell, seen, ok_bind, pure_eq_ok, viewed, Except.map]
          simp only [unstamped, Heap.map_store, Client.map_unstamped, same]

theorem unending_blind {Result : Type} : (unending : ListCode Result).Blind unstamped :=
  read_blind (fun _ => rfl) fun _ => trivial

theorem seek_blind {stop : Client → Bool} (same : ∀ client, stop client.unstamped = stop client)
    (bound : ℕ) (node : Ptr) : (seek stop bound node).Blind unstamped := by
  induction bound generalizing node with
  | zero =>
      cases node with
      | none => trivial
      | some id => exact unending_blind
  | succ bound ih =>
      cases node with
      | none => trivial
      | some id =>
          refine (fetch_blind (fun cell => same cell.value) _).bind fun found => ?_
          cases found with
          | true => trivial
          | false => exact (fetch_blind (fun _ => rfl) _).bind fun next => ih next

theorem seekLink_blind {stop : Client → Bool}
    (same : ∀ client, stop client.unstamped = stop client) (bound : ℕ) (last node : Ptr) :
    (seekLink stop bound last node).Blind unstamped := by
  induction bound generalizing last node with
  | zero =>
      cases node with
      | none => trivial
      | some id => exact unending_blind
  | succ bound ih =>
      cases node with
      | none => trivial
      | some id =>
          refine (fetch_blind (fun cell => same cell.value) _).bind fun found => ?_
          cases found with
          | true => trivial
          | false => exact (fetch_blind (fun _ => rfl) _).bind fun next => ih (some id) next

theorem tell_blind (response : List UInt8) (bound : ℕ) (node : Ptr) :
    (tell response bound node).Blind unstamped := by
  induction bound generalizing node with
  | zero =>
      cases node with
      | none => trivial
      | some id => exact unending_blind
  | succ bound ih =>
      cases node with
      | none => trivial
      | some id =>
          refine (fetch_blind (fun _ => rfl) _).bind fun address => ?_
          refine (fetch_blind (fun _ => rfl) _).bind fun next => ?_
          exact (ih next).bind fun _ => trivial

theorem findClientByAddress_blind (address : SockAddrIn) :
    (findClientByAddress address).Blind unstamped :=
  rounds_blind.bind fun bound => readHead_blind.bind fun node =>
    seek_blind (fun _ => rfl) bound node

theorem findClient_blind (who : Name) : (findClient who).Blind unstamped :=
  rounds_blind.bind fun bound => readHead_blind.bind fun iter =>
    seek_blind (fun _ => rfl) bound iter

theorem addClientToList_blind (addr : SockAddrIn) (name : Name) (now : ℤ) :
    (addClientToList addr name now).Blind unstamped := by
  refine (malloc_blind _).bind fun newNode => readHead_blind.bind fun head => ?_
  cases head with
  | none => exact (writeHead_blind _).bind fun _ => writeTail_blind _
  | some first =>
      refine readTail_blind.bind fun tail => (update_blind (fun _ => rfl) _).bind fun _ => ?_
      refine readTail_blind.bind fun tail => (fetch_blind (fun _ => rfl) _).bind fun next => ?_
      exact writeTail_blind next

theorem removeClientFromList_blind (name : Name) :
    (removeClientFromList name).Blind unstamped := by
  refine rounds_blind.bind fun bound => readHead_blind.bind fun iter => ?_
  refine (seekLink_blind (fun _ => rfl) bound none iter).bind fun found => ?_
  obtain ⟨lastNode, iter⟩ := found
  cases iter with
  | none => trivial
  | some id =>
      refine (fetch_blind (fun _ => rfl) _).bind fun clientAddress => ?_
      refine (fetch_blind (fun _ => rfl) _).bind fun next => ?_
      have rest : (do
          let tail ← readTail
          if some id = tail then writeTail lastNode
          free id
          return some clientAddress : ListCode (Option SockAddrIn)).Blind unstamped := by
        refine readTail_blind.bind fun tail => ?_
        split
        · exact (writeTail_blind lastNode).bind fun _ => (free_blind id).bind fun _ => trivial
        · exact (free_blind id).bind fun _ => trivial
      cases lastNode with
      | none => exact (writeHead_blind next).bind fun _ => rest
      | some last => exact (update_blind (fun _ => rfl) _).bind fun _ => rest

end ListCode

namespace ListTask

theorem code_blind (task : ListTask) (blind : task.blind = true) :
    task.code.Blind ClientList.unstamped := by
  cases task with
  | findSender address => exact (ListCode.findClientByAddress_blind address).bind fun _ => trivial
  | findBoth who address =>
      exact (ListCode.findClient_blind who).bind fun client =>
        (ListCode.findClientByAddress_blind address).bind fun _ => trivial
  | checkAdmin address =>
      refine ListCode.readHead_blind.bind fun head => ?_
      cases head with
      | none => trivial
      | some id => exact (ListCode.fetch_blind (fun _ => rfl) _).bind fun _ => trivial
  | announce response =>
      exact ListCode.rounds_blind.bind fun bound => ListCode.readHead_blind.bind fun node =>
        (ListCode.tell_blind response bound node).bind fun _ => trivial
  | announceFrom node response =>
      exact ListCode.rounds_blind.bind fun bound =>
        (ListCode.tell_blind response bound node).bind fun _ => trivial
  | scan => cases blind
  | insert request now =>
      exact (ListCode.addClientToList_blind _ _ now).bind fun _ => trivial
  | remove name => exact (ListCode.removeClientFromList_blind name).bind fun _ => trivial
  | removeNode node =>
      refine ListCode.readHead_blind.bind fun head => ?_
      cases head with
      | none => trivial
      | some first =>
          exact (ListCode.fetch_blind (fun _ => rfl) _).bind fun name =>
            (ListCode.removeClientFromList_blind name).bind fun _ => trivial
  | rename request =>
      exact (ListCode.findClientByAddress_blind _).bind fun client =>
        (ListCode.update_blind (fun _ => rfl) client).bind fun _ => trivial

end ListTask

theorem ClientList.unstamped_nodes {list : ClientList} (formed : list.WellFormed) :
    list.unstamped.WellFormed ∧
      list.unstamped.nodes = list.nodes.map (Prod.map id Client.unstamped) :=
  wellFormed_of_chain list.unstamped ((Heap.Bounded.map_iff _).mpr formed.bounded)
    (formed.chain.map Client.unstamped) <| by
      rw [List.getLast?_map, Option.map_map]
      exact formed.last

theorem ClientList.wellFormed_of_unstamped {list : ClientList}
    (formed : list.unstamped.WellFormed) : list.WellFormed := by
  obtain ⟨nodes, chain, same⟩ := formed.chain.of_map
  have last := formed.last
  rw [same, List.getLast?_map, Option.map_map] at last
  exact (wellFormed_of_chain list ((Heap.Bounded.map_iff _).mp formed.bounded) chain last).1

namespace ListTask

/-- Whole sections keep the list well formed. -/
theorem perform_wellFormed {list : ClientList} (formed : list.WellFormed) {task : ListTask}
    {left : ClientList × ListResult} (done : task.perform list = .ok left) :
    left.1.WellFormed := by
  have removed : ∀ {name : Name} {left : ClientList × Option SockAddrIn},
      removeClientFromList list name = .ok left → left.1.WellFormed := by
    intro name left taken
    obtain ⟨list', done, formed', -⟩ := formed.removeClientFromList_spec name
    rw [done] at taken
    cases taken
    exact formed'
  have read : ∀ task : ListTask, task.writes = false → task.perform list = .ok left →
      left.1.WellFormed := by
    intro task reading done
    rw [← run_eq] at done
    rw [(task.code_reads reading).run_mem done]
    exact formed
  cases task with
  | findSender | findBoth | checkAdmin | announce | announceFrom | scan => exact read _ rfl done
  | insert request now =>
      obtain ⟨list', added, formed', -⟩ :=
        formed.addClientToList_spec request.fromAddr (request.command.args 0) now
      simp only [perform, added] at done
      cases done
      exact formed'
  | remove name =>
      obtain ⟨⟨list', address⟩, taken, done⟩ := exists_of_bind_eq_ok done
      cases done
      exact removed taken
  | removeNode node =>
      simp only [perform] at done
      split at done
      · cases done
        exact formed
      · obtain ⟨requester, -, done⟩ := exists_of_bind_eq_ok done
        obtain ⟨⟨list', address⟩, taken, done⟩ := exists_of_bind_eq_ok done
        cases done
        exact removed taken
  | rename request =>
      obtain ⟨list', wrote, done⟩ := exists_of_bind_eq_ok done
      cases done
      rw [renameWrite, formed.findClientByAddress_eq] at wrote
      cases found : list.nodes.find? fun node => node.2.clientAddress == request.fromAddr with
      | none =>
          rw [found] at wrote
          cases wrote
      | some node =>
          rw [found, Option.map_some, ok_bind] at wrote
          exact (formed.write_spec_of_ok wrote).1

end ListTask

/-- A section on a list is a section on its view. -/
theorem ListTask.perform_unstamped {task : ListTask} (blind : task.blind = true)
    {list left : ClientList} {result : ListResult} (done : task.perform list = .ok (left, result)) :
    ∃ left', task.perform list.unstamped = .ok (left', result) ∧
      left'.unstamped = left.unstamped := by
  have alike := (task.code_blind blind).viewed_run list.unstamped_unstamped
  rw [run_eq, run_eq, done] at alike
  cases ran : task.perform list.unstamped with
  | error fault =>
      rw [ran] at alike
      cases alike
  | ok left' =>
      rw [ran] at alike
      obtain ⟨seen, found⟩ := Prod.mk.inj (Except.ok.inj alike)
      obtain ⟨left', result'⟩ := left'
      obtain rfl : result' = result := found
      exact ⟨left', rfl, seen⟩

theorem ListTask.reads_of_sighted {task : ListTask} (sighted : task.blind = false) :
    task.writes = false := by
  cases task with
  | scan => rfl
  | _ => cases sighted

/-- The sections of the client list, seen without the activity fields. -/
def listSections : Sections Fault ClientList ClientList ListTask ListResult where
  code := ListTask.code
  view := ClientList.unstamped
  writes := ListTask.writes
  blind := ListTask.blind
  reads := ListTask.code_reads
  blinded := ListTask.code_blind
  writers_blind := by
    intro task writes
    by_contra sighted
    rw [ListTask.reads_of_sighted (by simpa using sighted)] at writes
    cases writes

end MultithreadedChat
