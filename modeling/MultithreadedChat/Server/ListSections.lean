import MultithreadedChat.Foundation.CriticalSections
import MultithreadedChat.Server.Monitor
import MultithreadedChat.Server.Workers

/-! # The sections of the client list, access by access

The searches, the insertion, the removal, the renaming and the announcements again, with every
read and write of a field, of the head and of the tail as an access of its own. Run without
interference each does what its routine does (`MultithreadedChat.ListTask.run_eq`), and what a
worker or the connection manager does in a step with the list is such a section
(`MultithreadedChat.WorkerLoc.step_eq_perform`,
`MultithreadedChat.ManagerLoc.step_eq_perform`).
-/

namespace MultithreadedChat

open CString LinkedList CriticalSections

/-- A section that accesses the client list. -/
abbrev ListCode := Code Fault ClientList

namespace ListCode

/-- Reading fields of a node. -/
def fetch {Value : Type} (get : Cell Client → Value) (node : Ptr) : ListCode Value :=
  .read (fun list => do
    let cell ← list.heap.load node
    return get cell) .done

def readHead : ListCode Ptr := .read (fun list => .ok list.head) .done

def readTail : ListCode Ptr := .read (fun list => .ok list.tail) .done

def writeHead (node : Ptr) : ListCode Unit :=
  .write (fun list => .ok ({ list with head := node }, ())) .done

def writeTail (node : Ptr) : ListCode Unit :=
  .write (fun list => .ok ({ list with tail := node }, ())) .done

/-- Writing a field of a node. -/
def update (f : Cell Client → Cell Client) (node : Ptr) : ListCode Unit :=
  .write (fun list => do
    let heap ← list.heap.update f node
    return ({ list with heap := heap }, ())) .done

def malloc (node : Cell Client) : ListCode ℕ :=
  .write (fun list => .ok ({ list with heap := list.heap.allocate node }, list.heap.fresh)) .done

def free (id : ℕ) : ListCode Unit :=
  .write (fun list => .ok ({ list with heap := list.heap.release id }, ())) .done

/-- The bound on the rounds of a loop, which is not in the source. -/
def rounds : ListCode ℕ := .read (fun list => .ok list.heap.fresh) .done

/-- The bound on the rounds is used up. -/
def unending {Result : Type} : ListCode Result :=
  .read (fun _ => (.error .unending : Except Fault Result)) .done

/-- `while (node != NULL && !stop(node)) node = node->next;` -/
def seek (stop : Client → Bool) : ℕ → Ptr → ListCode Ptr
  | _, none => return none
  | 0, some _ => unending
  | bound + 1, some id => do
    if ← fetch (fun node => stop node.value) (some id) then return some id
    else
      let next ← fetch Cell.next (some id)
      seek stop bound next

/-- The same loop remembering the node before the current one. -/
def seekLink (stop : Client → Bool) : ℕ → Ptr → Ptr → ListCode (Ptr × Ptr)
  | _, last, none => return (last, none)
  | 0, _, some _ => unending
  | bound + 1, last, some id => do
    if ← fetch (fun node => stop node.value) (some id) then return (last, some id)
    else
      let next ← fetch Cell.next (some id)
      seekLink stop bound (some id) next

/-- The loop that sends the same response to every node. -/
def tell (response : List UInt8) : ℕ → Ptr → ListCode (List Datagram)
  | _, none => return []
  | 0, some _ => unending
  | bound + 1, some id => do
    let clientAddress ← fetch (fun node => node.value.clientAddress) (some id)
    let next ← fetch Cell.next (some id)
    let later ← tell response bound next
    return ⟨clientAddress, response, responseBufferSize⟩ :: later

/-- `find_client_by_address`. -/
def findClientByAddress (address : SockAddrIn) : ListCode Ptr := do
  let bound ← rounds
  let node ← readHead
  seek (fun client => client.clientAddress == address) bound node

/-- `find_client`. -/
def findClient (who : Name) : ListCode Ptr := do
  let bound ← rounds
  let iter ← readHead
  seek (fun client => client.clientName == who) bound iter

/-- `add_client_to_list`. -/
def addClientToList (addr : SockAddrIn) (name : Name) (now : ℤ) : ListCode Unit := do
  let newNode ← malloc ⟨⟨addr, ofBytes nameSize name.bytes, now, 0⟩, none⟩
  match ← readHead with
  | none =>
    writeHead (some newNode)
    writeTail (some newNode)
  | some _ =>
    let tail ← readTail
    update (fun node => { node with next := some newNode }) tail
    let tail ← readTail
    let next ← fetch Cell.next tail
    writeTail next

/-- `remove_client_from_list`. -/
def removeClientFromList (name : Name) : ListCode (Option SockAddrIn) := do
  let bound ← rounds
  let iter ← readHead
  let (lastNode, iter) ← seekLink (fun client => client.clientName == name) bound none iter
  match iter with
  | none => return none
  | some id =>
    let clientAddress ← fetch (fun node => node.value.clientAddress) (some id)
    let next ← fetch Cell.next (some id)
    match lastNode with
    | none => writeHead next
    | some _ => update (fun last => { last with next := next }) lastNode
    let tail ← readTail
    if some id = tail then writeTail lastNode
    free id
    return some clientAddress

section Alone

variable {Result : Type} (list : ClientList)

@[simp] theorem run_pure (result : Result) :
    (pure result : ListCode Result).run list = .ok (list, result) := rfl

@[simp] theorem run_fetch {Value : Type} (get : Cell Client → Value) (node : Ptr) :
    (fetch get node).run list =
      list.heap.load node >>= fun cell => .ok (list, get cell) := by
  cases loaded : list.heap.load node <;> simp [fetch, Code.run, loaded]

@[simp] theorem run_readHead : readHead.run list = .ok (list, list.head) := rfl

@[simp] theorem run_readTail : readTail.run list = .ok (list, list.tail) := rfl

@[simp] theorem run_writeHead (node : Ptr) :
    (writeHead node).run list = .ok ({ list with head := node }, ()) := rfl

@[simp] theorem run_writeTail (node : Ptr) :
    (writeTail node).run list = .ok ({ list with tail := node }, ()) := rfl

@[simp] theorem run_update (f : Cell Client → Cell Client) (node : Ptr) :
    (update f node).run list =
      list.heap.update f node >>= fun heap => .ok ({ list with heap := heap }, ()) := by
  cases wrote : list.heap.update f node <;> simp [update, Code.run, wrote]

@[simp] theorem run_malloc (node : Cell Client) : (malloc node).run list =
    .ok ({ list with heap := list.heap.allocate node }, list.heap.fresh) := rfl

@[simp] theorem run_free (id : ℕ) :
    (free id).run list = .ok ({ list with heap := list.heap.release id }, ()) := rfl

@[simp] theorem run_rounds : rounds.run list = .ok (list, list.heap.fresh) := rfl

@[simp] theorem run_unending : (unending : ListCode Result).run list = .error .unending := rfl

@[simp] theorem run_seek (stop : Client → Bool) (bound : ℕ) (node : Ptr) :
    (seek stop bound node).run list =
      list.heap.seek stop bound node >>= fun found => .ok (list, found) := by
  induction bound generalizing node with
  | zero => cases node <;> rfl
  | succ bound ih =>
      cases node with
      | none => rfl
      | some id =>
          rw [seek, Heap.seek, Code.run_bind, run_fetch]
          cases cell : list.heap.cell id with
          | none => simp [Heap.load, cell]
          | some node =>
              simp only [Heap.load, cell, ok_bind]
              split
              · rfl
              · rw [Code.run_bind, run_fetch]
                simp only [Heap.load, cell, ok_bind, ih]

@[simp] theorem run_seekLink (stop : Client → Bool) (bound : ℕ) (last node : Ptr) :
    (seekLink stop bound last node).run list =
      list.heap.seekLink stop bound last node >>= fun found => .ok (list, found) := by
  induction bound generalizing last node with
  | zero => cases node <;> rfl
  | succ bound ih =>
      cases node with
      | none => rfl
      | some id =>
          rw [seekLink, Heap.seekLink, Code.run_bind, run_fetch]
          cases cell : list.heap.cell id with
          | none => simp [Heap.load, cell]
          | some node =>
              simp only [Heap.load, cell, ok_bind]
              split
              · rfl
              · rw [Code.run_bind, run_fetch]
                simp only [Heap.load, cell, ok_bind, ih]

@[simp] theorem run_tell (response : List UInt8) (bound : ℕ) (node : Ptr) :
    (tell response bound node).run list =
      list.heap.collect bound node >>= fun reached => .ok (list, reached.map fun node =>
        ⟨node.2.clientAddress, response, responseBufferSize⟩) := by
  induction bound generalizing node with
  | zero => cases node <;> rfl
  | succ bound ih =>
      cases node with
      | none => rfl
      | some id =>
          rw [tell, Heap.collect, Code.run_bind, run_fetch]
          cases cell : list.heap.cell id with
          | none => simp [Heap.load, cell]
          | some node =>
              simp only [Heap.load, cell, ok_bind]
              rw [Code.run_bind, run_fetch]
              simp only [Heap.load, cell, ok_bind, Code.run_bind, ih]
              cases list.heap.collect bound node.next <;> rfl

@[simp] theorem run_findClientByAddress (address : SockAddrIn) :
    (findClientByAddress address).run list =
      MultithreadedChat.findClientByAddress list address >>= fun node => .ok (list, node) := by
  simp only [findClientByAddress, Code.run_bind, run_rounds, run_readHead, run_seek, ok_bind]
  rfl

@[simp] theorem run_findClient (who : Name) :
    (findClient who).run list =
      MultithreadedChat.findClient list who >>= fun node => .ok (list, node) := by
  simp only [findClient, Code.run_bind, run_rounds, run_readHead, run_seek, ok_bind]
  rfl

@[simp] theorem run_addClientToList (addr : SockAddrIn) (name : Name) (now : ℤ) :
    (addClientToList addr name now).run list =
      MultithreadedChat.addClientToList list addr name now >>= fun list => .ok (list, ()) := by
  simp only [addClientToList, MultithreadedChat.addClientToList, Code.run_bind, run_malloc,
    run_readHead, ok_bind]
  cases list.head with
  | none => rfl
  | some first =>
      simp only [Code.run_bind, run_readTail, run_update, ok_bind]
      cases tail : list.tail with
      | none => rfl
      | some last =>
          simp only [Heap.update]
          cases (list.heap.allocate _).cell last with
          | none => rfl
          | some cell => simp [Heap.store, Heap.load]

@[simp] theorem run_removeClientFromList (name : Name) :
    (removeClientFromList name).run list = MultithreadedChat.removeClientFromList list name := by
  simp only [removeClientFromList, MultithreadedChat.removeClientFromList, Code.run_bind,
    run_rounds, run_readHead, run_seekLink, ok_bind]
  cases list.heap.seekLink (fun client => client.clientName == name) list.heap.fresh none
      list.head with
  | error fault => rfl
  | ok found =>
      obtain ⟨lastNode, iter⟩ := found
      cases iter with
      | none => rfl
      | some id =>
          simp only [ok_bind, Code.run_bind, run_fetch]
          cases loaded : list.heap.load (some id) with
          | error fault => rfl
          | ok node =>
              cases lastNode with
              | none =>
                  simp only [ok_bind, Code.run_bind, loaded, run_writeHead, run_readTail]
                  split <;> rfl
              | some last =>
                  simp only [ok_bind, Code.run_bind, loaded, run_update]
                  cases list.heap.update (fun last => { last with next := node.next })
                      (some last) with
                  | error fault => rfl
                  | ok heap =>
                      simp only [ok_bind, run_readTail]
                      split <;> rfl

end Alone

section Reading

variable {Result : Type}

theorem seek_reads (stop : Client → Bool) (bound : ℕ) (node : Ptr) :
    (seek stop bound node).Reads := by
  induction bound generalizing node with
  | zero =>
      cases node with
      | none => trivial
      | some id => exact fun _ => trivial
  | succ bound ih =>
      cases node with
      | none => trivial
      | some id =>
          refine Code.Reads.bind (fun _ => trivial) fun found => ?_
          cases found with
          | true => trivial
          | false => exact Code.Reads.bind (fun _ => trivial) fun next => ih next

theorem tell_reads (response : List UInt8) (bound : ℕ) (node : Ptr) :
    (tell response bound node).Reads := by
  induction bound generalizing node with
  | zero =>
      cases node with
      | none => trivial
      | some id => exact fun _ => trivial
  | succ bound ih =>
      cases node with
      | none => trivial
      | some id =>
          refine Code.Reads.bind (fun _ => trivial) fun address => ?_
          refine Code.Reads.bind (fun _ => trivial) fun next => ?_
          exact Code.Reads.bind (ih next) fun _ => trivial

theorem findClientByAddress_reads (address : SockAddrIn) : (findClientByAddress address).Reads :=
  Code.Reads.bind (fun _ => trivial) fun bound =>
    Code.Reads.bind (fun _ => trivial) fun node => seek_reads _ bound node

theorem findClient_reads (who : Name) : (findClient who).Reads :=
  Code.Reads.bind (fun _ => trivial) fun bound =>
    Code.Reads.bind (fun _ => trivial) fun iter => seek_reads _ bound iter

end Reading

end ListCode

/-- The sections that the handlers and the connection manager run between a check-in and a
check-out. -/
inductive ListTask
  | findSender (address : SockAddrIn)
  | findBoth (who : Name) (address : SockAddrIn)
  | checkAdmin (address : SockAddrIn)
  | announce (response : List UInt8)
  | announceFrom (node : Ptr) (response : List UInt8)
  | scan (currentTime : ℤ)
  | insert (request : Request) (now : ℤ)
  | remove (name : Name)
  | removeNode (node : ℕ)
  | rename (request : Request)

/-- What a section has found or done. -/
inductive ListResult
  | sender (node : Ptr)
  | both (client fromWho : Ptr)
  | admin (isAdmin : Bool)
  | announced (sent : List Datagram)
  | selected (node : Option (ℕ × Client))
  | inserted
  | removed (clientAddress : Option SockAddrIn)
  | renamed

namespace ListTask

/-- The writers. -/
def writes : ListTask → Bool
  | insert .. | remove .. | removeNode .. | rename .. => true
  | _ => false

/-- All sections but one do not look at the activity fields. -/
def blind : ListTask → Bool
  | scan .. => false
  | _ => true

/-- The accesses of a section. -/
def code : ListTask → ListCode ListResult
  | findSender address => do
    let node ← ListCode.findClientByAddress address
    return .sender node
  | findBoth who address => do
    let client ← ListCode.findClient who
    let fromWho ← ListCode.findClientByAddress address
    return .both client fromWho
  | checkAdmin address => do
    match ← ListCode.readHead with
    | none => return .admin false
    | some id =>
      let isAdmin ← ListCode.fetch (fun head => head.value.clientAddress == address) (some id)
      return .admin isAdmin
  | announce response => do
    let bound ← ListCode.rounds
    let node ← ListCode.readHead
    let sent ← ListCode.tell response bound node
    return .announced sent
  | announceFrom node response => do
    let bound ← ListCode.rounds
    let sent ← ListCode.tell response bound node
    return .announced sent
  | scan currentTime => do
    let bound ← ListCode.rounds
    let node ← ListCode.readHead
    match ← ListCode.seek (fun client => client.overdue currentTime) bound node with
    | none => return .selected none
    | some id =>
      let chosen ← ListCode.fetch Cell.value (some id)
      return .selected (some (id, chosen))
  | insert request now => do
    ListCode.addClientToList request.fromAddr (request.command.args 0) now
    return .inserted
  | remove name => do
    let clientAddress ← ListCode.removeClientFromList name
    return .removed clientAddress
  | removeNode node => do
    match ← ListCode.readHead with
    | none => return .removed none
    | some _ =>
      let name ← ListCode.fetch (fun node => node.value.clientName) (some node)
      let clientAddress ← ListCode.removeClientFromList name
      return .removed clientAddress
  | rename request => do
    let client ← ListCode.findClientByAddress request.fromAddr
    ListCode.update (fun cell =>
      { cell with value := { cell.value with clientName := request.command.args 0 } }) client
    return .renamed

/-- What the routines do, run alone. -/
def perform (list : ClientList) : ListTask → Except Fault (ClientList × ListResult)
  | findSender address => do
    let node ← findClientByAddress list address
    return (list, .sender node)
  | findBoth who address => do
    let client ← findClient list who
    let fromWho ← findClientByAddress list address
    return (list, .both client fromWho)
  | checkAdmin address => do
    let isAdmin ← isAdmin list address
    return (list, .admin isAdmin)
  | announce response => do
    let sent ← broadcast list list.head response
    return (list, .announced sent)
  | announceFrom node response => do
    let sent ← broadcast list node response
    return (list, .announced sent)
  | scan currentTime => do
    match ← list.heap.seek (fun client => client.overdue currentTime) list.heap.fresh list.head with
    | none => return (list, .selected none)
    | some id =>
      let chosen ← list.heap.load (some id)
      return (list, .selected (some (id, chosen.value)))
  | insert request now => do
    let list ← addClientToList list request.fromAddr (request.command.args 0) now
    return (list, .inserted)
  | remove name => do
    let (list, clientAddress) ← removeClientFromList list name
    return (list, .removed clientAddress)
  | removeNode node =>
    match list.head with
    | none => return (list, .removed none)
    | some _ => do
      let requester ← list.heap.load (some node)
      let (list, clientAddress) ← removeClientFromList list requester.value.clientName
      return (list, .removed clientAddress)
  | rename request => do
    let list ← renameWrite list request
    return (list, .renamed)

/-- Run without interference, a section does what its routine does. -/
theorem run_eq (task : ListTask) (list : ClientList) : task.code.run list = task.perform list := by
  cases task with
  | findSender address =>
      simp only [code, perform, Code.run_bind, ListCode.run_findClientByAddress]
      cases findClientByAddress list address <;> rfl
  | findBoth who address =>
      simp only [code, perform, Code.run_bind, ListCode.run_findClient]
      cases findClient list who with
      | error fault => rfl
      | ok client =>
          simp only [ok_bind, ListCode.run_findClientByAddress]
          cases findClientByAddress list address <;> rfl
  | checkAdmin address =>
      simp only [code, perform, Code.run_bind, ListCode.run_readHead, isAdmin, ok_bind]
      cases list.head with
      | none => rfl
      | some id =>
          simp only [Code.run_bind, ListCode.run_fetch]
          cases list.heap.load (some id) <;> rfl
  | announce response =>
      simp only [code, perform, Code.run_bind, ListCode.run_rounds, ListCode.run_readHead,
        ListCode.run_tell, ok_bind, broadcast]
      cases list.heap.collect list.heap.fresh list.head <;> rfl
  | announceFrom node response =>
      simp only [code, perform, Code.run_bind, ListCode.run_rounds, ListCode.run_tell, ok_bind,
        broadcast]
      cases list.heap.collect list.heap.fresh node <;> rfl
  | scan currentTime =>
      simp only [code, perform, Code.run_bind, ListCode.run_rounds, ListCode.run_readHead,
        ListCode.run_seek, ok_bind]
      cases list.heap.seek (fun client => client.overdue currentTime) list.heap.fresh
          list.head with
      | error fault => rfl
      | ok selected =>
          cases selected with
          | none => rfl
          | some id =>
              simp only [ok_bind, Code.run_bind, ListCode.run_fetch]
              cases list.heap.load (some id) <;> rfl
  | insert request now =>
      simp only [code, perform, Code.run_bind, ListCode.run_addClientToList]
      cases addClientToList list request.fromAddr (request.command.args 0) now <;> rfl
  | remove name =>
      simp only [code, perform, Code.run_bind, ListCode.run_removeClientFromList]
      cases removeClientFromList list name <;> rfl
  | removeNode node =>
      simp only [code, perform, Code.run_bind, ListCode.run_readHead, ok_bind]
      cases list.head with
      | none => rfl
      | some first =>
          simp only [Code.run_bind, ListCode.run_fetch]
          cases list.heap.load (some node) with
          | error fault => rfl
          | ok requester =>
              simp only [ok_bind, ListCode.run_removeClientFromList]
              cases removeClientFromList list requester.value.clientName <;> rfl
  | rename request =>
      simp only [code, perform, Code.run_bind, ListCode.run_findClientByAddress, renameWrite]
      cases findClientByAddress list request.fromAddr with
      | error fault => rfl
      | ok client =>
          simp only [ok_bind, ListCode.run_update, ClientList.write]
          cases list.heap.update _ client <;> rfl

/-- Only writers write. -/
theorem code_reads (task : ListTask) (reading : task.writes = false) : task.code.Reads := by
  cases task with
  | findSender address =>
      exact Code.Reads.bind (ListCode.findClientByAddress_reads address) fun _ => trivial
  | findBoth who address =>
      exact Code.Reads.bind (ListCode.findClient_reads who) fun client =>
        Code.Reads.bind (ListCode.findClientByAddress_reads address) fun _ => trivial
  | checkAdmin address =>
      refine Code.Reads.bind (fun _ => trivial) fun head => ?_
      cases head with
      | none => trivial
      | some id => exact Code.Reads.bind (fun _ => trivial) fun _ => trivial
  | announce response =>
      exact Code.Reads.bind (fun _ => trivial) fun bound =>
        Code.Reads.bind (fun _ => trivial) fun node =>
          Code.Reads.bind (ListCode.tell_reads response bound node) fun _ => trivial
  | announceFrom node response =>
      exact Code.Reads.bind (fun _ => trivial) fun bound =>
        Code.Reads.bind (ListCode.tell_reads response bound node) fun _ => trivial
  | scan currentTime =>
      refine Code.Reads.bind (fun _ => trivial) fun bound => ?_
      refine Code.Reads.bind (fun _ => trivial) fun node => ?_
      refine Code.Reads.bind (ListCode.seek_reads _ bound node) fun selected => ?_
      cases selected with
      | none => trivial
      | some id => exact Code.Reads.bind (fun _ => trivial) fun _ => trivial
  | insert | remove | removeNode | rename => cases reading

end ListTask

end MultithreadedChat
