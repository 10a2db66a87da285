import MultithreadedChat.Command
import MultithreadedChat.Foundation.LinkedList

/-! # The server's client list

The linked list of connected clients with its head and tail pointers, and the
routines that search, extend, change and shrink it, cell by cell.

A list is well formed when the chain from its head ends at `NULL` and its tail is
the last cell (`MultithreadedChat.ClientList.WellFormed`). On a well-formed list no
routine faults, every routine leaves a well-formed list, and its effect is that of
the corresponding operation on the list of nodes: `List.find?` for the searches,
an append for `add_client_to_list`, `List.eraseP` for `remove_client_from_list`.
-/

namespace MultithreadedChat

open CString LinkedList

/-- The fields of `client_node_t` apart from its link. -/
structure Client where
  clientAddress : SockAddrIn
  clientName : Name
  lastActive : ℤ
  pingSent : ℤ
  deriving DecidableEq

/-- The client list: its cells, and `head` and `tail` of `main`. -/
structure ClientList where
  heap : Heap Client
  head : Ptr
  tail : Ptr

namespace ClientList

def empty : ClientList := ⟨.empty, none, none⟩

/-- The nodes reached from the head, in order, with their identities. -/
def nodes (list : ClientList) : List (ℕ × Client) :=
  match list.heap.collect list.heap.fresh list.head with
  | .ok nodes => nodes
  | .error _ => []

end ClientList

/-- `add_client_to_list`; `now` is what `time` returns. -/
def addClientToList (list : ClientList) (addr : SockAddrIn) (name : Name) (now : ℤ) :
    Except Fault ClientList := do
  let newNode : Cell Client := ⟨⟨addr, ofBytes nameSize name.bytes, now, 0⟩, none⟩
  let id := list.heap.fresh
  let heap := list.heap.allocate newNode
  match list.head with
  | none => return ⟨heap, some id, some id⟩
  | some _ =>
    let heap ← heap.update (fun node => { node with next := some id }) list.tail
    return ⟨heap, list.head, some id⟩

/-- Writing fields of a node through a pointer to it. -/
def ClientList.write (list : ClientList) (node : Ptr) (f : Client → Client) :
    Except Fault ClientList := do
  let heap ← list.heap.update (fun cell => { cell with value := f cell.value }) node
  return { list with heap := heap }

/-- A node that has just been written to can be followed. -/
theorem ClientList.exists_load_of_write {list list' : ClientList} {node : Ptr}
    {f : Client → Client} (written : list.write node f = .ok list') :
    ∃ cell, list'.heap.load node = .ok cell := by
  obtain ⟨heap, updated, written⟩ := exists_of_bind_eq_ok written
  cases written
  exact Heap.exists_load_of_update updated

/-- `find_client_by_address`. -/
def findClientByAddress (list : ClientList) (address : SockAddrIn) : Except Fault Ptr :=
  list.heap.seek (fun client => client.clientAddress == address) list.heap.fresh list.head

/-- `find_client`. -/
def findClient (list : ClientList) (who : Name) : Except Fault Ptr :=
  list.heap.seek (fun client => client.clientName == who) list.heap.fresh list.head

/-- The assignments of `update_client_activity`. -/
def Client.touched (now : ℤ) (client : Client) : Client :=
  { client with lastActive := now, pingSent := 0 }

/-- `update_client_activity`; `now` is what `time` returns. -/
def updateClientActivity (list : ClientList) (addr : SockAddrIn) (now : ℤ) :
    Except Fault ClientList := do
  match ← findClientByAddress list addr with
  | none => return list
  | some node => list.write node (Client.touched now)

/-- `remove_client_from_list`: the list without the first node of that name, and the
address of that node. -/
def removeClientFromList (list : ClientList) (name : Name) :
    Except Fault (ClientList × Option SockAddrIn) := do
  let (lastNode, iter) ← list.heap.seekLink (fun client => client.clientName == name)
    list.heap.fresh none list.head
  match iter with
  | none => return (list, none)
  | some id =>
    let node ← list.heap.load iter
    let tail := if iter = list.tail then lastNode else list.tail
    match lastNode with
    | none => return (⟨list.heap.release id, node.next, tail⟩, some node.value.clientAddress)
    | some _ =>
      let heap ← list.heap.update (fun last => { last with next := node.next }) lastNode
      return (⟨heap.release id, list.head, tail⟩, some node.value.clientAddress)

/-- Changing the fields of one node of a list of nodes. -/
def writeNode (id : ℕ) (f : Client → Client) (nodes : List (ℕ × Client)) : List (ℕ × Client) :=
  nodes.map fun node => if node.1 = id then (node.1, f node.2) else node

section WriteNode

variable {id : ℕ} {f : Client → Client} {nodes before after : List (ℕ × Client)}

/-- Nodes of other identities stay as they are. -/
theorem writeNode_of_notMem (absent : id ∉ nodes.map Prod.fst) : writeNode id f nodes = nodes := by
  unfold writeNode
  conv_rhs => rw [← List.map_id nodes]
  apply List.map_congr_left
  intro node member
  have different : node.1 ≠ id := fun same => absent (same ▸ List.mem_map_of_mem member)
  rw [if_neg different, id_eq]

/-- Where identities are distinct, one node changes. -/
theorem writeNode_append_cons {client : Client}
    (distinct : ((before ++ (id, client) :: after).map Prod.fst).Nodup) :
    writeNode id f (before ++ (id, client) :: after) = before ++ (id, f client) :: after := by
  simp only [List.map_append, List.map_cons, List.nodup_append, List.nodup_cons] at distinct
  obtain ⟨-, ⟨behind, -⟩, apart⟩ := distinct
  have ahead : id ∉ before.map Prod.fst := fun member => apart id member id (by simp) rfl
  have split : writeNode id f (before ++ (id, client) :: after) =
      writeNode id f before ++ (id, f client) :: writeNode id f after := by
    simp [writeNode]
  rw [split, writeNode_of_notMem ahead, writeNode_of_notMem behind]

/-- A field that the change leaves alone reads the same in every node. -/
theorem map_writeNode {α : Type*} (field : Client → α)
    (kept : ∀ client, field (f client) = field client) :
    (writeNode id f nodes).map (fun node => field node.2) = nodes.map fun node => field node.2 := by
  rw [writeNode, List.map_map]
  apply List.map_congr_left
  intro node _
  simp only [Function.comp_apply]
  split
  · exact kept node.2
  · rfl

end WriteNode

namespace ClientList

/-- The chain from the head ends at `NULL`, and the tail is its last cell. -/
structure WellFormed (list : ClientList) : Prop where
  bounded : list.heap.Bounded
  chain : Segment list.heap list.head list.nodes none
  last : list.tail = list.nodes.getLast?.map Prod.fst

/-- A chain from the head to `NULL` is the list of nodes. -/
theorem nodes_of_chain {list : ClientList} {nodes : List (ℕ × Client)}
    (bounded : list.heap.Bounded) (chain : Segment list.heap list.head nodes none) :
    list.nodes = nodes := by
  rw [ClientList.nodes, chain.collect_eq (chain.length_le_fresh bounded)]

theorem wellFormed_of_chain (list : ClientList) {nodes : List (ℕ × Client)}
    (bounded : list.heap.Bounded) (chain : Segment list.heap list.head nodes none)
    (last : list.tail = nodes.getLast?.map Prod.fst) : list.WellFormed ∧ list.nodes = nodes := by
  have same := nodes_of_chain bounded chain
  exact ⟨⟨bounded, same ▸ chain, same ▸ last⟩, same⟩

theorem empty_wellFormed : empty.WellFormed ∧ empty.nodes = [] :=
  wellFormed_of_chain empty (fun _ _ => rfl) (.nil none) rfl

namespace WellFormed

variable {list : ClientList} (formed : list.WellFormed)
include formed

theorem nodup : (list.nodes.map Prod.fst).Nodup := formed.chain.nodup

theorem length_le : list.nodes.length ≤ list.heap.fresh :=
  formed.chain.length_le_fresh formed.bounded

theorem lt_fresh {id : ℕ} (member : id ∈ list.nodes.map Prod.fst) : id < list.heap.fresh :=
  formed.chain.lt_fresh formed.bounded member

/-- The list is empty exactly when its head is `NULL`. -/
theorem head_eq : list.head = list.nodes.head?.map Prod.fst := formed.chain.first_eq

theorem findClientByAddress_eq (address : SockAddrIn) :
    findClientByAddress list address =
      .ok ((list.nodes.find? fun node => node.2.clientAddress == address).map Prod.fst) :=
  formed.chain.seek_eq _ formed.length_le

theorem findClient_eq (who : Name) :
    findClient list who =
      .ok ((list.nodes.find? fun node => node.2.clientName == who).map Prod.fst) :=
  formed.chain.seek_eq _ formed.length_le

/-- Writing through a pointer to a node changes that node only. -/
theorem write_spec {id : ℕ} (member : id ∈ list.nodes.map Prod.fst) (f : Client → Client) :
    ∃ list', list.write (some id) f = .ok list' ∧ list'.WellFormed ∧
      list'.nodes = writeNode id f list.nodes ∧ list'.heap.fresh = list.heap.fresh := by
  obtain ⟨⟨same, client⟩, present, rfl⟩ := List.mem_map.mp member
  obtain ⟨next, at_cell⟩ := formed.chain.mem_cell present
  refine ⟨⟨list.heap.store same ⟨f client, next⟩, list.head, list.tail⟩, ?_, ?_⟩
  · simp only [ClientList.write, Heap.update, at_cell]
    rfl
  · have chain := formed.chain.modify at_cell f
    have ends : list.tail = (writeNode same f list.nodes).getLast?.map Prod.fst := by
      rw [formed.last, writeNode, List.getLast?_map, Option.map_map]
      congr 1
      funext node
      simp only [Function.comp_apply]
      split <;> rfl
    obtain ⟨formed', nodes⟩ := wellFormed_of_chain
      ⟨list.heap.store same ⟨f client, next⟩, list.head, list.tail⟩
      (formed.bounded.store at_cell _) chain ends
    exact ⟨formed', nodes, rfl⟩

/-- Writing through any pointer that can be followed changes the node it leads to, if
that is in the list. -/
theorem write_spec_of_ok {id : ℕ} {f : Client → Client} {list' : ClientList}
    (done : list.write (some id) f = .ok list') :
    list'.WellFormed ∧ list'.nodes = writeNode id f list.nodes ∧
      list'.heap.fresh = list.heap.fresh := by
  by_cases member : id ∈ list.nodes.map Prod.fst
  · obtain ⟨other, wrote, formed', nodes, fresh⟩ := formed.write_spec member f
    obtain rfl : other = list' := Except.ok.inj (wrote.symm.trans done)
    exact ⟨formed', nodes, fresh⟩
  · cases at_cell : list.heap.cell id with
    | none =>
        simp only [ClientList.write, Heap.update, at_cell, error_bind, reduceCtorEq] at done
    | some cell =>
        simp only [ClientList.write, Heap.update, at_cell, ok_bind, pure_eq_ok] at done
        cases done
        have chain : Segment (list.heap.store id { cell with value := f cell.value }) list.head
            list.nodes none := by
          refine formed.chain.congr fun other visited => Function.update_of_ne ?_ ..
          rintro rfl
          exact member visited
        obtain ⟨formed', nodes⟩ := wellFormed_of_chain
          ⟨list.heap.store id { cell with value := f cell.value }, list.head, list.tail⟩
          (formed.bounded.store at_cell _) chain formed.last
        exact ⟨formed', nodes.trans (writeNode_of_notMem member).symm, rfl⟩

/-- The new client comes last, under a fresh identity. -/
theorem addClientToList_spec (addr : SockAddrIn) (name : Name) (now : ℤ) :
    ∃ list', addClientToList list addr name now = .ok list' ∧ list'.WellFormed ∧
      list'.nodes = list.nodes ++ [(list.heap.fresh, ⟨addr, name, now, 0⟩)] ∧
      list'.heap.fresh = list.heap.fresh + 1 := by
  have chain := formed.chain
  rcases List.eq_nil_or_concat list.nodes with alone | ⟨before, ⟨id, client⟩, shape⟩
  · have noHead : list.head = none := by
      rw [formed.head_eq, alone]
      rfl
    refine ⟨⟨list.heap.allocate ⟨⟨addr, name, now, 0⟩, none⟩, some list.heap.fresh,
      some list.heap.fresh⟩, ?_, ?_⟩
    · simp only [addClientToList, noHead, ofBytes_bytes]
      rfl
    · obtain ⟨formed', nodes⟩ := wellFormed_of_chain
        ⟨list.heap.allocate ⟨⟨addr, name, now, 0⟩, none⟩, some list.heap.fresh,
          some list.heap.fresh⟩
        (formed.bounded.allocate _) (.cons (Function.update_self ..) (.nil _)) rfl
      rw [alone]
      exact ⟨formed', nodes, rfl⟩
  · rw [List.concat_eq_append] at shape
    have ends : list.tail = some id := by
      rw [formed.last, shape]
      simp
    rw [shape] at chain
    obtain ⟨-, next, at_cell, rest⟩ := chain.entry_inv
    cases rest
    have idBelow : id < list.heap.fresh := formed.lt_fresh (by rw [shape]; simp)
    have at_tail : (list.heap.allocate ⟨⟨addr, name, now, 0⟩, none⟩).cell id =
        some ⟨client, none⟩ :=
      (Function.update_of_ne (Nat.ne_of_lt idBelow) ..).trans at_cell
    obtain ⟨first, heads⟩ : ∃ first, list.head = some first := by
      rw [formed.head_eq, shape]
      cases before <;> exact ⟨_, rfl⟩
    refine ⟨⟨(list.heap.allocate ⟨⟨addr, name, now, 0⟩, none⟩).store id
      ⟨client, some list.heap.fresh⟩, list.head, some list.heap.fresh⟩, ?_, ?_⟩
    · simp only [addClientToList, heads, ends, ofBytes_bytes, Heap.update, at_tail]
      rfl
    · obtain ⟨formed', nodes⟩ := wellFormed_of_chain
        ⟨(list.heap.allocate ⟨⟨addr, name, now, 0⟩, none⟩).store id
          ⟨client, some list.heap.fresh⟩, list.head, some list.heap.fresh⟩
        ((formed.bounded.allocate _).store at_tail _) (chain.link formed.bounded) (by simp)
      refine ⟨formed', nodes.trans ?_, rfl⟩
      rw [shape, List.append_assoc]
      rfl

/-- The first node of an address, if any, gets new activity fields. -/
theorem updateClientActivity_spec (addr : SockAddrIn) (now : ℤ) :
    ∃ list', updateClientActivity list addr now = .ok list' ∧ list'.WellFormed ∧
      list'.heap.fresh = list.heap.fresh ∧
      (match list.nodes.find? fun node => node.2.clientAddress == addr with
        | none => list' = list
        | some node => list'.nodes = writeNode node.1
            (Client.touched now) list.nodes) := by
  simp only [updateClientActivity, formed.findClientByAddress_eq]
  cases found : list.nodes.find? fun node => node.2.clientAddress == addr with
  | none => exact ⟨list, rfl, formed, rfl, rfl⟩
  | some node =>
      obtain ⟨list', wrote, formed', nodes, fresh⟩ := formed.write_spec
        (List.mem_map_of_mem (List.mem_of_find?_eq_some found)) (Client.touched now)
      exact ⟨list', wrote, formed', fresh, nodes⟩

/-- The first node of a name, when it is the head, is taken out. -/
private theorem remove_head {name : Name} {id : ℕ} {client : Client} {after : List (ℕ × Client)}
    (shape : list.nodes = (id, client) :: after) (matched : (client.clientName == name) = true) :
    ∃ list', removeClientFromList list name = .ok (list', some client.clientAddress) ∧
      list'.WellFormed ∧ list'.heap.fresh = list.heap.fresh ∧ list'.nodes = after := by
  have chain := formed.chain
  have bound := formed.length_le
  rw [shape] at chain bound
  obtain ⟨-, next, at_cell, -⟩ := chain.cons_inv
  have sought := chain.seekLink_head (fun client => client.clientName == name) matched bound none
  have last : (if some id = list.tail then none else list.tail) = after.getLast?.map Prod.fst := by
    rw [formed.last, shape]
    rcases List.eq_nil_or_concat after with alone | ⟨front, ⟨final, kept⟩, more⟩
    · simp [alone]
    · have distinct := chain.nodup
      rw [more] at distinct ⊢
      have different : id ≠ final := by
        rintro rfl
        simp at distinct
      simp [different, List.getLast?_cons]
  refine ⟨⟨list.heap.release id, next, if some id = list.tail then none else list.tail⟩, ?_, ?_⟩
  · have loaded : list.heap.load (some id) = .ok ⟨client, next⟩ := by
      simp only [Heap.load, at_cell]
    simp only [removeClientFromList, sought, loaded, ok_bind, pure_eq_ok]
  · obtain ⟨formed', nodes⟩ := wellFormed_of_chain
      ⟨list.heap.release id, next, if some id = list.tail then none else list.tail⟩
      (formed.bounded.release id) (chain.unlink_first at_cell) last
    exact ⟨formed', rfl, nodes⟩

/-- The first node of a name, when another is before it, is taken out. -/
private theorem remove_inner {name : Name} {id previous : ℕ} {client kept : Client}
    {front after : List (ℕ × Client)}
    (shape : list.nodes = (front ++ [(previous, kept)]) ++ (id, client) :: after)
    (skipped : ∀ node ∈ front ++ [(previous, kept)], (node.2.clientName == name) = false)
    (matched : (client.clientName == name) = true) :
    ∃ list', removeClientFromList list name = .ok (list', some client.clientAddress) ∧
      list'.WellFormed ∧ list'.heap.fresh = list.heap.fresh ∧
      list'.nodes = (front ++ [(previous, kept)]) ++ after := by
  have chain := formed.chain
  have bound := formed.length_le
  rw [shape] at chain bound
  obtain ⟨-, next, at_cell, -⟩ := chain.entry_inv
  have sought := chain.seekLink_eq (fun client => client.clientName == name) skipped matched
    bound none
  rw [List.append_assoc, List.singleton_append] at chain
  obtain ⟨-, link, at_previous, -⟩ := chain.entry_inv
  have last : (if some id = list.tail then some previous else list.tail) =
      (front ++ (previous, kept) :: after).getLast?.map Prod.fst := by
    rw [formed.last, shape]
    rcases List.eq_nil_or_concat after with alone | ⟨middle, ⟨final, other⟩, more⟩
    · simp [alone]
    · have distinct := chain.nodup
      rw [more] at distinct ⊢
      have different : id ≠ final := by
        rintro rfl
        simp [List.nodup_append] at distinct
      simp [different, List.getLast?_append, List.getLast?_cons]
  refine ⟨⟨(list.heap.store previous ⟨kept, next⟩).release id, list.head,
    if some id = list.tail then some previous else list.tail⟩, ?_, ?_⟩
  · have loaded : list.heap.load (some id) = .ok ⟨client, next⟩ := by
      simp only [Heap.load, at_cell]
    have linked : list.heap.update (fun last => { last with next := next }) (some previous) =
        .ok (list.heap.store previous ⟨kept, next⟩) := by
      simp only [Heap.update, at_previous]
    simp only [removeClientFromList, sought, List.getLast?_append, List.getLast?_singleton,
      Option.some_or, Option.map_some, loaded, linked, ok_bind, pure_eq_ok]
  · obtain ⟨formed', nodes⟩ := wellFormed_of_chain
      ⟨(list.heap.store previous ⟨kept, next⟩).release id, list.head,
        if some id = list.tail then some previous else list.tail⟩
      ((formed.bounded.store at_previous _).release id) (chain.unlink at_cell) last
    refine ⟨formed', rfl, nodes.trans ?_⟩
    simp

/-- The first node of a name, if any, is taken out, and its address returned. -/
theorem removeClientFromList_spec (name : Name) :
    ∃ list', removeClientFromList list name = .ok (list',
        (list.nodes.find? fun node => node.2.clientName == name).map (·.2.clientAddress)) ∧
      list'.WellFormed ∧ list'.heap.fresh = list.heap.fresh ∧
      list'.nodes = list.nodes.eraseP fun node => node.2.clientName == name := by
  cases found : list.nodes.find? fun node => node.2.clientName == name with
  | none =>
      have missed : ∀ node ∈ list.nodes, (node.2.clientName == name) = false := fun node member =>
        Bool.eq_false_iff.mpr (List.find?_eq_none.mp found node member)
      obtain ⟨link, sought⟩ := formed.chain.seekLink_none
        (fun client => client.clientName == name) missed formed.length_le none
      refine ⟨list, ?_, formed, rfl, ?_⟩
      · simp only [removeClientFromList, sought]
        rfl
      · exact (List.eraseP_of_forall_not fun node member => by simp [missed node member]).symm
  | some node =>
      obtain ⟨id, client⟩ := node
      obtain ⟨matched, before, after, shape, missed⟩ := List.find?_eq_some_iff_append.mp found
      have skipped : ∀ node ∈ before, (node.2.clientName == name) = false := fun node member => by
        simpa using missed node member
      have removed : (list.nodes.eraseP fun node => node.2.clientName == name) =
          before ++ after := by
        rw [shape, List.eraseP_append_right _ fun node member => by simp [skipped node member]]
        simp [matched]
      rw [removed]
      rcases List.eq_nil_or_concat before with first | ⟨front, ⟨previous, kept⟩, inner⟩
      · rw [first] at shape ⊢
        exact formed.remove_head shape matched
      · rw [List.concat_eq_append] at inner
        rw [inner] at shape skipped ⊢
        exact formed.remove_inner shape skipped matched

end WellFormed

end ClientList

end MultithreadedChat
