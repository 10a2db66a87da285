import MultithreadedChat.Server.Handlers

/-! # The registry of clients

What the commands and the connection manager do to the list of connected clients,
oldest first, without pointers: an abstract model of the handlers. A client is found
by its address or by its name, whichever comes first in the list.
-/

namespace MultithreadedChat

open LinkedList

/-- The connected clients, oldest first, each under the identity of its node. -/
abbrev Registry := List (ℕ × Client)

/-- A command with its arrival time, or a pass of the connection manager. -/
inductive ServerEvent
  | command (request : Request) (now : ℤ)
  | managerPass (currentTime : ℤ)

namespace Registry

variable (registry : Registry)

/-- The first client of an address. -/
def atAddress (address : SockAddrIn) : Option (ℕ × Client) :=
  registry.find? fun node => node.2.clientAddress == address

/-- The name of the first client of an address. -/
def nameAt (address : SockAddrIn) : Option Name :=
  (registry.atAddress address).map fun node => node.2.clientName

/-- The first client of a name. -/
def named (name : Name) : Option (ℕ × Client) :=
  registry.find? fun node => node.2.clientName == name

def ids : List ℕ := registry.map Prod.fst

def addresses : List SockAddrIn := registry.map fun node => node.2.clientAddress

def names : List Name := registry.map fun node => node.2.clientName

/-- The nodes with their addresses, which no command changes. -/
def places : List (ℕ × SockAddrIn) := registry.map fun node => (node.1, node.2.clientAddress)

/-- Changing the first client of an address. -/
def writeAt (address : SockAddrIn) (f : Client → Client) : Registry :=
  match registry.atAddress address with
  | none => registry
  | some node => writeNode node.1 f registry

/-- The client at an address was active. -/
def touch (address : SockAddrIn) (now : ℤ) : Registry :=
  registry.writeAt address (Client.touched now)

/-- The sender of anything but a connection was active. -/
def mark (request : Request) (now : ℤ) : Registry :=
  if request.command.kind ≠ .conn then registry.touch request.fromAddr now else registry

/-- The registry without the first client of a name. -/
def remove (name : Name) : Registry := registry.eraseP fun node => node.2.clientName == name

/-- Whether an address is the one of the oldest client. -/
def administers (address : SockAddrIn) : Bool :=
  registry.head?.any fun node => node.2.clientAddress == address

/-- The registry after the worker of a command; a new client gets the identity
`fresh`. -/
def execute (fresh : ℕ) (request : Request) (now : ℤ) : Registry :=
  match request.command.kind with
  | .conn => registry ++ [(fresh, ⟨request.fromAddr, request.command.args 0, now, 0⟩)]
  | .rename => registry.writeAt request.fromAddr
      fun client => { client with clientName := request.command.args 0 }
  | .disconn =>
    match registry.atAddress request.fromAddr with
    | none => registry
    | some node => registry.remove node.2.clientName
  | .kick =>
    if registry.administers request.fromAddr then registry.remove (request.command.args 0)
    else registry
  | _ => registry

/-- The registry after a command. -/
def serve (fresh : ℕ) (request : Request) (now : ℤ) : Registry :=
  (registry.mark request now).execute fresh request now

/-- The registry after a pass of the connection manager. -/
def pass (currentTime : ℤ) : Registry :=
  match registry.find? fun node => node.2.overdue currentTime with
  | none => registry
  | some node =>
    if node.2.pingSent = 0
    then writeNode node.1 (fun client => { client with pingSent := currentTime }) registry
    else registry.remove node.2.clientName

/-- The registry after an event. -/
def apply (fresh : ℕ) : ServerEvent → Registry
  | .command request now => registry.serve fresh request now
  | .managerPass currentTime => registry.pass currentTime

variable {registry}

theorem atAddress_eq_none {address : SockAddrIn} :
    registry.atAddress address = none ↔ address ∉ registry.addresses := by
  simp [atAddress, addresses]

theorem exists_atAddress {address : SockAddrIn} :
    (∃ node, registry.atAddress address = some node) ↔ address ∈ registry.addresses := by
  rw [← Option.isSome_iff_exists, ← Option.ne_none_iff_isSome, ne_eq, atAddress_eq_none, not_not]

/-- Writing to a node that keeps its address leaves the places. -/
theorem places_writeNode {id : ℕ} {f : Client → Client}
    (kept : ∀ client, (f client).clientAddress = client.clientAddress) :
    Registry.places (writeNode id f registry) = registry.places := by
  rw [places, places, writeNode, List.map_map]
  apply List.map_congr_left
  intro node _
  simp only [Function.comp_apply]
  split
  · rw [kept]
  · rfl

section Split

variable {before after : Registry} {id : ℕ} {client : Client} {address : SockAddrIn}

theorem atAddress_append_cons (missed : ∀ node ∈ before, node.2.clientAddress ≠ address)
    (found : client.clientAddress = address) :
    Registry.atAddress (before ++ (id, client) :: after) address = some (id, client) := by
  refine List.find?_eq_some_iff_append.mpr ⟨by simpa using found, before, after, rfl, ?_⟩
  intro node member
  simpa using missed node member

/-- A known address splits the registry at its first client. -/
theorem exists_split (known : address ∈ registry.addresses) :
    ∃ before id client after, registry = before ++ (id, client) :: after ∧
      (∀ node ∈ before, node.2.clientAddress ≠ address) ∧ client.clientAddress = address := by
  obtain ⟨⟨id, client⟩, found⟩ := exists_atAddress.mpr known
  obtain ⟨matched, before, after, shape, missed⟩ := List.find?_eq_some_iff_append.mp found
  refine ⟨before, id, client, after, shape, ?_, by simpa using matched⟩
  intro node member
  simpa using missed node member

/-- The first client of a name, when nobody before it has the name. -/
theorem named_append_cons (id : ℕ) (client : Client) (after : Registry)
    (missed : ∀ node ∈ before, node.2.clientName ≠ client.clientName) :
    Registry.named (before ++ (id, client) :: after) client.clientName = some (id, client) ∧
      Registry.remove (before ++ (id, client) :: after) client.clientName = before ++ after := by
  constructor
  · refine List.find?_eq_some_iff_append.mpr ⟨by simp, before, after, rfl, ?_⟩
    intro node member
    simpa using missed node member
  · have passed : ∀ node ∈ before, ¬ (node.2.clientName == client.clientName) = true := by
      intro node member
      simpa using missed node member
    rw [remove, List.eraseP_append_right _ passed, List.eraseP_cons_of_pos (by simp)]

/-- Changing the first client of an address, spelled out. -/
theorem writeAt_append_cons
    (distinct : ((before ++ (id, client) :: after).map Prod.fst).Nodup)
    (missed : ∀ node ∈ before, node.2.clientAddress ≠ address)
    (found : client.clientAddress = address) (f : Client → Client) :
    Registry.writeAt (before ++ (id, client) :: after) address f =
      before ++ (id, f client) :: after := by
  simp only [writeAt, atAddress_append_cons missed found]
  exact writeNode_append_cons distinct

end Split

theorem map_writeAt {α : Type*} (field : Client → α) {f : Client → Client}
    (kept : ∀ client, field (f client) = field client) (address : SockAddrIn) :
    (registry.writeAt address f).map (fun node => field node.2) =
      registry.map fun node => field node.2 := by
  unfold writeAt
  split
  · rfl
  · exact map_writeNode field kept

theorem places_writeAt {f : Client → Client}
    (kept : ∀ client, (f client).clientAddress = client.clientAddress) (address : SockAddrIn) :
    (registry.writeAt address f).places = registry.places := by
  unfold writeAt
  split
  · rfl
  · exact places_writeNode kept

/-- Removing by a name nobody has changes nothing. -/
theorem remove_of_named_none {name : Name} (missing : registry.named name = none) :
    registry.remove name = registry := by
  apply List.eraseP_of_forall_not
  intro node member
  exact List.find?_eq_none.mp missing node member

/-- Removing by a name takes out the first client of the name. -/
theorem exists_remove_split {name : Name} {node : ℕ × Client}
    (found : registry.named name = some node) :
    ∃ before after, registry = before ++ node :: after ∧
      registry.remove name = before ++ after := by
  obtain ⟨matched, before, after, shape, missed⟩ := List.find?_eq_some_iff_append.mp found
  obtain rfl : node.2.clientName = name := by simpa using matched
  refine ⟨before, after, shape, ?_⟩
  rw [shape]
  refine (named_append_cons node.1 node.2 after ?_).2
  intro other member
  simpa using missed other member

theorem ids_eq_places : registry.ids = registry.places.map Prod.fst := by
  rw [ids, places, List.map_map]
  rfl

variable (registry) in
theorem head_places : registry.places.head?.map Prod.fst = registry.head?.map Prod.fst := by
  cases registry <;> rfl

variable (registry) in
theorem find_places (address : SockAddrIn) :
    (registry.places.find? fun place => place.2 == address).map Prod.fst =
      (registry.atAddress address).map Prod.fst := by
  rw [places, List.find?_map, Option.map_map]
  rfl

/-- Only the address of the head matters for being the administrator. -/
theorem administers_iff {address : SockAddrIn} :
    registry.administers address = true ↔ registry.places.head?.map Prod.snd = some address := by
  cases registry with
  | nil => simp [administers, places]
  | cons node rest => simp [administers, places]

variable (registry) in
@[simp] theorem addresses_touch (address : SockAddrIn) (now : ℤ) :
    (registry.touch address now).addresses = registry.addresses := by
  unfold touch addresses
  apply map_writeAt
  intro client
  rfl

@[simp] theorem names_touch (address : SockAddrIn) (now : ℤ) :
    (registry.touch address now).names = registry.names := by
  unfold touch names
  apply map_writeAt
  intro client
  rfl

theorem exists_nameAt {address : SockAddrIn} :
    (∃ name, registry.nameAt address = some name) ↔ address ∈ registry.addresses := by
  rw [← exists_atAddress, nameAt, ← Option.isSome_iff_exists, ← Option.isSome_iff_exists,
    Option.isSome_map]

variable (registry) in
@[simp] theorem addresses_mark (request : Request) (now : ℤ) :
    (registry.mark request now).addresses = registry.addresses := by
  unfold mark
  split
  · exact registry.addresses_touch ..
  · rfl

@[simp] theorem places_mark (request : Request) (now : ℤ) :
    (registry.mark request now).places = registry.places := by
  unfold mark
  split
  · unfold touch
    apply places_writeAt
    intro client
    rfl
  · rfl

@[simp] theorem names_mark (request : Request) (now : ℤ) :
    (registry.mark request now).names = registry.names := by
  unfold mark
  split
  · exact names_touch ..
  · rfl

/-- The name found for an address depends only on the addresses and names. -/
theorem nameAt_eq_find (address : SockAddrIn) :
    registry.nameAt address =
      ((registry.map fun node => (node.2.clientAddress, node.2.clientName)).find?
        fun key => key.1 == address).map Prod.snd := by
  rw [List.find?_map, Option.map_map]
  rfl

@[simp] theorem nameAt_touch (address sender : SockAddrIn) (now : ℤ) :
    (registry.touch sender now).nameAt address = registry.nameAt address := by
  rw [nameAt_eq_find, nameAt_eq_find]
  congr 2
  unfold touch
  apply map_writeAt fun client => (client.clientAddress, client.clientName)
  intro client
  rfl

@[simp] theorem nameAt_mark (address : SockAddrIn) (request : Request) (now : ℤ) :
    (registry.mark request now).nameAt address = registry.nameAt address := by
  unfold mark
  split
  · exact nameAt_touch ..
  · rfl

end Registry

/-- The registry a server holds. -/
def Server.registry (server : Server) : Registry := server.clients.nodes

namespace ClientList.WellFormed

variable {list : ClientList} (formed : list.WellFormed)
include formed

theorem load_eq {id : ℕ} {client : Client} (member : (id, client) ∈ list.nodes) :
    ∃ next, list.heap.load (some id) = .ok ⟨client, next⟩ := by
  obtain ⟨next, at_cell⟩ := formed.chain.mem_cell member
  exact ⟨next, by rw [Heap.load, at_cell]⟩

theorem broadcast_eq (response : List UInt8) :
    broadcast list list.head response =
      .ok (list.nodes.map fun node => ⟨node.2.clientAddress, response, responseBufferSize⟩) := by
  simp only [broadcast, formed.chain.collect_eq formed.length_le, ok_bind, pure_eq_ok]

/-- Activity of an address that is not in the list changes nothing. -/
theorem updateClientActivity_absent {address : SockAddrIn} (now : ℤ)
    (absent : Registry.atAddress list.nodes address = none) :
    updateClientActivity list address now = .ok list := by
  obtain ⟨list', updated, -, -, effect⟩ := formed.updateClientActivity_spec address now
  rw [Registry.atAddress] at absent
  rw [absent] at effect
  rw [updated, effect]

theorem updateClientActivity_touch (address : SockAddrIn) (now : ℤ) :
    ∃ list', updateClientActivity list address now = .ok list' ∧ list'.WellFormed ∧
      list'.heap.fresh = list.heap.fresh ∧
      list'.nodes = Registry.touch list.nodes address now := by
  obtain ⟨list', updated, formed', fresh, effect⟩ := formed.updateClientActivity_spec address now
  refine ⟨list', updated, formed', fresh, ?_⟩
  unfold Registry.touch Registry.writeAt Registry.atAddress
  cases found : list.nodes.find? fun node => node.2.clientAddress == address <;>
    rw [found] at effect
  · rw [effect]
  · exact effect

end ClientList.WellFormed

/-! ## Searches in the registry -/

namespace ClientList.WellFormed

variable {server : Server} (formed : server.clients.WellFormed)
include formed

theorem findSender_eq (address : SockAddrIn) :
    findClientByAddress server.clients address =
      .ok ((server.registry.atAddress address).map Prod.fst) :=
  formed.findClientByAddress_eq address

/-- The node found for an address, if it can be followed, holds the name of the address. -/
theorem nameAt_of_load {address : SockAddrIn} {cell : Cell Client}
    (loaded : server.clients.heap.load ((server.registry.atAddress address).map Prod.fst) =
      .ok cell) : server.registry.nameAt address = some cell.value.clientName := by
  cases found : server.registry.atAddress address with
  | none =>
      rw [found] at loaded
      cases loaded
  | some node =>
      obtain ⟨link, here⟩ := formed.load_eq (List.mem_of_find?_eq_some found)
      rw [found, Option.map_some, here] at loaded
      cases loaded
      rw [Registry.nameAt, found, Option.map_some]

theorem findRecipient_eq (who : Name) :
    findClient server.clients who = .ok ((server.registry.named who).map Prod.fst) :=
  formed.findClient_eq who

theorem scan_eq (currentTime : ℤ) :
    server.clients.heap.seek (fun client => client.overdue currentTime)
        server.clients.heap.fresh server.clients.head =
      .ok ((server.registry.find? fun node => node.2.overdue currentTime).map Prod.fst) :=
  formed.chain.seek_eq _ formed.length_le

theorem isAdmin_eq (address : SockAddrIn) :
    isAdmin server.clients address = .ok (server.registry.administers address) := by
  rw [isAdmin, formed.head_eq, Server.registry]
  cases shape : server.clients.nodes with
  | nil => rfl
  | cons node rest =>
      obtain ⟨id, client⟩ := node
      have member : (id, client) ∈ server.clients.nodes := by
        rw [shape]
        exact List.mem_cons_self
      obtain ⟨next, loaded⟩ := formed.load_eq member
      simp only [List.head?_cons, Option.map_some, loaded, ok_bind, pure_eq_ok,
        Registry.administers, Option.any_some]

/-- The first client of the name goes, and its address is returned. -/
theorem remove_eq (name : Name) :
    ∃ clients, removeClientFromList server.clients name =
        .ok (clients, (server.registry.named name).map (·.2.clientAddress)) ∧
      clients.WellFormed ∧ clients.heap.fresh = server.clients.heap.fresh ∧
      clients.nodes = server.registry.remove name :=
  formed.removeClientFromList_spec name

end ClientList.WellFormed

/-- Marking activity leaves a well-formed list, with the registry's effect. -/
theorem markActivity_spec {server : Server} (formed : server.clients.WellFormed)
    (request : Request) (now : ℤ) :
    ∃ clients, markActivity server request now = .ok { server with clients := clients } ∧
      clients.WellFormed ∧ clients.heap.fresh = server.clients.heap.fresh ∧
      clients.nodes = server.registry.mark request now := by
  unfold markActivity Registry.mark
  by_cases other : request.command.kind ≠ .conn
  · obtain ⟨clients, updated, formed', fresh, nodes⟩ :=
      formed.updateClientActivity_touch request.fromAddr now
    refine ⟨clients, ?_, formed', fresh, ?_⟩
    · rw [if_pos other, updated]
      rfl
    · rw [if_pos other]
      exact nodes
  · refine ⟨server.clients, ?_, formed, rfl, ?_⟩
    · rw [if_neg other]
      rfl
    · rw [if_neg other]
      rfl

/-- Activity of an unknown sender changes nothing. -/
theorem markActivity_absent {server : Server} (formed : server.clients.WellFormed)
    {request : Request} (now : ℤ) (absent : request.fromAddr ∉ server.registry.addresses) :
    markActivity server request now = .ok server := by
  unfold markActivity
  split
  · rw [formed.updateClientActivity_absent now (Registry.atAddress_eq_none.mpr absent)]
    rfl
  · rfl

end MultithreadedChat
