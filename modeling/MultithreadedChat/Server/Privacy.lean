import MultithreadedChat.Server.ResponseBuffers

/-! # Who sees the text of a private message

The datagrams of a `sayto` go to its sender and to its recipient alone, and its text
changes neither the client list nor the history. But the text stays in the memory that
the handler leaves, and later responses are sent from that memory over a fixed size.
The text is private in every run in which nobody else is sent a byte that the `sayto`
has written and no handler has overwritten since
(`MultithreadedChat.private_text_hidden`).
-/

namespace MultithreadedChat

open CString LinkedList StackMemory

/-- The address of the first client of a name. -/
def Registry.addressOf (registry : Registry) (name : Name) : Option SockAddrIn :=
  (registry.named name).map fun node => node.2.clientAddress

/-- The address found for a name depends only on the addresses and names. -/
theorem Registry.addressOf_eq_find (registry : Registry) (name : Name) :
    registry.addressOf name =
      ((registry.map fun node => (node.2.clientAddress, node.2.clientName)).find?
        fun key => key.2 == name).map Prod.fst := by
  rw [List.find?_map, Option.map_map]
  rfl

theorem Registry.addressOf_mark (registry : Registry) (request : Request) (now : ℤ)
    (name : Name) : (registry.mark request now).addressOf name = registry.addressOf name := by
  rw [addressOf_eq_find, addressOf_eq_find]
  unfold mark
  split
  · congr 2
    unfold touch
    apply map_writeAt fun client => (client.clientAddress, client.clientName)
    intro client
    rfl
  · rfl

/-! ## Runs over the memory -/

/-- Handling events one after the other; the frame of a handler may lie anywhere, over
or beside those of the others. -/
def serveAll (layout : ℕ → StackFrame) :
    ℕ → Server → List ServerEvent → Except Fault (Server × List (Op SockAddrIn))
  | _, server, [] => .ok (server, [])
  | number, server, event :: events => do
    let (server, ops) ← (layout number).handle server event
    let (server, later) ← serveAll layout (number + 1) server events
    return (server, ops ++ later)

/-- The packets for an address in a run from the start. -/
def packetsTo (layout : ℕ → StackFrame) (memory : StackMemory) (address : SockAddrIn)
    (events : List ServerEvent) : Except Fault (List (SockAddrIn × List UInt8)) := do
  let (_, ops) ← serveAll layout 0 Server.start events
  return (memory.packets ops).filter fun packet => packet.1 = address

theorem serveAll_append (layout : ℕ → StackFrame) (number : ℕ) (server : Server)
    (earlier later : List ServerEvent) :
    serveAll layout number server (earlier ++ later) = do
      let (server, ops) ← serveAll layout number server earlier
      let (server, rest) ← serveAll layout (number + earlier.length) server later
      return (server, ops ++ rest) := by
  induction earlier generalizing number server with
  | nil =>
      simp only [List.nil_append, serveAll, ok_bind, List.length_nil, Nat.add_zero]
      cases serveAll layout number server later <;> rfl
  | cons event earlier ih =>
      simp only [List.cons_append, serveAll]
      cases (layout number).handle server event with
      | error fault => rfl
      | ok result =>
          simp only [ok_bind, ih]
          cases serveAll layout (number + 1) result.1 earlier with
          | error fault => rfl
          | ok result =>
              simp only [ok_bind, pure_eq_ok, List.length_cons, Nat.add_right_comm _ 1,
                ← Nat.add_assoc]
              cases serveAll layout (number + earlier.length + 1) result.1 later with
              | error fault => rfl
              | ok result => simp only [ok_bind, List.append_assoc]

section Handled

variable {frame : StackFrame} {server server' : Server} {ops : List (Op SockAddrIn)}

/-- What a handler does with the memory is that of the datagrams it sends. -/
theorem exists_sent {event : ServerEvent} (formed : server.clients.WellFormed)
    (handled : frame.handle server event = .ok (server', ops)) :
    ∃ sent, MultithreadedChat.handle server event = .ok (server', sent) ∧ CarriedBy sent ops := by
  obtain ⟨sent, done⟩ : ∃ sent, MultithreadedChat.handle server event = .ok (server', sent) := by
    cases event with
    | command request now =>
        obtain ⟨marked, marks, handled⟩ := exists_of_bind_eq_ok handled
        obtain ⟨result, done, handled⟩ := exists_of_bind_eq_ok handled
        obtain ⟨worked, -, handled⟩ := exists_of_bind_eq_ok handled
        cases handled
        refine ⟨result.2, ?_⟩
        rw [handle, spawnExecuteCommandThreads, marks, ok_bind, done]
    | managerPass currentTime =>
        obtain ⟨result, done, handled⟩ := exists_of_bind_eq_ok handled
        cases handled
        exact ⟨result.2, done⟩
  obtain ⟨others, same, carried⟩ := handle_carried frame formed done
  rw [handled] at same
  cases same
  exact ⟨sent, done, carried⟩

theorem serveAll_formed {layout : ℕ → StackFrame} {number : ℕ} {events : List ServerEvent}
    (formed : server.clients.WellFormed)
    (handled : serveAll layout number server events = .ok (server', ops)) :
    server'.clients.WellFormed := by
  induction events generalizing number server ops with
  | nil =>
      cases handled
      exact formed
  | cons event events ih =>
      obtain ⟨⟨next, own⟩, first, handled⟩ := exists_of_bind_eq_ok handled
      obtain ⟨⟨final, later⟩, rest, handled⟩ := exists_of_bind_eq_ok handled
      cases handled
      obtain ⟨sent, done, -⟩ := exists_sent formed first
      exact ih (handle_refines formed done).1 rest

end Handled

/-! ## The text of a private message -/

/-- Two requests of a `sayto` that differ at most in the text. -/
structure SameButText (first second : Request) : Prop where
  firstKind : first.command.kind = .sayto
  secondKind : second.command.kind = .sayto
  sender : first.fromAddr = second.fromAddr
  recipient : first.command.args 0 = second.command.args 0

section Sayto

variable {server server' : Server} (formed : server.clients.WellFormed) {request : Request}
include formed

/-- The datagrams of `sayto` go to the sender and to the recipient. -/
theorem sayto_addresses {sent : List Datagram} (done : sayto server request = .ok (server', sent)) :
    server' = server ∧ ∀ datagram ∈ sent, datagram.addr = request.fromAddr ∨
      server.registry.addressOf (request.command.args 0) = some datagram.addr := by
  cases stored : server.registry.atAddress request.fromAddr with
  | none =>
      rw [sayto_absent formed stored] at done
      cases done
  | some node =>
      obtain ⟨id, sender⟩ := node
      obtain ⟨found, next, loaded⟩ := findSender_present formed stored
      have requester : sender.clientAddress = request.fromAddr := by
        simpa using List.find?_some stored
      cases named : server.registry.named (request.command.args 0) with
      | none =>
          simp only [sayto, formed.findRecipient_eq, found, loaded, named, ok_bind,
            Option.map_none, pure_eq_ok] at done
          cases done
          refine ⟨rfl, ?_⟩
          intro datagram member
          obtain rfl := List.mem_singleton.mp member
          exact .inl requester
      | some recipient =>
          obtain ⟨next, reached⟩ := formed.load_eq (List.mem_of_find?_eq_some named)
          simp only [sayto, formed.findRecipient_eq, found, loaded, named, reached, ok_bind,
            Option.map_some, pure_eq_ok] at done
          cases done
          refine ⟨rfl, ?_⟩
          intro datagram member
          rcases List.mem_pair.mp member with rfl | rfl
          · exact .inr (by rw [Registry.addressOf, named, Option.map_some])
          · exact .inl requester

variable {frame : StackFrame} (kind : request.command.kind = .sayto) (now : ℤ)
include kind

/-- What a `sayto` leaves of the server does not depend on its text. -/
theorem handle_sayto :
    (frame.handle server (.command request now)).map Prod.fst =
      if request.fromAddr ∈ server.registry.addresses
      then updateClientActivity server.clients request.fromAddr now >>= fun clients =>
        pure { server with clients := clients }
      else .error .null := by
  obtain ⟨clients, marked, formed', -, nodes⟩ := markActivity_spec formed request now
  have formedThere : ({ server with clients := clients } : Server).clients.WellFormed := formed'
  have same : ({ server with clients := clients } : Server).registry.addresses =
      server.registry.addresses := by
    rw [Server.registry, nodes, Registry.addresses_mark]
  split
  · next known =>
    rw [← same, ← Registry.exists_atAddress] at known
    obtain ⟨⟨id, sender⟩, stored⟩ := known
    obtain ⟨sent, done⟩ := sayto_present formedThere stored
    have updated := marked
    rw [markActivity, if_pos (by rw [kind]; decide)] at updated
    rw [updated]
    simp only [StackFrame.handle, marked, executeCommand, kind, done, StackFrame.workerOps, ok_bind,
      pure_eq_ok, Except.map]
  · next unknown =>
    rw [← same] at unknown
    have absent := sayto_absent formedThere (Registry.atAddress_eq_none.mpr unknown)
    simp only [StackFrame.handle, marked, executeCommand, kind, absent, ok_bind, error_bind,
      Except.map]

/-- The packets of a `sayto` go to the sender and to the recipient. -/
theorem sayto_packets {ops : List (Op SockAddrIn)}
    (handled : frame.handle server (.command request now) = .ok (server', ops))
    {address : SockAddrIn} (notSender : address ≠ request.fromAddr)
    (notRecipient : server.registry.addressOf (request.command.args 0) ≠ some address)
    (memory : StackMemory) :
    (memory.packets ops).filter (fun packet => packet.1 = address) = [] := by
  obtain ⟨sent, done, carried⟩ := exists_sent formed handled
  obtain ⟨clients, same, formed', -, nodes⟩ := spawn_eq_execute formed request now
  have formedThere : ({ server with clients := clients } : Server).clients.WellFormed := formed'
  rw [handle, same, executeCommand, kind] at done
  obtain ⟨-, parties⟩ := sayto_addresses formedThere done
  have recipient : ({ server with clients := clients } : Server).registry.addressOf
      (request.command.args 0) = server.registry.addressOf (request.command.args 0) := by
    rw [Server.registry, nodes]
    exact Registry.addressOf_mark ..
  rw [List.filter_eq_nil_iff]
  intro packet member reached
  obtain rfl : packet.1 = address := by simpa using reached
  obtain ⟨datagram, sentIt, carries⟩ := carried.exists_carries memory member
  rcases parties datagram sentIt with sender | named
  · exact notSender (carries.addr.trans sender)
  · rw [recipient, ← carries.addr] at named
    exact notRecipient named

end Sayto

/-- Both requests fault alike, or leave the same server. -/
theorem handle_alike {server : Server} (formed : server.clients.WellFormed) (frame : StackFrame)
    {first second : Request} (alike : SameButText first second) (now : ℤ) :
    (∃ fault, frame.handle server (.command first now) = .error fault ∧
      frame.handle server (.command second now) = .error fault) ∨
    ∃ after firstOps secondOps, frame.handle server (.command first now) = .ok (after, firstOps) ∧
      frame.handle server (.command second now) = .ok (after, secondOps) := by
  have same : (frame.handle server (.command first now)).map Prod.fst =
      (frame.handle server (.command second now)).map Prod.fst := by
    rw [handle_sayto formed alike.firstKind, handle_sayto formed alike.secondKind, alike.sender]
  cases firstRan : frame.handle server (.command first now) with
  | error fault =>
      cases secondRan : frame.handle server (.command second now) with
      | error other =>
          rw [firstRan, secondRan] at same
          cases same
          exact .inl ⟨_, rfl, rfl⟩
      | ok result =>
          rw [firstRan, secondRan] at same
          cases same
  | ok result =>
      cases secondRan : frame.handle server (.command second now) with
      | error other =>
          rw [firstRan, secondRan] at same
          cases same
      | ok other =>
          rw [firstRan, secondRan] at same
          have left : result.1 = other.1 := Except.ok.inj same
          exact .inr ⟨result.1, result.2, other.2, rfl, by rw [left]⟩

/-- In the run, the address is neither the sender's nor the recipient's of the request
that comes after the earlier events. -/
def Bystander (layout : ℕ → StackFrame) (earlier : List ServerEvent) (request : Request)
    (address : SockAddrIn) : Prop :=
  ∀ server ops, serveAll layout 0 Server.start earlier = .ok (server, ops) →
    address ≠ request.fromAddr ∧
      server.registry.addressOf (request.command.args 0) ≠ some address

/-- What a request in a run does with the memory, and what the later events do. -/
def opsFrom (layout : ℕ → StackFrame) (earlier : List ServerEvent) (request : Request) (now : ℤ)
    (later : List ServerEvent) :
    Except Fault (List (Op SockAddrIn) × List (Op SockAddrIn)) := do
  let (server, _) ← serveAll layout 0 Server.start earlier
  let (server, own) ← (layout earlier.length).handle server (.command request now)
  let (_, rest) ← serveAll layout (earlier.length + 1) server later
  return (own, rest)

/-- In the run, no response to the address covers a byte that the handler of the request
has written, unless a handler has written it again. -/
def Covered (layout : ℕ → StackFrame) (earlier : List ServerEvent) (request : Request) (now : ℤ)
    (later : List ServerEvent) (address : SockAddrIn) : Prop :=
  ∀ own rest, opsFrom layout earlier request now later = .ok (own, rest) →
    KeptFrom address (written own) rest

/-- **When the text of a private message stays private.** Two runs that differ in the
text of one `sayto` send the same bytes to everybody but its sender and its recipient,
if they send nobody else what the `sayto` has left in the memory. -/
theorem private_text_hidden (layout : ℕ → StackFrame) (memory : StackMemory)
    {first second : Request} (alike : SameButText first second) (now : ℤ)
    (earlier later : List ServerEvent) {address : SockAddrIn}
    (bystander : Bystander layout earlier first address)
    (firstCovered : Covered layout earlier first now later address)
    (secondCovered : Covered layout earlier second now later address) :
    packetsTo layout memory address (earlier ++ .command first now :: later) =
      packetsTo layout memory address (earlier ++ .command second now :: later) := by
  simp only [packetsTo, serveAll_append, serveAll, Nat.zero_add]
  cases before : serveAll layout 0 Server.start earlier with
  | error fault => rfl
  | ok reached =>
      obtain ⟨server, opsBefore⟩ := reached
      have formed : server.clients.WellFormed :=
        serveAll_formed ClientList.empty_wellFormed.1 before
      obtain ⟨notSender, notRecipient⟩ := bystander server opsBefore before
      simp only [ok_bind]
      rcases handle_alike formed (layout earlier.length) alike now with
        ⟨fault, firstRan, secondRan⟩ | ⟨after, firstOps, secondOps, firstRan, secondRan⟩
      · simp only [firstRan, secondRan, error_bind]
      simp only [firstRan, secondRan, ok_bind]
      cases rest : serveAll layout (earlier.length + 1) after later with
      | error fault => rfl
      | ok result =>
          obtain ⟨final, opsAfter⟩ := result
          have kept : KeptFrom address (written firstOps ∪ written secondOps) opsAfter := by
            refine (firstCovered firstOps opsAfter ?_).union (secondCovered secondOps opsAfter ?_)
            · simp only [opsFrom, before, firstRan, rest, ok_bind, pure_eq_ok]
            · simp only [opsFrom, before, secondRan, rest, ok_bind, pure_eq_ok]
          have firstHidden :=
            sayto_packets formed alike.firstKind now firstRan notSender notRecipient
          have secondHidden := sayto_packets formed alike.secondKind now secondRan
            (alike.sender ▸ notSender) (alike.recipient ▸ notRecipient)
          simp only [ok_bind, pure_eq_ok, packets_append, List.filter_append, firstHidden,
            secondHidden, List.nil_append]
          rw [kept.packets_eq (after_eqOn _ firstOps secondOps)]

/-! ## Samples -/

/-- Private messages of some words to the client called B. -/
def samplePrivate (text : List String) : Request :=
  ⟨⟨.sayto, fun slot =>
      (("B" :: text)[slot.val]?).elim (.empty nameSize) fun word => ofBytes nameSize (ascii word)⟩,
    (sampleRequest .sayto 1 "").fromAddr⟩

/-- Twelve words of nineteen letters, and another one. -/
def sampleText (last : String) : List String :=
  List.replicate 12 "nineteen_characters" ++ [last]

/-- Three clients connect. -/
def sampleConnections : List ServerEvent :=
  [.command (sampleRequest .conn 1 "A") 0, .command (sampleRequest .conn 2 "B") 0,
    .command (sampleRequest .conn 3 "C") 0]

/-- The buffers of a handler beside each other, from an address on. -/
def sampleFrame (base : ℕ) : StackFrame
  | .message => base
  | .fullMessage => base + 256
  | .response => base + 544
  | .secondResponse => base + 1568

theorem samplePrivate_alike (first second : List String) :
    SameButText (samplePrivate first) (samplePrivate second) := ⟨rfl, rfl, rfl, rfl⟩

theorem sample_bystander (layout : ℕ → StackFrame) (text : List String) :
    Bystander layout sampleConnections (samplePrivate text)
      (sampleRequest .mute 3 "").fromAddr := by
  intro server ops handled
  have other : (sampleRequest .mute 3 "").fromAddr ≠ (sampleRequest .sayto 1 "").fromAddr := by
    decide
  refine ⟨other, ?_⟩
  have recipient : (serveAll layout 0 Server.start sampleConnections).map
      (fun result => result.1.registry.addressOf ((samplePrivate text).command.args 0)) =
        .ok (some (sampleRequest .conn 2 "").fromAddr) := rfl
  rw [handled] at recipient
  have found : server.registry.addressOf ((samplePrivate text).command.args 0) =
      some (sampleRequest .conn 2 "").fromAddr := Except.ok.inj recipient
  rw [found]
  decide

/-- A request that writes below a bound is covered if nothing is sent from below it later. -/
theorem covered_of_bound {layout : ℕ → StackFrame} {earlier later : List ServerEvent}
    {request : Request} {now : ℤ} (bound : ℕ)
    (apart : (opsFrom layout earlier request now later).toOption.all (fun ops =>
      ops.1.all (Op.writesBelow bound) && ops.2.all (Op.sendsAbove bound)) = true)
    (address : SockAddrIn) : Covered layout earlier request now later address := by
  intro own rest ran
  rw [ran] at apart
  obtain ⟨below, above⟩ := Bool.and_eq_true_iff.mp apart
  exact .of_bound (List.all_eq_true.mp below) (List.all_eq_true.mp above)

/-- A later response from memory of its own. -/
theorem private_text_hidden_apart :
    packetsTo (fun number => sampleFrame (4096 * number)) (fun _ => 0)
        (sampleRequest .mute 3 "").fromAddr
        (sampleConnections ++ .command (samplePrivate ["hello"]) 0 ::
          [.command (sampleRequest .mute 3 "x") 0]) =
      packetsTo (fun number => sampleFrame (4096 * number)) (fun _ => 0)
        (sampleRequest .mute 3 "").fromAddr
        (sampleConnections ++ .command (samplePrivate ["howdy"]) 0 ::
          [.command (sampleRequest .mute 3 "x") 0]) := by
  refine private_text_hidden _ _ (samplePrivate_alike ["hello"] ["howdy"]) 0 _ _
    (sample_bystander _ ["hello"]) (covered_of_bound 16384 ?_ _) (covered_of_bound 16384 ?_ _)
  · decide
  · decide

/-- The frames of the handlers end at one address, so the response of `mute` lies over the
second half of what `sayto` has answered its sender. -/
def sampleLayout (number : ℕ) : StackFrame :=
  if number = 4 then sampleFrame 1280 else sampleFrame 0

/-- A client that asks for a mute gets the end of a private message between others. -/
theorem private_text_sent :
    ¬ ∀ (layout : ℕ → StackFrame) (memory : StackMemory) (first second : Request),
      SameButText first second → ∀ (now : ℤ) (earlier later : List ServerEvent)
        (address : SockAddrIn), Bystander layout earlier first address →
      packetsTo layout memory address (earlier ++ .command first now :: later) =
        packetsTo layout memory address (earlier ++ .command second now :: later) := by
  intro hidden
  have same := hidden sampleLayout (fun _ => 0) _ _
    (samplePrivate_alike (sampleText "hello") (sampleText "howdy")) 0 sampleConnections
    [.command (sampleRequest .mute 3 "x") 0] _ (sample_bystander _ (sampleText "hello"))
  have bytes := congrArg (fun packets =>
    packets.toOption.map fun packets => packets.map fun packet => packet.2[17]?) same
  revert bytes
  decide

end MultithreadedChat
