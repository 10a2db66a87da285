import MultithreadedChat.Foundation.ActivityLog
import MultithreadedChat.Server.History
import MultithreadedChat.Server.Workers

/-! # The order of broadcasts

The workers of several say commands, with every `udp_socket_write` of a traversal as a
step of its own. Nothing orders workers that run at the same time, but a worker that has
finished before another command is dequeued is ahead of that command everywhere, and
each worker serves every client once (`MultithreadedChat.broadcasts_in_order`).
-/

namespace MultithreadedChat

open CString LinkedList

/-- Where the worker of a say is: at a section of its handler, or in the traversal,
about to write to a node. -/
inductive SayLoc
  | readHead (request : Request)
  | findSender (request : Request) (node : Ptr)
  | format (command : Command) (node fromWho : Ptr)
  | record (message : List UInt8) (node : Ptr)
  | traversal (response : List UInt8) (node : Ptr)

namespace SayLoc

/-- The next step of the worker of a say; the last one leaves no location. -/
def step (server : Server) : SayLoc → Except Fault (Server × List Datagram × Option SayLoc)
  | .readHead request => return (server, [], some (.findSender request server.clients.head))
  | .findSender request node => do
    let fromWho ← findClientByAddress server.clients request.fromAddr
    return (server, [], some (.format request.command node fromWho))
  | .format command node fromWho => do
    let sender ← server.clients.heap.load fromWho
    return (server, [], some (.record (fullMessage sender.value.clientName command) node))
  | .record message node =>
    return (server.record message, [], some (.traversal (sayResponse message) node))
  | .traversal _ none => return (server, [], none)
  | .traversal response (some node) => do
    let client ← server.clients.heap.load (some node)
    return (server, [⟨client.value.clientAddress, response, responseBufferSize⟩],
      some (.traversal response client.next))

/-- The lines that a step appends to the history. -/
def stores (server : Server) : SayLoc → List (List UInt8)
  | .record message _ => if server.chatHistoryc < maxMsgs then [message] else []
  | .readHead _ | .findSender _ _ | .format _ _ _ | .traversal _ _ => []

/-- The worker of a say run alone to its end, within so many steps. -/
def run : ℕ → Server → SayLoc → Except Fault (Server × List Datagram)
  | 0, _, _ => .error .unending
  | steps + 1, server, loc => do
    let (server, sent, next) ← loc.step server
    match next with
    | none => return (server, sent)
    | some loc =>
      let (server, rest) ← run steps server loc
      return (server, sent ++ rest)

/-- A traversal that is not interrupted reaches every node. -/
theorem run_traversal {server : Server} (response : List UInt8) {node : Ptr}
    {rest : List (ℕ × Client)} (chain : Segment server.clients.heap node rest none) :
    run (rest.length + 1) server (.traversal response node) =
      .ok (server, rest.map fun node => ⟨node.2.clientAddress, response, responseBufferSize⟩) := by
  induction rest generalizing node with
  | nil =>
      cases chain
      rfl
  | cons entry rest ih =>
      obtain ⟨id, client⟩ := entry
      obtain ⟨rfl, next, cell, chain⟩ := chain.cons_inv
      have loaded : server.clients.heap.load (some id) = .ok ⟨client, next⟩ := by
        rw [Heap.load, cell]
      rw [List.length_cons, run, step, loaded]
      simp only [ok_bind, pure_eq_ok, ih chain, List.map_cons, List.singleton_append]

/-- A worker that is not interrupted does what `say` does. -/
theorem say_eq_run {server : Server} (formed : server.clients.WellFormed) (request : Request) :
    say server request = run (server.registry.length + 5) server (.readHead request) := by
  simp only [say, formed.broadcast_eq]
  rw [run, step]
  simp only [ok_bind, pure_eq_ok, List.nil_append]
  rw [run, step]
  cases findClientByAddress server.clients request.fromAddr with
  | error fault => rfl
  | ok fromWho =>
      simp only [ok_bind, pure_eq_ok, List.nil_append]
      rw [run, step]
      cases server.clients.heap.load fromWho with
      | error fault => rfl
      | ok sender =>
          have chain : Segment (server.record
              (fullMessage sender.value.clientName request.command)).clients.heap
              server.clients.head server.registry none := by
            rw [Server.record_clients]
            exact formed.chain
          simp only [ok_bind, pure_eq_ok, List.nil_append]
          rw [run, step]
          simp only [ok_bind, pure_eq_ok, List.nil_append, run_traversal _ chain]
          rfl

end SayLoc

/-! ## The system -/

/-- A say command that has been dequeued, and where its worker is unless it is done. -/
structure SayTask where
  request : Request
  loc : Option SayLoc

/-- The server and the workers of the say commands in the order in which these were
dequeued. `stored` and `sent` are kept for the specification: which worker appended
which line, and which worker sent which datagram. -/
structure SayServer where
  server : Server
  workers : List SayTask
  stored : List (ℕ × List UInt8)
  sent : List (ℕ × Datagram)

/-- The queue manager dequeues a say command, or a worker does its next step. -/
inductive SayLabel
  | dequeue (request : Request) (now : ℤ)
  | work (worker : ℕ)

inductive SayStep : SayServer → SayLabel → SayServer → Prop
  | dequeue {state : SayServer} (request : Request) (now : ℤ) {server : Server} :
      request.command.kind = .say → markActivity state.server request now = .ok server →
      SayStep state (.dequeue request now) { state with
        server := server
        workers := state.workers ++ [⟨request, some (.readHead request)⟩] }
  | work {state : SayServer} (worker : ℕ) {request : Request} {loc : SayLoc} {server : Server}
      {sent : List Datagram} {next : Option SayLoc} :
      state.workers[worker]? = some ⟨request, some loc⟩ →
      loc.step state.server = .ok (server, sent, next) →
      SayStep state (.work worker)
        { server := server
          workers := state.workers.set worker ⟨request, next⟩
          stored := state.stored ++ (loc.stores state.server).map (worker, ·)
          sent := state.sent ++ sent.map (worker, ·) }

/-- All runs of say commands from a state of the server. -/
def saySystem (start : Server) : TransitionSystem SayServer SayLabel where
  initial state := state = ⟨start, [], [], []⟩
  step := SayStep

/-- The worker of a command is done. -/
def SayServer.Done (state : SayServer) (worker : ℕ) : Prop :=
  ∃ request, state.workers[worker]? = some ⟨request, none⟩

/-- The commands as activities: they start when they are dequeued. -/
def sayActivities (start : Server) : (saySystem start).Activities where
  started state := state.workers.length
  Done := SayServer.Done
  started_le before label after moved := by
    cases moved with
    | dequeue => simp
    | work => rw [List.length_set]
  done_kept before label after worker moved done := by
    obtain ⟨request, done⟩ := done
    cases moved with
    | dequeue =>
        have old := (List.getElem?_eq_some_iff.mp done).1
        exact ⟨request, by rw [List.getElem?_append_left old, done]⟩
    | work worker' running =>
        refine ⟨request, ?_⟩
        rw [List.getElem?_set_ne, done]
        rintro rfl
        rw [running] at done
        cases done

/-- What a worker that takes a step adds to a log. -/
theorem work_active {state : SayServer} {worker : ℕ} {request : Request} {loc : SayLoc}
    (running : state.workers[worker]? = some ⟨request, some loc⟩) :
    worker < state.workers.length ∧ ¬ state.Done worker := by
  refine ⟨(List.getElem?_eq_some_iff.mp running).1, ?_⟩
  rintro ⟨other, done⟩
  rw [running] at done
  cases done

/-- The workers of the lines that were appended. -/
def storedLog (start : Server) : (sayActivities start).Log where
  entries state := state.stored.map Prod.fst
  initially := by
    rintro state rfl
    rfl
  grows before label after moved := by
    cases moved with
    | dequeue => exact ⟨[], (List.append_nil _).symm, fun _ member => by cases member⟩
    | @work worker _ loc _ _ _ running =>
        refine ⟨((loc.stores before.server).map (worker, ·)).map Prod.fst, List.map_append, ?_⟩
        intro activity member
        obtain ⟨entry, added, rfl⟩ := List.mem_map.mp member
        obtain ⟨line, -, rfl⟩ := List.mem_map.mp added
        exact work_active running

/-- The workers of the datagrams sent to an address. -/
def SayServer.sendersTo (state : SayServer) (addr : SockAddrIn) : List ℕ :=
  (state.sent.filter fun entry => entry.2.addr = addr).map Prod.fst

def sentLog (start : Server) (addr : SockAddrIn) : (sayActivities start).Log where
  entries state := state.sendersTo addr
  initially := by
    rintro state rfl
    rfl
  grows before label after moved := by
    cases moved with
    | dequeue => exact ⟨[], (List.append_nil _).symm, fun _ member => by cases member⟩
    | @work worker _ loc _ sent _ running =>
        refine ⟨((sent.map (worker, ·)).filter fun entry => entry.2.addr = addr).map Prod.fst,
          ?_, ?_⟩
        · rw [SayServer.sendersTo, List.filter_append, List.map_append]
          rfl
        · intro activity member
          obtain ⟨entry, kept, rfl⟩ := List.mem_map.mp member
          obtain ⟨datagram, -, rfl⟩ := List.mem_map.mp (List.mem_of_mem_filter kept)
          exact work_active running

/-! ## What a worker has done -/

/-- The datagrams of a broadcast. -/
def broadcastTo (places : List (ℕ × SockAddrIn)) (response : List UInt8) : List Datagram :=
  places.map fun place => ⟨place.2, response, responseBufferSize⟩

/-- The message was appended, unless the history is full. -/
def Recorded (server : Server) (message : List UInt8) (stored : List (List UInt8)) : Prop :=
  stored = [message] ∨ stored = [] ∧ maxMsgs ≤ server.chatHistoryc

/-- What the worker of a request has appended and sent when it is at a location, if the
clients are those of `start`. -/
inductive SayProgress (start server : Server) (request : Request) :
    Option SayLoc → List (List UInt8) → List Datagram → Prop
  | readHead : SayProgress start server request (some (.readHead request)) [] []
  | findSender : SayProgress start server request
      (some (.findSender request (start.registry.places.head?.map Prod.fst))) [] []
  | format : SayProgress start server request
      (some (.format request.command (start.registry.places.head?.map Prod.fst)
        ((start.registry.places.find? fun place => place.2 == request.fromAddr).map Prod.fst)))
      [] []
  | record {sender : Name} : start.registry.nameAt request.fromAddr = some sender →
      SayProgress start server request (some (.record (fullMessage sender request.command)
        (start.registry.places.head?.map Prod.fst))) [] []
  | traversal {sender : Name} {stored : List (List UInt8)} {passed rest : List (ℕ × SockAddrIn)} :
      start.registry.nameAt request.fromAddr = some sender →
      Recorded server (fullMessage sender request.command) stored →
      start.registry.places = passed ++ rest →
      SayProgress start server request
        (some (.traversal (sayResponse (fullMessage sender request.command))
          (rest.head?.map Prod.fst)))
        stored (broadcastTo passed (sayResponse (fullMessage sender request.command)))
  | done {sender : Name} {stored : List (List UInt8)} :
      start.registry.nameAt request.fromAddr = some sender →
      Recorded server (fullMessage sender request.command) stored →
      SayProgress start server request none stored
        (broadcastTo start.registry.places (sayResponse (fullMessage sender request.command)))

section Progress

variable {start server server' : Server} {request : Request} {stored : List (List UInt8)}
  {sent : List Datagram}

/-- A history does not shrink, so progress stays. -/
theorem SayProgress.mono {loc : Option SayLoc}
    (progress : SayProgress start server request loc stored sent)
    (longer : server.chatHistoryc ≤ server'.chatHistoryc) :
    SayProgress start server' request loc stored sent := by
  have kept : ∀ {message}, Recorded server message stored → Recorded server' message stored :=
    fun recorded => recorded.imp_right fun ⟨nothing, full⟩ => ⟨nothing, full.trans longer⟩
  cases progress with
  | readHead => exact .readHead
  | findSender => exact .findSender
  | format => exact .format
  | record named => exact .record named
  | traversal named recorded shape => exact .traversal named (kept recorded) shape
  | done named recorded => exact .done named (kept recorded)

/-- A step of a worker appends at most one line, and changes nothing else. -/
theorem SayLoc.step_effect {loc : SayLoc} {new : List Datagram} {next : Option SayLoc}
    (moved : loc.step server = .ok (server', new, next)) :
    server'.clients = server.clients ∧ server.chatHistoryc ≤ server'.chatHistoryc ∧
      ∀ lines, server.Remembers lines → server'.Remembers (lines ++ loc.stores server) := by
  have silent : server' = server → loc.stores server = [] →
      server'.clients = server.clients ∧ server.chatHistoryc ≤ server'.chatHistoryc ∧
        ∀ lines, server.Remembers lines → server'.Remembers (lines ++ loc.stores server) := by
    rintro rfl nothing
    refine ⟨rfl, le_rfl, fun lines remembers => ?_⟩
    rwa [nothing, List.append_nil]
  cases loc with
  | readHead =>
      cases moved
      exact silent rfl rfl
  | findSender | format =>
      obtain ⟨found, -, moved⟩ := exists_of_bind_eq_ok moved
      cases moved
      exact silent rfl rfl
  | traversal response node =>
      cases node with
      | none =>
          cases moved
          exact silent rfl rfl
      | some node =>
          obtain ⟨client, -, moved⟩ := exists_of_bind_eq_ok moved
          cases moved
          exact silent rfl rfl
  | record message node =>
      cases moved
      refine ⟨Server.record_clients .., ?_, fun lines remembers => ?_⟩
      · unfold Server.record
        split <;> simp
      · by_cases room : server.chatHistoryc < maxMsgs
        · have few : lines.length < maxMsgs := remembers.count ▸ room
          have appended := remembers.record message few.le
          rw [List.take_of_length_le (by rw [List.length_append]; exact few)] at appended
          rwa [SayLoc.stores, if_pos room]
        · rw [Server.record, SayLoc.stores, if_neg room, if_neg room, List.append_nil]
          exact remembers

/-- A step of a worker makes progress. -/
theorem SayProgress.step (formed : server.clients.WellFormed)
    (places : server.registry.places = start.registry.places)
    (names : ∀ address, server.registry.nameAt address = start.registry.nameAt address)
    {loc : SayLoc} (progress : SayProgress start server request (some loc) stored sent)
    {new : List Datagram} {next : Option SayLoc}
    (moved : loc.step server = .ok (server', new, next)) :
    SayProgress start server' request next (stored ++ loc.stores server) (sent ++ new) := by
  cases progress with
  | readHead =>
      cases moved
      rw [formed.head_eq, ← Server.registry, ← Registry.head_places, places]
      exact .findSender
  | findSender =>
      rw [SayLoc.step, formed.findSender_eq] at moved
      cases moved
      rw [← Registry.find_places, places]
      exact .format
  | format =>
      rw [← places, Registry.find_places] at moved
      obtain ⟨sender, loaded, moved⟩ := exists_of_bind_eq_ok moved
      cases moved
      rw [places]
      refine .record ?_
      rw [← names]
      exact formed.nameAt_of_load loaded
  | @record sender named =>
      cases moved
      -- nobody has been sent the message yet
      have split : start.registry.places = [] ++ start.registry.places := rfl
      refine .traversal named ?_ split
      by_cases room : server.chatHistoryc < maxMsgs
      · exact .inl (if_pos room)
      · refine .inr ⟨if_neg room, ?_⟩
        rw [Server.record, if_neg room]
        exact Nat.le_of_not_lt room
  | @traversal sender _ passed rest named recorded shape =>
      cases rest with
      | nil =>
          cases moved
          rw [List.append_nil] at shape
          rw [List.append_nil, SayLoc.stores, List.append_nil, ← shape]
          exact .done named recorded
      | cons place rest =>
          obtain ⟨front, behind, whole, rfl, same⟩ := List.map_eq_append_iff.mp (places.trans shape)
          obtain ⟨node, behind, rfl, rfl, rfl⟩ := List.map_eq_cons_iff.mp same
          have chain := formed.chain
          rw [← Server.registry, whole] at chain
          obtain ⟨-, link, cell, rest⟩ := chain.entry_inv
          have loaded : server.clients.heap.load (some node.1) = .ok ⟨node.2, link⟩ := by
            rw [Heap.load, cell]
          have moved : SayLoc.step server (.traversal _ (some node.1)) = _ := moved
          rw [SayLoc.step, loaded] at moved
          cases moved
          have extended (response : List UInt8) : broadcastTo (Registry.places front) response ++
              [⟨node.2.clientAddress, response, responseBufferSize⟩] =
                broadcastTo (Registry.places front ++ [(node.1, node.2.clientAddress)])
                  response := by
            rw [broadcastTo, broadcastTo, List.map_append]
            rfl
          rw [SayLoc.stores, List.append_nil, rest.first_eq, ← Registry.head_places]
          refine extended _ ▸ .traversal named recorded ?_
          rw [shape, List.append_assoc]
          rfl

end Progress

/-! ## Runs -/

/-- The clients stay, the history is the old one with the lines that were appended, and
every worker has appended and sent what belongs to its location. -/
structure SayServer.Consistent (start : Server) (lines : List (List UInt8)) (state : SayServer) :
    Prop where
  formed : state.server.clients.WellFormed
  places : state.server.registry.places = start.registry.places
  names : ∀ address, state.server.registry.nameAt address = start.registry.nameAt address
  remembers : state.server.Remembers (lines ++ state.stored.map Prod.snd)
  known : ∀ worker, worker ∈ state.stored.map Prod.fst ∨ worker ∈ state.sent.map Prod.fst →
    worker < state.workers.length
  progress : ∀ worker request loc, state.workers[worker]? = some ⟨request, loc⟩ →
    SayProgress start state.server request loc (entriesOf state.stored worker)
      (entriesOf state.sent worker)

namespace SayServer.Consistent

variable {start : Server} {lines : List (List UInt8)} {before : SayServer}
  (consistent : before.Consistent start lines)
include consistent

theorem dequeue {request : Request} {now : ℤ} {server : Server}
    (marked : markActivity before.server request now = .ok server) :
    SayServer.Consistent start lines { before with
      server := server
      workers := before.workers ++ [⟨request, some (.readHead request)⟩] } := by
  obtain ⟨clients, done, formed, -, nodes⟩ := markActivity_spec consistent.formed request now
  obtain rfl := Except.ok.inj (done.symm.trans marked)
  have registry : Server.registry { before.server with clients := clients } =
      before.server.registry.mark request now := nodes
  constructor
  · exact formed
  · rw [registry, Registry.places_mark, consistent.places]
  · intro address
    rw [registry, Registry.nameAt_mark, consistent.names]
  · exact ⟨consistent.remembers.count, consistent.remembers.lines⟩
  · intro worker logged
    rw [List.length_append]
    exact Nat.lt_add_right _ (consistent.known worker logged)
  · intro worker other loc here
    rcases getElem?_snoc here with old | ⟨rfl, new⟩
    · exact (consistent.progress worker other loc old).mono le_rfl
    · cases new
      rw [entriesOf_eq_nil fun logged => Nat.lt_irrefl _ (consistent.known _ (.inl logged)),
        entriesOf_eq_nil fun logged => Nat.lt_irrefl _ (consistent.known _ (.inr logged))]
      exact .readHead

theorem work {worker : ℕ} {request : Request} {loc : SayLoc} {server : Server}
    {sent : List Datagram} {next : Option SayLoc}
    (running : before.workers[worker]? = some ⟨request, some loc⟩)
    (stepped : loc.step before.server = .ok (server, sent, next)) :
    SayServer.Consistent start lines
      { server := server
        workers := before.workers.set worker ⟨request, next⟩
        stored := before.stored ++ (loc.stores before.server).map (worker, ·)
        sent := before.sent ++ sent.map (worker, ·) } := by
  obtain ⟨clients, longer, remembers⟩ := SayLoc.step_effect stepped
  have registry : server.registry = before.server.registry := by
    rw [Server.registry, clients, Server.registry]
  have active := (List.getElem?_eq_some_iff.mp running).1
  constructor
  · rw [clients]
    exact consistent.formed
  · rw [registry, consistent.places]
  · intro address
    rw [registry, consistent.names]
  · have appended := remembers _ consistent.remembers
    rwa [List.append_assoc, ← map_snd_append] at appended
  · intro other logged
    rw [List.length_set]
    rcases logged.imp mem_activities_append mem_activities_append with (old | rfl) | (old | rfl)
    · exact consistent.known other (.inl old)
    · exact active
    · exact consistent.known other (.inr old)
    · exact active
  · intro other request' loc' here
    by_cases same : worker = other
    · subst same
      rw [List.getElem?_set_self active] at here
      cases here
      rw [entriesOf_append_self, entriesOf_append_self]
      exact (consistent.progress worker request _ running).step consistent.formed
        consistent.places consistent.names stepped
    · rw [List.getElem?_set_ne same] at here
      rw [entriesOf_append_of_ne same, entriesOf_append_of_ne same]
      exact (consistent.progress other request' loc' here).mono longer

end SayServer.Consistent

theorem SayStep.consistent {start : Server} {lines : List (List UInt8)} {before after : SayServer}
    {label : SayLabel} (moved : SayStep before label after)
    (consistent : before.Consistent start lines) : after.Consistent start lines := by
  cases moved with
  | dequeue request now said marked => exact consistent.dequeue marked
  | work worker running stepped => exact consistent.work running stepped

/-- **The order of broadcasts.** However the workers of say commands are interleaved,
the history is extended by the messages, and a worker that is done has appended its
message once, unless the history is full, and sent it once to every client, in the order
of the list. A command whose worker is done before another command is dequeued is ahead
of it in the history and at every client. -/
theorem broadcasts_in_order {start : Server} (formed : start.clients.WellFormed)
    {lines : List (List UInt8)} (remembers : start.Remembers lines)
    {trace : List (SayServer × SayLabel)} {state : SayServer}
    (execution : (saySystem start).Execution trace state) :
    state.server.Remembers (lines ++ state.stored.map Prod.snd) ∧
      (∀ worker request, state.workers[worker]? = some ⟨request, none⟩ →
        ∃ sender, start.registry.nameAt request.fromAddr = some sender ∧
          Recorded state.server (fullMessage sender request.command)
            (entriesOf state.stored worker) ∧
          entriesOf state.sent worker = broadcastTo start.registry.places
            (sayResponse (fullMessage sender request.command))) ∧
      (state.stored.map Prod.fst).Pairwise
        (fun first second => ¬ (sayActivities start).Precedes trace second first) ∧
      ∀ addr, (state.sendersTo addr).Pairwise
        fun first second => ¬ (sayActivities start).Precedes trace second first := by
  have reachable : (saySystem start).Reachable state := ⟨trace, execution⟩
  have consistent : state.Consistent start lines := by
    refine reachable.invariant (I := SayServer.Consistent start lines) ?_ ?_
    · rintro state rfl
      refine ⟨formed, rfl, fun _ => rfl, ?_, ?_, ?_⟩
      · rwa [List.map_nil, List.append_nil]
      · rintro worker (logged | logged) <;> cases logged
      · intro worker request loc here
        cases here
    · exact fun before label after consistent moved => moved.consistent consistent
  refine ⟨consistent.remembers, ?_, (storedLog start).pairwise execution,
    fun addr => (sentLog start addr).pairwise execution⟩
  intro worker request done
  have progress := consistent.progress worker request none done
  revert progress
  generalize entriesOf state.stored worker = stored
  generalize entriesOf state.sent worker = sent
  intro progress
  cases progress with
  | done named recorded => exact ⟨_, named, recorded, rfl⟩

/-- A server with two clients. -/
def sampleServer : Server :=
  match handle Server.start (.command (sampleRequest .conn 1 "A") 0) with
  | .error _ => Server.start
  | .ok (server, _) =>
    match handle server (.command (sampleRequest .conn 2 "B") 0) with
    | .error _ => server
    | .ok (server, _) => server

theorem sampleServer_reachable : serverSystem.Reachable sampleServer := by
  have empty : serverSystem.Reachable Server.start := .start rfl
  have one := empty.step (handled_step (.command (sampleRequest .conn 1 "A") 0) rfl)
  exact one.step (handled_step (.command (sampleRequest .conn 2 "B") 0) rfl)

/-- A client says something when the worker of another message is done. -/
theorem broadcasts_in_order_twice :
    ∃ trace state, (saySystem sampleServer).Execution trace state ∧
      state.stored.map Prod.fst = [0, 1] ∧ (sayActivities sampleServer).Precedes trace 0 1 ∧
      (state.stored.map Prod.fst).Pairwise
        fun first second => ¬ (sayActivities sampleServer).Precedes trace second first := by
  have formed := wellFormed_of_reachable sampleServer_reachable
  have remembers : sampleServer.Remembers [] := ⟨rfl, fun _ => rfl⟩
  have start : (saySystem sampleServer).Execution [] ⟨sampleServer, [], [], []⟩ := .start rfl
  have recorded := ((((start.step (.dequeue (sampleRequest .say 1 "first") 0 rfl rfl)).step
    (.work 0 rfl rfl)).step (.work 0 rfl rfl)).step (.work 0 rfl rfl)).step (.work 0 rfl rfl)
  have done := ((recorded.step (.work 0 rfl rfl)).step (.work 0 rfl rfl)).step (.work 0 rfl rfl)
  have run := ((((done.step (.dequeue (sampleRequest .say 2 "second") 0 rfl rfl)).step
    (.work 1 rfl rfl)).step (.work 1 rfl rfl)).step (.work 1 rfl rfl)).step (.work 1 rfl rfl)
  have precedes := @TransitionSystem.Activities.Precedes.last _ _ _ (sayActivities sampleServer)
    _ _ 0 1 done ⟨sampleRequest .say 1 "first", rfl⟩ (Nat.le_refl 1)
    (.dequeue (sampleRequest .say 2 "second") 0)
  exact ⟨_, _, run, rfl, (((precedes.append _).append _).append _).append _,
    (broadcasts_in_order formed remembers run).2.2.1⟩

/-- Two messages of one client overtake each other: the second one is first in the
history and at one of the clients, but not at the other. -/
theorem broadcasts_overtake :
    serverSystem.Reachable sampleServer ∧ ∃ state, (saySystem sampleServer).Reachable state ∧
      state.workers.map (fun worker => (worker.request.fromAddr, worker.loc.isNone)) =
        [((sampleRequest .say 1 "").fromAddr, true), ((sampleRequest .say 1 "").fromAddr, true)] ∧
      state.stored.map Prod.fst = [1, 0] ∧
      state.sendersTo (sampleRequest .say 1 "").fromAddr = [0, 1] ∧
      state.sendersTo (sampleRequest .say 2 "").fromAddr = [1, 0] := by
  have start : (saySystem sampleServer).Reachable ⟨sampleServer, [], [], []⟩ := .start rfl
  have dequeued := (start.step (.dequeue (sampleRequest .say 1 "first") 0 rfl rfl)).step
    (.dequeue (sampleRequest .say 1 "second") 0 rfl rfl)
  have formatted := (((((dequeued.step (.work 0 rfl rfl)).step (.work 0 rfl rfl)).step
    (.work 0 rfl rfl)).step (.work 1 rfl rfl)).step (.work 1 rfl rfl)).step (.work 1 rfl rfl)
  have recorded := (formatted.step (.work 1 rfl rfl)).step (.work 0 rfl rfl)
  have written := (((recorded.step (.work 0 rfl rfl)).step (.work 1 rfl rfl)).step
    (.work 1 rfl rfl)).step (.work 0 rfl rfl)
  have done := (written.step (.work 0 rfl rfl)).step (.work 1 rfl rfl)
  exact ⟨sampleServer_reachable, _, done, rfl, rfl, rfl, rfl⟩

end MultithreadedChat
