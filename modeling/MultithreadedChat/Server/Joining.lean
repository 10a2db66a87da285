import MultithreadedChat.Server.BroadcastOrder

/-! # Joining a conversation

A client that connects while others speak: its worker adds it to the list and then
replays the history, and the worker of a say appends to the history and then broadcasts
to the list. Neither pair of steps is guarded as a whole. Every message reaches the new
client, but twice if the pairs of the two workers overlap
(`MultithreadedChat.joined_once_iff`).
-/

namespace MultithreadedChat

open CString LinkedList

/-- The next step of the worker of a say, with its broadcast section as one step. -/
def SayLoc.sectionStep (server : Server) :
    SayLoc → Except Fault (Server × List Datagram × Option SayLoc)
  | .traversal response node => do
    let sent ← broadcast server.clients node response
    return (server, sent, none)
  | .readHead request => (SayLoc.readHead request).step server
  | .findSender request node => (SayLoc.findSender request node).step server
  | .format command node fromWho => (SayLoc.format command node fromWho).step server
  | .record message node => (SayLoc.record message node).step server

/-- The server, the worker of a connecting client unless it is done, and the say commands
in the order in which they were dequeued. The other fields are kept for the
specification: which worker appended which line and sent which datagram, what the
connecting client's worker sent, and what was in `stored` when it replayed the history. -/
structure JoinServer where
  server : Server
  newcomer : Option WorkerLoc
  tasks : List SayTask
  stored : List (ℕ × List UInt8)
  live : List (ℕ × Datagram)
  greeting : List Datagram
  replayed : List (ℕ × List UInt8)

/-- A say command is dequeued, its worker does a step, or the connecting client's worker
does one. -/
inductive JoinLabel
  | dequeue (request : Request) (now : ℤ)
  | work (worker : ℕ)
  | connect (now : ℤ)

/-- The steps while the clients of some addresses speak. -/
inductive JoinStep (clients : List SockAddrIn) : JoinServer → JoinLabel → JoinServer → Prop
  | dequeue {state : JoinServer} (request : Request) (now : ℤ) {server : Server} :
      request.command.kind = .say → request.fromAddr ∈ clients →
      markActivity state.server request now = .ok server →
      JoinStep clients state (.dequeue request now) { state with
        server := server
        tasks := state.tasks ++ [⟨request, some (.readHead request)⟩] }
  | work {state : JoinServer} (worker : ℕ) {request : Request} {loc : SayLoc} {server : Server}
      {sent : List Datagram} {next : Option SayLoc} :
      state.tasks[worker]? = some ⟨request, some loc⟩ →
      loc.sectionStep state.server = .ok (server, sent, next) →
      JoinStep clients state (.work worker) { state with
        server := server
        tasks := state.tasks.set worker ⟨request, next⟩
        stored := state.stored ++ (loc.stores state.server).map (worker, ·)
        live := state.live ++ sent.map (worker, ·) }
  | connect {state : JoinServer} (now : ℤ) {loc : WorkerLoc} {server : Server}
      {sent : List Datagram} {next : Option WorkerLoc} :
      state.newcomer = some loc →
      loc.step state.server now = .ok (server, sent, next) →
      JoinStep clients state (.connect now) { state with
        server := server
        newcomer := next
        greeting := state.greeting ++ sent
        replayed := if next.isNone then state.stored else state.replayed }

/-- All runs in which a client connects to a server whose clients speak. -/
def joinSystem (start : Server) (request : Request) : TransitionSystem JoinServer JoinLabel where
  initial state := state = ⟨start, some (.connectInsert request), [], [], [], [], []⟩
  step := JoinStep start.registry.addresses

namespace JoinServer

variable (state : JoinServer)

/-- All workers are done. -/
def Done : Prop := state.newcomer = none ∧ ∀ task ∈ state.tasks, task.loc = none

/-- The copies of a worker's message that are sent to an address, live and replayed. -/
def deliveries (addr : SockAddrIn) (worker : ℕ) : List Datagram :=
  (entriesOf state.live worker).filter (fun datagram => datagram.addr = addr) ++
    (entriesOf state.replayed worker).map (historyLine addr)

/-- A step lets a worker overlap with the connecting client's: the client is added while
the worker is between appending and broadcasting, or the worker appends while the client
is between being added and its replay. -/
def Overlaps (worker : ℕ) : JoinLabel → Prop
  | .dequeue _ _ => False
  | .connect _ => (∃ request, state.newcomer = some (.connectInsert request)) ∧
      ∃ request response node,
        state.tasks[worker]? = some ⟨request, some (.traversal response node)⟩
  | .work acting => acting = worker ∧
      (∃ request, state.newcomer = some (.connectReply request)) ∧
      ∃ request message node, state.tasks[worker]? = some ⟨request, some (.record message node)⟩

end JoinServer

/-! ## The message of one worker -/

/-- How far the connecting client's worker is. -/
inductive JoinPhase
  | waiting
  | inserted
  | joined
  deriving DecidableEq

namespace JoinPhase

variable (request : Request)

def loc : JoinPhase → Option WorkerLoc
  | .waiting => some (.connectInsert request)
  | .inserted => some (.connectReply request)
  | .joined => none

def addresses : JoinPhase → List SockAddrIn
  | .waiting => []
  | .inserted | .joined => [request.fromAddr]

end JoinPhase

/-- A server with a well-formed list and a history of full messages, as every server is
that handles its commands one after another (`MultithreadedChat.exists_sound`). -/
structure Server.Sound (server : Server) (lines : List (List UInt8)) : Prop where
  formed : server.clients.WellFormed
  remembers : server.Remembers lines
  short : ∀ line ∈ lines, line.length < maxMessage + maxNameLen + 2

theorem exists_sound {server : Server} (reachable : serverSystem.Reachable server) :
    ∃ lines, server.Sound lines := by
  have formed := wellFormed_of_reachable reachable
  obtain ⟨trace, execution⟩ := reachable
  exact ⟨_, formed, history_of_execution execution,
    fun _ member => broadcasts_short (List.mem_of_mem_take member)⟩

/-- The clients of a server are those of `start`, and others behind them. -/
structure Hosts (start server : Server) (others : List SockAddrIn) : Prop where
  formed : server.clients.WellFormed
  places : start.registry.places <+: server.registry.places
  addresses : server.registry.addresses = start.registry.addresses ++ others
  names : ∀ address ∈ start.registry.addresses,
    server.registry.nameAt address = start.registry.nameAt address

namespace Hosts

variable {start server : Server} {others : List SockAddrIn} (hosts : Hosts start server others)
  {address : SockAddrIn} (registered : address ∈ start.registry.addresses)
include hosts

include registered in
theorem head : server.clients.head = start.registry.head?.map Prod.fst := by
  obtain ⟨behind, whole⟩ := hosts.places
  rw [hosts.formed.head_eq, ← Server.registry, ← Registry.head_places, ← Registry.head_places,
    ← whole]
  cases first : start.registry with
  | nil =>
      rw [first] at registered
      cases registered
  | cons node rest => rfl

include registered in
theorem sender : (server.registry.atAddress address).map Prod.fst =
    (start.registry.atAddress address).map Prod.fst := by
  obtain ⟨behind, whole⟩ := hosts.places
  obtain ⟨node, found⟩ := Registry.exists_atAddress.mpr registered
  rw [← Registry.find_places, ← Registry.find_places, ← whole, List.find?_append]
  have sought := start.registry.find_places address
  rw [found] at sought
  obtain ⟨place, same, -⟩ := Option.map_eq_some_iff.mp sought
  rw [same]
  rfl

include registered in
/-- A broadcast from the old head reaches all clients. -/
theorem broadcast_eq {line : List UInt8} (short : line.length < maxMessage + maxNameLen + 2) :
    broadcast server.clients (start.registry.head?.map Prod.fst) (sayResponse line) =
      .ok ((start.registry.addresses ++ others).map (historyLine · line)) := by
  rw [← hosts.head registered, hosts.formed.broadcast_eq, ← hosts.addresses, Registry.addresses,
    List.map_map, sayResponse_eq short]
  rfl

theorem mark {request : Request} {now : ℤ} {server' : Server}
    (marked : markActivity server request now = .ok server') :
    Hosts start server' others ∧ server'.chatHistory = server.chatHistory ∧
      server'.chatHistoryc = server.chatHistoryc := by
  obtain ⟨clients, done, formed, -, nodes⟩ := markActivity_spec hosts.formed request now
  obtain rfl := Except.ok.inj (done.symm.trans marked)
  have registry : Server.registry { server with clients := clients } =
      server.registry.mark request now := nodes
  refine ⟨⟨formed, ?_, ?_, ?_⟩, rfl, rfl⟩
  · rw [registry, Registry.places_mark]
    exact hosts.places
  · rw [registry, Registry.addresses_mark]
    exact hosts.addresses
  · intro address registered
    rw [registry, Registry.nameAt_mark]
    exact hosts.names address registered

/-- Another client is added behind the others. -/
theorem insert {request : Request} {now : ℤ} {clients : ClientList}
    (added : addClientToList server.clients request.fromAddr (request.command.args 0) now =
      .ok clients) :
    Hosts start { server with clients := clients } (others ++ [request.fromAddr]) := by
  obtain ⟨clients', done, formed, nodes, -⟩ :=
    hosts.formed.addClientToList_spec request.fromAddr (request.command.args 0) now
  obtain rfl := Except.ok.inj (done.symm.trans added)
  have registry : Server.registry { server with clients := clients' } = server.registry ++
      [(server.clients.heap.fresh, ⟨request.fromAddr, request.command.args 0, now, 0⟩)] := nodes
  refine ⟨formed, ?_, ?_, ?_⟩
  · refine hosts.places.trans ?_
    rw [registry, Registry.places, Registry.places, List.map_append]
    exact List.prefix_append ..
  · rw [registry, Registry.addresses, List.map_append, ← Registry.addresses, hosts.addresses,
      List.append_assoc]
    rfl
  · intro address registered
    have here : address ∈ server.registry.addresses := by
      rw [hosts.addresses]
      exact List.mem_append_left _ registered
    obtain ⟨node, found⟩ := Registry.exists_atAddress.mpr here
    rw [← hosts.names address registered, Registry.nameAt, Registry.nameAt, found, registry,
      Registry.atAddress, List.find?_append, ← Registry.atAddress, found]
    rfl

end Hosts

/-- The message of a say command. -/
def MessageOf (start : Server) (request : Request) (line : List UInt8) : Prop :=
  ∃ sender, start.registry.nameAt request.fromAddr = some sender ∧
    line = fullMessage sender request.command

/-- What has become of the message of a worker: what is appended, sent and replayed of it
when the two workers are at some locations, and whether they have overlapped. -/
inductive JoinProgress (start : Server) (addr : SockAddrIn) (request : Request) :
    JoinPhase → Option SayLoc → List (List UInt8) → List Datagram → List (List UInt8) → Bool → Prop
  | readHead {phase : JoinPhase} :
      JoinProgress start addr request phase (some (.readHead request)) [] [] [] false
  | findSender {phase : JoinPhase} : JoinProgress start addr request phase
      (some (.findSender request (start.registry.head?.map Prod.fst))) [] [] [] false
  | format {phase : JoinPhase} : JoinProgress start addr request phase
      (some (.format request.command (start.registry.head?.map Prod.fst)
        ((start.registry.atAddress request.fromAddr).map Prod.fst))) [] [] [] false
  | record {phase : JoinPhase} {line : List UInt8} : MessageOf start request line →
      JoinProgress start addr request phase
        (some (.record line (start.registry.head?.map Prod.fst))) [] [] [] false
  | pending {phase : JoinPhase} {line : List UInt8} : MessageOf start request line →
      JoinProgress start addr request phase
        (some (.traversal (sayResponse line) (start.registry.head?.map Prod.fst)))
        [line] [] [] (phase = .inserted)
  | pendingReplayed {line : List UInt8} : MessageOf start request line →
      JoinProgress start addr request .joined
        (some (.traversal (sayResponse line) (start.registry.head?.map Prod.fst)))
        [line] [] [line] true
  | ahead {phase : JoinPhase} {line : List UInt8} : MessageOf start request line → phase ≠ .joined →
      JoinProgress start addr request phase none [line]
        (start.registry.addresses.map (historyLine · line)) [] false
  | replayed {line : List UInt8} : MessageOf start request line →
      JoinProgress start addr request .joined none [line]
        (start.registry.addresses.map (historyLine · line)) [line] false
  | reached {phase : JoinPhase} {line : List UInt8} : MessageOf start request line →
      phase ≠ .waiting → JoinProgress start addr request phase none [line]
        ((start.registry.addresses ++ [addr]).map (historyLine · line)) [] (phase = .inserted)
  | reachedReplayed {line : List UInt8} : MessageOf start request line →
      JoinProgress start addr request .joined none [line]
        ((start.registry.addresses ++ [addr]).map (historyLine · line)) [line] true

section Progress

variable {start server server' : Server} {newcomer request : Request} {phase : JoinPhase}
  {stored replayed : List (List UInt8)} {live : List Datagram} {overlapped : Bool}

theorem MessageOf.short {line : List UInt8} (said : MessageOf start request line) :
    line.length < maxMessage + maxNameLen + 2 := by
  obtain ⟨sender, -, rfl⟩ := said
  exact fullMessage_length_lt ..

/-- A step of the worker. It overlaps if it appends while the client waits for its replay. -/
theorem JoinProgress.work (hosts : Hosts start server (phase.addresses newcomer))
    (registered : request.fromAddr ∈ start.registry.addresses)
    (room : server.chatHistoryc < maxMsgs) {loc : SayLoc}
    (progress : JoinProgress start newcomer.fromAddr request phase (some loc) stored live replayed
      overlapped)
    {new : List Datagram} {next : Option SayLoc}
    (moved : loc.sectionStep server = .ok (server', new, next)) :
    ∃ overlapped', JoinProgress start newcomer.fromAddr request phase next
        (stored ++ loc.stores server) (live ++ new) replayed overlapped' ∧
      (overlapped' = true ↔ overlapped = true ∨
        phase = .inserted ∧ ∃ message node, loc = .record message node) := by
  have formed := hosts.formed
  have head := hosts.head registered
  have sender := hosts.sender registered
  cases progress with
  | readHead =>
      cases moved
      rw [head]
      exact ⟨false, .findSender, by simp⟩
  | findSender =>
      rw [SayLoc.sectionStep, SayLoc.step, formed.findSender_eq, sender] at moved
      cases moved
      exact ⟨false, .format, by simp⟩
  | format =>
      rw [← sender] at moved
      obtain ⟨cell, loaded, moved⟩ := exists_of_bind_eq_ok moved
      cases moved
      refine ⟨false, .record ⟨cell.value.clientName, ?_, rfl⟩, by simp⟩
      rw [← hosts.names _ registered]
      exact formed.nameAt_of_load loaded
  | @record _ line said =>
      cases moved
      have stores : SayLoc.stores server
          (.record line (start.registry.head?.map Prod.fst)) = [line] := if_pos room
      rw [stores]
      exact ⟨_, .pending said, by simp⟩
  | @pending _ line said =>
      rw [SayLoc.sectionStep, hosts.broadcast_eq registered said.short] at moved
      cases moved
      cases phase with
      | waiting =>
          rw [JoinPhase.addresses, List.append_nil]
          exact ⟨_, .ahead said (by decide), by simp⟩
      | inserted | joined => exact ⟨_, .reached said (by decide), by simp⟩
  | @pendingReplayed line said =>
      rw [SayLoc.sectionStep, hosts.broadcast_eq registered said.short] at moved
      cases moved
      exact ⟨_, .reachedReplayed said, by simp⟩

/-- The client is added to the list. This overlaps with a worker that has appended and not
yet broadcast. -/
theorem JoinProgress.insert {loc : Option SayLoc}
    (progress : JoinProgress start newcomer.fromAddr request .waiting loc stored live replayed
      overlapped) :
    ∃ overlapped', JoinProgress start newcomer.fromAddr request .inserted loc stored live replayed
        overlapped' ∧
      (overlapped' = true ↔ overlapped = true ∨
        ∃ response node, loc = some (.traversal response node)) := by
  cases progress with
  | readHead => exact ⟨_, .readHead, by simp⟩
  | findSender => exact ⟨_, .findSender, by simp⟩
  | format => exact ⟨_, .format, by simp⟩
  | record said => exact ⟨_, .record said, by simp⟩
  | pending said => exact ⟨_, .pending said, by simp⟩
  | ahead said => exact ⟨_, .ahead said (by decide), by simp⟩
  | reached _ started => exact (started rfl).elim

/-- The history is replayed, with all that has been appended. -/
theorem JoinProgress.reply {loc : Option SayLoc}
    (progress : JoinProgress start newcomer.fromAddr request .inserted loc stored live replayed
      overlapped) :
    JoinProgress start newcomer.fromAddr request .joined loc stored live stored overlapped := by
  cases progress with
  | readHead => exact .readHead
  | findSender => exact .findSender
  | format => exact .format
  | record said => exact .record said
  | pending said => exact .pendingReplayed said
  | ahead said => exact .replayed said
  | reached said => exact .reachedReplayed said

/-- In the end the message has reached the client once if the workers have not overlapped,
and twice if they have. -/
theorem JoinProgress.deliveries (fresh : newcomer.fromAddr ∉ start.registry.addresses)
    (progress : JoinProgress start newcomer.fromAddr request .joined none stored live replayed
      overlapped) :
    ∃ line, MessageOf start request line ∧
      live.filter (fun datagram => datagram.addr = newcomer.fromAddr) ++
          replayed.map (historyLine newcomer.fromAddr) =
        List.replicate (if overlapped then 2 else 1) (historyLine newcomer.fromAddr line) := by
  have others : ∀ line, (start.registry.addresses.map (historyLine · line)).filter
      (fun datagram => datagram.addr = newcomer.fromAddr) = [] := by
    intro line
    rw [List.filter_eq_nil_iff]
    intro datagram member
    obtain ⟨address, registered, rfl⟩ := List.mem_map.mp member
    have different : address ≠ newcomer.fromAddr := fun same => fresh (same ▸ registered)
    exact fun same => different (of_decide_eq_true same)
  have own : ∀ line, ([newcomer.fromAddr].map (historyLine · line)).filter
      (fun datagram => datagram.addr = newcomer.fromAddr) =
        [historyLine newcomer.fromAddr line] := by
    intro line
    simp [historyLine]
  cases progress with
  | ahead _ behind => exact (behind rfl).elim
  | @replayed line said =>
      refine ⟨line, said, ?_⟩
      rw [others]
      rfl
  | @reached _ line said =>
      refine ⟨line, said, ?_⟩
      rw [List.map_append, List.filter_append, others, own]
      rfl
  | @reachedReplayed line said =>
      refine ⟨line, said, ?_⟩
      rw [List.map_append, List.filter_append, others, own]
      rfl

/-- Messages that have been appended are short. -/
theorem JoinProgress.short {loc : Option SayLoc}
    (progress : JoinProgress start newcomer.fromAddr request phase loc stored live replayed
      overlapped) :
    ∀ line ∈ stored, line.length < maxMessage + maxNameLen + 2 := by
  cases progress with
  | readHead | findSender | format | record => exact fun _ member => by cases member
  | pending said | pendingReplayed said | ahead said | replayed said | reached said
  | reachedReplayed said =>
      intro line member
      rw [List.mem_singleton.mp member]
      exact said.short

/-- A step of a worker changes no clients, and appends at most one line. -/
theorem SayLoc.sectionStep_effect {loc : SayLoc} {new : List Datagram} {next : Option SayLoc}
    (moved : loc.sectionStep server = .ok (server', new, next)) :
    server'.clients = server.clients ∧ server.chatHistoryc ≤ server'.chatHistoryc ∧
      ∀ lines, server.Remembers lines → server'.Remembers (lines ++ loc.stores server) := by
  cases loc with
  | readHead | findSender | format | record => exact SayLoc.step_effect moved
  | traversal response node =>
      obtain ⟨sent, -, moved⟩ := exists_of_bind_eq_ok moved
      cases moved
      refine ⟨rfl, le_rfl, fun lines remembers => ?_⟩
      rwa [SayLoc.stores, List.append_nil]

end Progress

/-! ## Runs -/

/-- What holds in every state of a run. The fates of the messages, and what the client is
greeted with, are known as long as the history is short. -/
structure JoinServer.Consistent (start : Server) (lines : List (List UInt8)) (newcomer : Request)
    (trace : List (JoinServer × JoinLabel)) (phase : JoinPhase) (state : JoinServer) : Prop where
  worker : state.newcomer = phase.loc newcomer
  hosts : Hosts start state.server (phase.addresses newcomer)
  remembers : state.server.Remembers (lines ++ state.stored.map Prod.snd)
  known : ∀ worker, worker ∈ state.stored.map Prod.fst ∨ worker ∈ state.live.map Prod.fst ∨
    worker ∈ state.replayed.map Prod.fst → worker < state.tasks.length
  registered : ∀ task ∈ state.tasks, task.request.fromAddr ∈ start.registry.addresses
  visited : ∀ visit ∈ trace, visit.1.tasks.length ≤ state.tasks.length
  progress : state.server.chatHistoryc ≤ chatHistorySize → ∀ worker request loc,
    state.tasks[worker]? = some ⟨request, loc⟩ → ∃ overlapped,
      JoinProgress start newcomer.fromAddr request phase loc (entriesOf state.stored worker)
        (entriesOf state.live worker) (entriesOf state.replayed worker) overlapped ∧
      (overlapped = true ↔ ∃ visit ∈ trace, visit.1.Overlaps worker visit.2)
  greeting : state.server.chatHistoryc ≤ chatHistorySize →
    state.greeting = if phase = .joined then connsuccess newcomer ::
      (lines ++ state.replayed.map Prod.snd).map (historyLine newcomer.fromAddr) else []

section Runs

variable {start : Server} {lines : List (List UInt8)} {newcomer : Request}
  {trace : List (JoinServer × JoinLabel)} {phase : JoinPhase} {before after : JoinServer}
  {label : JoinLabel} {worker : ℕ}

theorem JoinServer.Overlaps.lt (overlaps : before.Overlaps worker label) :
    worker < before.tasks.length := by
  have running : ∀ {task}, before.tasks[worker]? = some task → worker < before.tasks.length :=
    fun here => (List.getElem?_eq_some_iff.mp here).1
  cases label with
  | dequeue => exact overlaps.elim
  | connect =>
      obtain ⟨-, request, response, node, here⟩ := overlaps
      exact running here
  | work =>
      obtain ⟨-, -, request, message, node, here⟩ := overlaps
      exact running here

theorem overlaps_snoc :
    (∃ visit ∈ trace ++ [(before, label)], visit.1.Overlaps worker visit.2) ↔
      (∃ visit ∈ trace, visit.1.Overlaps worker visit.2) ∨ before.Overlaps worker label := by
  simp only [List.mem_append, List.mem_singleton, or_and_right, exists_or, exists_eq_left]

namespace JoinServer.Consistent

variable (consistent : before.Consistent start lines newcomer trace phase)
include consistent

theorem visited_snoc (visit : JoinServer × JoinLabel)
    (member : visit ∈ trace ++ [(before, label)]) :
    visit.1.tasks.length ≤ before.tasks.length := by
  rcases List.mem_append.mp member with old | last
  · exact consistent.visited visit old
  · obtain rfl := List.mem_singleton.mp last
    exact le_rfl

/-- A worker overlaps by appending between the insertion and the replay. -/
theorem overlaps_work {request : Request} {loc : SayLoc}
    (running : before.tasks[worker]? = some ⟨request, some loc⟩) :
    before.Overlaps worker (.work worker) ↔
      phase = .inserted ∧ ∃ message node, loc = .record message node := by
  constructor
  · rintro ⟨-, ⟨other, waits⟩, request', message, node, records⟩
    rw [running] at records
    cases records
    rw [consistent.worker] at waits
    cases phase with
    | inserted => exact ⟨rfl, message, node, rfl⟩
    | waiting | joined => cases waits
  · rintro ⟨rfl, message, node, rfl⟩
    exact ⟨rfl, ⟨newcomer, consistent.worker⟩, request, message, node, running⟩

theorem dequeue {request : Request} {now : ℤ} {server : Server}
    (registered : request.fromAddr ∈ start.registry.addresses)
    (marked : markActivity before.server request now = .ok server) :
    JoinServer.Consistent start lines newcomer (trace ++ [(before, .dequeue request now)]) phase
      { before with
        server := server
        tasks := before.tasks ++ [⟨request, some (.readHead request)⟩] } := by
  obtain ⟨hosts, history, count⟩ := consistent.hosts.mark marked
  constructor
  · exact consistent.worker
  · exact hosts
  · exact ⟨count.trans consistent.remembers.count, history ▸ consistent.remembers.lines⟩
  · intro worker logged
    rw [List.length_append]
    exact Nat.lt_add_right _ (consistent.known worker logged)
  · intro task member
    rcases List.mem_append.mp member with old | new
    · exact consistent.registered task old
    · obtain rfl := List.mem_singleton.mp new
      exact registered
  · intro visit member
    rw [List.length_append]
    exact (consistent.visited_snoc visit member).trans (Nat.le_add_right ..)
  · intro few worker other loc here
    rw [count] at few
    rcases getElem?_snoc here with old | ⟨rfl, new⟩
    · obtain ⟨overlapped, progress, overlaps⟩ := consistent.progress few worker other loc old
      refine ⟨overlapped, progress, overlaps.trans ?_⟩
      rw [overlaps_snoc]
      exact (or_iff_left id).symm
    · cases new
      have unlogged := fun logged => Nat.lt_irrefl _ (consistent.known before.tasks.length logged)
      rw [entriesOf_eq_nil fun logged => unlogged (.inl logged),
        entriesOf_eq_nil fun logged => unlogged (.inr (.inl logged)),
        entriesOf_eq_nil fun logged => unlogged (.inr (.inr logged))]
      refine ⟨false, .readHead, iff_of_false Bool.false_ne_true ?_⟩
      rintro ⟨visit, member, overlaps⟩
      exact Nat.not_lt.mpr (consistent.visited_snoc visit member) overlaps.lt
  · intro few
    rw [count] at few
    exact consistent.greeting few

theorem work {worker : ℕ} {request : Request} {loc : SayLoc} {server : Server}
    {sent : List Datagram} {next : Option SayLoc}
    (running : before.tasks[worker]? = some ⟨request, some loc⟩)
    (moved : loc.sectionStep before.server = .ok (server, sent, next)) :
    JoinServer.Consistent start lines newcomer (trace ++ [(before, .work worker)]) phase
      { before with
        server := server
        tasks := before.tasks.set worker ⟨request, next⟩
        stored := before.stored ++ (loc.stores before.server).map (worker, ·)
        live := before.live ++ sent.map (worker, ·) } := by
  obtain ⟨clients, longer, remembers⟩ := SayLoc.sectionStep_effect moved
  have registry : server.registry = before.server.registry := by
    rw [Server.registry, clients, Server.registry]
  obtain ⟨active, same⟩ := List.getElem?_eq_some_iff.mp running
  have own : request.fromAddr ∈ start.registry.addresses := by
    have member := consistent.registered _ (List.getElem_mem active)
    rwa [same] at member
  constructor
  · exact consistent.worker
  · obtain ⟨formed, places, addresses, names⟩ := consistent.hosts
    exact ⟨clients ▸ formed, registry ▸ places, registry ▸ addresses, registry ▸ names⟩
  · have appended := remembers _ consistent.remembers
    rwa [List.append_assoc, ← map_snd_append] at appended
  · intro other logged
    rw [List.length_set]
    rcases logged.imp mem_activities_append (Or.imp_left mem_activities_append) with
      (old | rfl) | (old | rfl) | old
    · exact consistent.known other (.inl old)
    · exact active
    · exact consistent.known other (.inr (.inl old))
    · exact active
    · exact consistent.known other (.inr (.inr old))
  · intro task member
    rcases List.mem_or_eq_of_mem_set member with old | rfl
    · exact consistent.registered task old
    · exact own
  · intro visit member
    rw [List.length_set]
    exact consistent.visited_snoc visit member
  · intro few other request' loc' here
    have few' := longer.trans few
    by_cases acting : worker = other
    · subst acting
      rw [List.getElem?_set_self active] at here
      cases here
      rw [entriesOf_append_self, entriesOf_append_self]
      obtain ⟨overlapped, progress, overlaps⟩ := consistent.progress few' worker request _ running
      obtain ⟨overlapped', progress', grown⟩ := progress.work consistent.hosts own
        (Nat.lt_of_le_of_lt few' (by decide)) moved
      refine ⟨overlapped', progress', grown.trans ?_⟩
      rw [overlaps_snoc, overlaps, consistent.overlaps_work running]
    · rw [List.getElem?_set_ne acting] at here
      rw [entriesOf_append_of_ne acting, entriesOf_append_of_ne acting]
      obtain ⟨overlapped, progress, overlaps⟩ := consistent.progress few' other request' loc' here
      refine ⟨overlapped, progress, overlaps.trans ?_⟩
      rw [overlaps_snoc]
      exact (or_iff_left fun overlap => acting overlap.1).symm
  · exact fun few => consistent.greeting (longer.trans few)

omit consistent in
/-- The insertion overlaps with the workers between their append and their broadcast. -/
theorem overlaps_connect (waiting : before.Consistent start lines newcomer trace .waiting)
    {request : Request} {loc : Option SayLoc} {now : ℤ}
    (here : before.tasks[worker]? = some ⟨request, loc⟩) :
    before.Overlaps worker (.connect now) ↔
      ∃ response node, loc = some (.traversal response node) := by
  constructor
  · rintro ⟨-, request', response, node, pending⟩
    rw [here] at pending
    cases pending
    exact ⟨response, node, rfl⟩
  · rintro ⟨response, node, rfl⟩
    exact ⟨⟨newcomer, waiting.worker⟩, request, response, node, here⟩

/-- The connecting client's worker is done. -/
theorem joined (done : before.Done) : phase = .joined := by
  have ended := done.1
  rw [consistent.worker] at ended
  cases phase with
  | joined => rfl
  | waiting | inserted => cases ended

/-- All lines of the history are short, as long as there are few. -/
theorem short (old : ∀ line ∈ lines, line.length < maxMessage + maxNameLen + 2)
    (few : before.server.chatHistoryc ≤ chatHistorySize) :
    ∀ line ∈ lines ++ before.stored.map Prod.snd, line.length < maxMessage + maxNameLen + 2 := by
  intro line member
  rcases List.mem_append.mp member with earlier | new
  · exact old line earlier
  · obtain ⟨entry, stored, rfl⟩ := List.mem_map.mp new
    have active := consistent.known entry.1 (.inl (List.mem_map_of_mem stored))
    obtain ⟨overlapped, progress, -⟩ := consistent.progress few entry.1 _ _
      (List.getElem?_eq_getElem active)
    exact progress.short entry.2 (mem_entriesOf stored)

theorem connect (old : ∀ line ∈ lines, line.length < maxMessage + maxNameLen + 2) {now : ℤ}
    {loc : WorkerLoc} {server : Server} {sent : List Datagram} {next : Option WorkerLoc}
    (here : before.newcomer = some loc)
    (moved : loc.step before.server now = .ok (server, sent, next)) :
    ∃ phase', JoinServer.Consistent start lines newcomer (trace ++ [(before, .connect now)]) phase'
      { before with
        server := server
        newcomer := next
        greeting := before.greeting ++ sent
        replayed := if next.isNone then before.stored else before.replayed } := by
  rw [consistent.worker] at here
  cases phase with
  | joined => cases here
  | waiting =>
      cases here
      obtain ⟨clients, added, moved⟩ := exists_of_bind_eq_ok moved
      cases moved
      refine ⟨.inserted, rfl, consistent.hosts.insert added, ?_, consistent.known,
        consistent.registered, consistent.visited_snoc, ?_, ?_⟩
      · exact ⟨consistent.remembers.count, consistent.remembers.lines⟩
      · intro few worker request loc here
        obtain ⟨overlapped, progress, overlaps⟩ := consistent.progress few worker request loc here
        obtain ⟨overlapped', progress', grown⟩ := progress.insert
        refine ⟨overlapped', progress', grown.trans ?_⟩
        rw [overlaps_snoc, overlaps, consistent.overlaps_connect here]
      · intro few
        rw [List.append_nil]
        exact consistent.greeting few
  | inserted =>
      cases here
      cases moved
      refine ⟨.joined, rfl, consistent.hosts, consistent.remembers, ?_, consistent.registered,
        consistent.visited_snoc, ?_, ?_⟩
      · rintro worker (logged | logged | logged)
        · exact consistent.known worker (.inl logged)
        · exact consistent.known worker (.inr (.inl logged))
        · exact consistent.known worker (.inl logged)
      · intro few worker request loc here
        obtain ⟨overlapped, progress, overlaps⟩ := consistent.progress few worker request loc here
        refine ⟨overlapped, progress.reply, overlaps.trans ?_⟩
        rw [overlaps_snoc]
        refine (or_iff_left ?_).symm
        rintro ⟨⟨request', waits⟩, -⟩
        rw [consistent.worker] at waits
        cases waits
      · intro few
        have whole : (lines ++ before.stored.map Prod.snd).rtake chatHistorySize =
            lines ++ before.stored.map Prod.snd := by
          rw [consistent.remembers.count] at few
          rw [List.rtake, Nat.sub_eq_zero_of_le few, List.drop_zero]
        rw [consistent.greeting few, consistent.remembers.replay_eq (consistent.short old few),
          whole]
        rfl

end JoinServer.Consistent

/-- Every step of a run keeps to what is known. -/
theorem joinServer_consistent {state : JoinServer} (sound : start.Sound lines)
    (execution : (joinSystem start newcomer).Execution trace state) :
    ∃ phase, state.Consistent start lines newcomer trace phase := by
  induction execution with
  | start initial =>
      subst initial
      refine ⟨.waiting, rfl, ?_, ?_, ?_, ?_, ?_, ?_, fun _ => rfl⟩
      · exact ⟨sound.formed, List.prefix_rfl, (List.append_nil _).symm, fun _ _ => rfl⟩
      · rw [List.map_nil, List.append_nil]
        exact sound.remembers
      · rintro worker (logged | logged | logged) <;> cases logged
      · exact fun _ member => by cases member
      · exact fun _ member => by cases member
      · intro _ worker request loc here
        cases here
  | step _ moved ih =>
      obtain ⟨phase, consistent⟩ := ih
      cases moved with
      | dequeue request now said registered marked =>
          exact ⟨phase, consistent.dequeue registered marked⟩
      | work worker running moved => exact ⟨phase, consistent.work running moved⟩
      | connect now here moved => exact consistent.connect sound.short here moved

/-- When all workers are done, a message has been sent to the connecting client once if
its worker has not overlapped with the client's, and twice if it has. -/
theorem joined_deliveries (sound : start.Sound lines)
    (fresh : newcomer.fromAddr ∉ start.registry.addresses) {state : JoinServer}
    (execution : (joinSystem start newcomer).Execution trace state) (done : state.Done)
    (few : state.server.chatHistoryc ≤ chatHistorySize) {task : SayTask}
    (here : state.tasks[worker]? = some task) :
    ∃ overlapped line, MessageOf start task.request line ∧
      state.deliveries newcomer.fromAddr worker =
        List.replicate (if overlapped then 2 else 1) (historyLine newcomer.fromAddr line) ∧
      (overlapped = true ↔ ∃ visit ∈ trace, visit.1.Overlaps worker visit.2) := by
  obtain ⟨phase, consistent⟩ := joinServer_consistent sound execution
  obtain rfl := consistent.joined done
  have ended : task.loc = none := done.2 task (List.mem_of_getElem? here)
  obtain ⟨request, loc⟩ := task
  subst ended
  obtain ⟨overlapped, progress, overlaps⟩ := consistent.progress few worker request none here
  obtain ⟨line, own, delivered⟩ := progress.deliveries fresh
  exact ⟨overlapped, line, own, delivered, overlaps⟩

/-- The message of every command has been sent to an address exactly once, live or
replayed. -/
def JoinServer.DeliveredOnce (start : Server) (addr : SockAddrIn) (state : JoinServer) : Prop :=
  ∀ worker task, state.tasks[worker]? = some task → ∃ line, MessageOf start task.request line ∧
    state.deliveries addr worker = [historyLine addr line]

/-- **Joining.** When all workers are done, the connecting client has been sent the
confirmation and the history as it was then, and every message exactly once, live or
replayed, if and only if no worker has overlapped with the client's. -/
theorem joined_once_iff (sound : start.Sound lines)
    (fresh : newcomer.fromAddr ∉ start.registry.addresses) {state : JoinServer}
    (execution : (joinSystem start newcomer).Execution trace state) (done : state.Done)
    (few : state.server.chatHistoryc ≤ chatHistorySize) :
    state.greeting = connsuccess newcomer ::
        (lines ++ state.replayed.map Prod.snd).map (historyLine newcomer.fromAddr) ∧
      (state.DeliveredOnce start newcomer.fromAddr ↔
        ∀ visit ∈ trace, ∀ worker, ¬ visit.1.Overlaps worker visit.2) := by
  obtain ⟨phase, consistent⟩ := joinServer_consistent sound execution
  obtain rfl := consistent.joined done
  refine ⟨consistent.greeting few, ?_, ?_⟩
  · intro once visit member worker overlap
    have active := Nat.lt_of_lt_of_le overlap.lt (consistent.visited visit member)
    have here := List.getElem?_eq_getElem active
    obtain ⟨line, -, delivered⟩ := once worker _ here
    obtain ⟨overlapped, line', -, delivered', overlaps⟩ :=
      joined_deliveries sound fresh execution done few here
    rw [overlaps.mpr ⟨visit, member, overlap⟩, delivered] at delivered'
    have counts := congrArg List.length delivered'
    rw [List.length_replicate] at counts
    cases counts
  · intro apart worker task here
    obtain ⟨overlapped, line, own, delivered, overlaps⟩ :=
      joined_deliveries sound fresh execution done few here
    have never : overlapped = false := by
      rw [← Bool.not_eq_true, overlaps]
      rintro ⟨visit, member, overlap⟩
      exact apart visit member worker overlap
    rw [never] at delivered
    exact ⟨line, own, delivered⟩

end Runs

/-- A client says something when another one has joined. -/
theorem joined_once_behind :
    ∃ state, (joinSystem sampleServer (sampleRequest .conn 3 "C")).Reachable state ∧
      state.tasks.length = 1 ∧
      state.DeliveredOnce sampleServer (sampleRequest .conn 3 "C").fromAddr := by
  obtain ⟨lines, sound⟩ := exists_sound sampleServer_reachable
  have start : (joinSystem sampleServer (sampleRequest .conn 3 "C")).Execution []
      ⟨sampleServer, some (.connectInsert (sampleRequest .conn 3 "C")), [], [], [], [], []⟩ :=
    .start rfl
  have joined := (start.step (.connect 0 rfl rfl)).step (.connect 0 rfl rfl)
  have dequeued := joined.step (.dequeue (sampleRequest .say 1 "hello") 0 rfl (by decide) rfl)
  have recorded := (((dequeued.step (.work 0 rfl rfl)).step (.work 0 rfl rfl)).step
    (.work 0 rfl rfl)).step (.work 0 rfl rfl)
  have run := recorded.step (.work 0 rfl rfl)
  refine ⟨_, ⟨_, run⟩, rfl, (joined_once_iff sound (by decide) run ⟨rfl, ?_⟩ (by decide)).2.mpr ?_⟩
  · intro task member
    rw [List.mem_singleton.mp (member : task ∈ [⟨sampleRequest .say 1 "hello", none⟩])]
  · intro visit member worker overlap
    simp only [List.nil_append, List.cons_append, List.mem_cons, List.not_mem_nil, or_false]
      at member
    rcases member with rfl | rfl | rfl | rfl | rfl | rfl | rfl | rfl
    · obtain ⟨-, request, response, node, here⟩ := overlap
      cases here
    · obtain ⟨⟨request, waits⟩, -⟩ := overlap
      cases waits
    · exact overlap.elim
    all_goals
      obtain ⟨-, ⟨request, waits⟩, -⟩ := overlap
      cases waits

/-- A message is appended before a client is added and broadcast after it: the client is
sent the message twice. -/
theorem joined_twice :
    serverSystem.Reachable sampleServer ∧
      ∃ state, (joinSystem sampleServer (sampleRequest .conn 3 "C")).Reachable state ∧
        state.Done ∧ state.server.chatHistoryc ≤ chatHistorySize ∧
        ¬ state.DeliveredOnce sampleServer (sampleRequest .conn 3 "C").fromAddr := by
  have start : (joinSystem sampleServer (sampleRequest .conn 3 "C")).Reachable
      ⟨sampleServer, some (.connectInsert (sampleRequest .conn 3 "C")), [], [], [], [], []⟩ :=
    .start rfl
  have dequeued := start.step (.dequeue (sampleRequest .say 1 "hello") 0 rfl (by decide) rfl)
  have recorded := (((dequeued.step (.work 0 rfl rfl)).step (.work 0 rfl rfl)).step
    (.work 0 rfl rfl)).step (.work 0 rfl rfl)
  have inserted := recorded.step (.connect 0 rfl rfl)
  have run := (inserted.step (.work 0 rfl rfl)).step (.connect 0 rfl rfl)
  refine ⟨sampleServer_reachable, _, run, ⟨rfl, ?_⟩, by decide, fun once => ?_⟩
  · intro task member
    rw [List.mem_singleton.mp (member : task ∈ [⟨sampleRequest .say 1 "hello", none⟩])]
  · obtain ⟨line, -, delivered⟩ := once 0 _ rfl
    have twice : 2 = 1 := congrArg List.length delivered
    cases twice

end MultithreadedChat
