import MultithreadedChat.Client.Muting
import MultithreadedChat.WireFormat

/-! # Names on both sides

A name that the server has taken from a command goes back to the client behind a keyword,
through the same parser, and arrives as it was (`MultithreadedChat.answer_arrives`). So the
name that a client takes from an answer is the one in the node the server has just
written, whatever was typed. It is also the name the server finds for the client's
address, unless the client connects once more: the lookup then stays with the client's
first node (`MultithreadedChat.names_agree`).
-/

namespace MultithreadedChat

open CString

/-- However the datagram is received, handling it has this effect on the client. -/
def ClientTakes (answer : Datagram) (effect : ClientState → ClientState) : Prop :=
  ∀ (client : ClientState) (leftover : List UInt8) (stack : CommandMemory),
    handleCliSideCmd client (relayed answer.response leftover stack) = .ok (effect client)

/-- The server handles the command, and sends this answer. -/
def Answers (server : Server) (request : Request) (now : ℤ) (answer : Datagram)
    (server' : Server) : Prop :=
  ∃ sent, spawnExecuteCommandThreads server request now = .ok (server', sent) ∧ answer ∈ sent

/-- Once the server has handled the command and the client the answer, the client has the
name that the server finds for its address. -/
def AgreesOnName (server : Server) (request : Request) (now : ℤ) (answer : Datagram) : Prop :=
  ∃ server' effect, Answers server request now answer server' ∧ ClientTakes answer effect ∧
    ∀ client, (server'.registry.nameAt request.fromAddr).map CString.bytes =
      some (effect client).name

section Answers

variable {request : Request} (parsed : request.command.Parsed)
include parsed

/-- The client's handlers get the name out of an answer. -/
theorem clientTakes_answer (kind : CommandKind) {keyword opening : List UInt8}
    (spelled : kind.keyword = some keyword) (opens : opening = keyword ++ [dollar, blank])
    (effect : List UInt8 → ClientState → ClientState)
    (handler : ∀ client command, CommandKind.ofCode command.kind = some kind →
      executeServerCommand command client = .ok (effect (command.arg 0) client)) :
    ClientTakes (answer request opening) (effect (request.command.args 0).bytes) := by
  intro client leftover stack
  obtain ⟨nonempty, noBlank, noDollar, noNul, short⟩ := CommandKind.keyword_plain spelled
  obtain ⟨arrived, named⟩ := answer_arrives keyword nonempty noBlank noDollar noNul short parsed
    leftover stack
  have known : kind ≠ .unknown := by
    rintro rfl
    cases spelled
  rw [(CommandKind.ofKeyword_eq_iff known keyword).mpr spelled] at arrived
  rw [opens, handleCliSideCmd, handler client _ ((Delivery.ofCode_kind _).trans arrived), named]

theorem takes_connsuccess : ClientTakes (connsuccess request) fun client =>
    { client with connected := true, name := (request.command.args 0).bytes } := by
  have uncut : connsuccess request = answer request (ascii "connsuccess$ ") := by
    have fits : (request.command.args 0).bytes.length < 20 := (request.command.args 0).fits
    have keyword : (ascii "connsuccess$ ").length = 13 := rfl
    rw [connsuccess, answer, snprintf, List.take_of_length_le]
    rw [List.length_append, keyword]
    dsimp only [maxMessage]
    omega
  rw [uncut]
  refine clientTakes_answer parsed .connSuccess rfl rfl
    (fun name client => { client with connected := true, name := name })
    fun client command connected => ?_
  rw [executeServerCommand, connected]
  rfl

theorem takes_rename : ClientTakes (answer request (ascii "rename$ ")) fun client =>
    { client with name := (request.command.args 0).bytes } := by
  refine clientTakes_answer parsed .rename rfl rfl
    (fun name client => { client with name := name })
    fun client command renamed => ?_
  rw [executeServerCommand, renamed]
  rfl

theorem takes_mute : ClientTakes (answer request (ascii "mute$ ")) fun client =>
    { client with muteTable := client.muteTable.insert (request.command.args 0).bytes } := by
  refine clientTakes_answer parsed .mute rfl rfl
    (fun name client => { client with muteTable := client.muteTable.insert name })
    fun client command muted => ?_
  rw [executeServerCommand, muted]
  rfl

theorem takes_unmute : ClientTakes (answer request (ascii "unmute$ ")) fun client =>
    { client with muteTable := client.muteTable.removeKey (request.command.args 0).bytes } := by
  refine clientTakes_answer parsed .unmute rfl rfl
    (fun name client => { client with muteTable := client.muteTable.removeKey name })
    fun client command unmuted => ?_
  rw [executeServerCommand, unmuted]
  rfl

end Answers

namespace Registry

variable {registry : Registry} {address : SockAddrIn}

/-- The lookup stays with the first client of the address. -/
theorem nameAt_append (node : ℕ × Client) (here : node.2.clientAddress = address) :
    Registry.nameAt (registry ++ [node]) address =
      some ((registry.nameAt address).getD node.2.clientName) := by
  rw [nameAt, nameAt, atAddress, atAddress, List.find?_append,
    List.find?_cons_of_pos (by simpa using here)]
  cases registry.find? fun node => node.2.clientAddress == address <;> rfl

/-- A client that is renamed is found under its new name. -/
theorem nameAt_renamed (distinct : (registry.map Prod.fst).Nodup)
    (known : address ∈ registry.addresses) (name : Name) :
    (registry.writeAt address fun client => { client with clientName := name }).nameAt address =
      some name := by
  obtain ⟨before, id, client, after, rfl, missed, found⟩ := exists_split known
  have foundThere : ({ client with clientName := name } : Client).clientAddress = address := found
  rw [writeAt_append_cons distinct missed found, nameAt, atAddress_append_cons missed foundThere]
  rfl

end Registry

section Exchanges

variable {server : Server} (formed : server.clients.WellFormed) {request : Request} (now : ℤ)
include formed

/-- A connection appends a node with the name, and is confirmed. -/
theorem answers_conn (connects : request.command.kind = .conn) :
    ∃ server' id, Answers server request now (connsuccess request) server' ∧
      server'.registry = server.registry ++
        [(id, ⟨request.fromAddr, request.command.args 0, now, 0⟩)] := by
  obtain ⟨clients, same, formed', -, nodes⟩ := spawn_eq_execute formed request now
  have formedThere : ({ server with clients := clients } : Server).clients.WellFormed := formed'
  obtain ⟨clients', done, -, nodes'⟩ := connectToServer_spec formedThere request now
  have unmarked : server.registry.mark request now = server.registry :=
    if_neg (not_not.mpr connects)
  have worker : executeCommand { server with clients := clients } request now =
      connectToServer { server with clients := clients } request now := by
    rw [executeCommand, connects]
  refine ⟨_, clients.heap.fresh, ⟨_, same.trans (worker.trans done), List.mem_cons_self⟩, ?_⟩
  rw [← unmarked, ← nodes]
  exact nodes'

/-- A registered client is renamed where the server finds it. -/
theorem answers_rename (renames : request.command.kind = .rename)
    (known : request.fromAddr ∈ server.registry.addresses) :
    ∃ server', Answers server request now (answer request (ascii "rename$ ")) server' ∧
      server'.registry.nameAt request.fromAddr = some (request.command.args 0) := by
  obtain ⟨clients, same, formed', -, nodes⟩ := spawn_eq_execute formed request now
  have formedThere : ({ server with clients := clients } : Server).clients.WellFormed := formed'
  have knownThere :
      request.fromAddr ∈ ({ server with clients := clients } : Server).registry.addresses := by
    rw [Server.registry, nodes, Registry.addresses_mark]
    exact known
  obtain ⟨node, present⟩ := Registry.exists_atAddress.mpr knownThere
  obtain ⟨clients', done, -, nodes'⟩ := renameClient_present formedThere present
  have worker : executeCommand { server with clients := clients } request now =
      renameClient { server with clients := clients } request := by
    rw [executeCommand, renames]
  refine ⟨_, ⟨_, same.trans (worker.trans done), List.mem_singleton_self _⟩, ?_⟩
  rw [Server.registry, nodes']
  exact Registry.nameAt_renamed formed'.nodup knownThere _

/-- A command whose worker does nothing but answer. -/
theorem answers_alone (sent : Datagram)
    (worker : ∀ clients, executeCommand { server with clients := clients } request now =
      .ok ({ server with clients := clients }, [sent])) :
    ∃ server', Answers server request now sent server' := by
  obtain ⟨clients, same, -⟩ := spawn_eq_execute formed request now
  exact ⟨_, _, same.trans (worker clients), List.mem_singleton_self _⟩

end Exchanges

/-- What the exchange of a command and its answer does to the names on both sides. -/
structure NamesAgree (server : Server) (request : Request) (now : ℤ) : Prop where
  /-- The client takes the name in the node that the connection has appended. -/
  connected : request.command.kind = .conn → ∃ server' id client,
    Answers server request now (connsuccess request) server' ∧
      server'.registry = server.registry ++ [(id, client)] ∧
      client.clientAddress = request.fromAddr ∧
      ClientTakes (connsuccess request) fun state =>
        { state with connected := true, name := client.clientName.bytes }
  /-- The server finds this name, unless it already had another one for the address. -/
  found : request.command.kind = .conn →
    (AgreesOnName server request now (connsuccess request) ↔
      ∀ name ∈ server.registry.nameAt request.fromAddr, name = request.command.args 0)
  renamed : request.command.kind = .rename → request.fromAddr ∈ server.registry.addresses →
    AgreesOnName server request now (answer request (ascii "rename$ "))
  muted : request.command.kind = .mute → ∃ server',
    Answers server request now (answer request (ascii "mute$ ")) server' ∧
      ClientTakes (answer request (ascii "mute$ ")) fun state =>
        { state with muteTable := state.muteTable.insert (request.command.args 0).bytes }
  unmuted : request.command.kind = .unmute → ∃ server',
    Answers server request now (answer request (ascii "unmute$ ")) server' ∧
      ClientTakes (answer request (ascii "unmute$ ")) fun state =>
        { state with muteTable := state.muteTable.removeKey (request.command.args 0).bytes }

/-- After a connection, both sides agree on the name unless the server has another one. -/
theorem agreesOnName_conn_iff {server : Server} (formed : server.clients.WellFormed)
    {request : Request} (parsed : request.command.Parsed) (now : ℤ)
    (connects : request.command.kind = .conn) :
    AgreesOnName server request now (connsuccess request) ↔
      ∀ name ∈ server.registry.nameAt request.fromAddr, name = request.command.args 0 := by
  obtain ⟨server', id, answers, nodes⟩ := answers_conn formed now connects
  have lookup : server'.registry.nameAt request.fromAddr =
      some ((server.registry.nameAt request.fromAddr).getD (request.command.args 0)) := by
    rw [nodes]
    exact Registry.nameAt_append _ rfl
  constructor
  · rintro ⟨other, effect, ⟨sent, done, -⟩, takes, agrees⟩ name listed
    obtain ⟨sent', done', -⟩ := answers
    obtain ⟨rfl, -⟩ := Prod.mk.inj (Except.ok.inj (done'.symm.trans done))
    have same := Except.ok.inj ((takes .fresh [] .zeroed).symm.trans
      (takes_connsuccess parsed .fresh [] .zeroed))
    have held := agrees .fresh
    rw [same, lookup, listed] at held
    exact bytes_injective (Option.some.inj held)
  · intro unnamed
    refine ⟨server', _, answers, takes_connsuccess parsed, fun client => ?_⟩
    rw [lookup]
    cases listed : server.registry.nameAt request.fromAddr with
    | none => rfl
    | some name => rw [unnamed name listed]; rfl

/-- **Names on both sides.** Whatever was typed, the name a client takes from the server's
answer is the one the server has just stored, and the name it mutes or unmutes is the one
the server has parsed. -/
theorem names_agree {server : Server} (reachable : serverSystem.Reachable server)
    {request : Request} (parsed : request.command.Parsed) (now : ℤ) :
    NamesAgree server request now where
  connected connects := by
    obtain ⟨server', id, answers, nodes⟩ :=
      answers_conn (wellFormed_of_reachable reachable) now connects
    exact ⟨server', id, _, answers, nodes, rfl, takes_connsuccess parsed⟩
  found := agreesOnName_conn_iff (wellFormed_of_reachable reachable) parsed now
  renamed renames known := by
    obtain ⟨server', answers, lookup⟩ :=
      answers_rename (wellFormed_of_reachable reachable) now renames known
    exact ⟨server', _, answers, takes_rename parsed, fun client => by rw [lookup]; rfl⟩
  muted mutes := by
    obtain ⟨server', answers⟩ := answers_alone (wellFormed_of_reachable reachable) now
      (answer request (ascii "mute$ ")) fun clients => by rw [executeCommand, mutes]; rfl
    exact ⟨server', answers, takes_mute parsed⟩
  unmuted unmutes := by
    obtain ⟨server', answers⟩ := answers_alone (wellFormed_of_reachable reachable) now
      (answer request (ascii "unmute$ ")) fun clients => by rw [executeCommand, unmutes]; rfl
    exact ⟨server', answers, takes_unmute parsed⟩

/-- A client of port 1 sends a message. -/
def requestOf (message : String) : Request := ⟨commandOf message, ⟨2, 1, 16777343, 0⟩⟩

/-- A first connection, with a name that has dollar signs and is too long for its slot. -/
theorem names_agree_cut :
    AgreesOnName .start (requestOf "conn$ $$a_very_expensive_name") 0
      (connsuccess (requestOf "conn$ $$a_very_expensive_name")) := by
  have parsed : (commandOf "conn$ $$a_very_expensive_name").Parsed := ⟨_, _, by decide, rfl⟩
  refine ((names_agree (.start rfl) parsed 0).found rfl).mpr fun name listed => ?_
  cases listed

/-- A client that connects once more is still A for the server. -/
theorem reconnected_disagrees :
    ∃ server, serverSystem.Reachable server ∧ (requestOf "conn$ B").command.Parsed ∧
      (requestOf "conn$ B").command.kind = .conn ∧
      ¬ AgreesOnName server (requestOf "conn$ B") 0 (connsuccess (requestOf "conn$ B")) := by
  have start : serverSystem.Reachable Server.start := .start rfl
  have one := start.step (handled_step (.command (requestOf "conn$ A") 0) rfl)
  have parsed : (commandOf "conn$ B").Parsed := ⟨_, _, by decide, rfl⟩
  refine ⟨_, one, parsed, rfl, fun agrees => ?_⟩
  have same := (agreesOnName_conn_iff (wellFormed_of_reachable one) parsed 0 rfl).mp agrees
    ((requestOf "conn$ A").command.args 0) rfl
  exact absurd same (by decide)

end MultithreadedChat
