import MultithreadedChat.Server.ClientList

/-! # The command handlers of the server

The handlers of the worker threads, the dispatch by command kind, and one pass of
the connection manager, each run alone to its end: the check-ins of the monitor
then pass at once. A handler returns the server it leaves and the datagrams it
sent, or the fault that ends the process; taking the address of a field of a
`NULL` node counts as following it.
-/

namespace MultithreadedChat

open CString LinkedList

abbrev maxNameLen : ℕ := 30
abbrev chatHistorySize : ℕ := 15
abbrev inactivityThreshold : ℤ := 180
abbrev pingTimeout : ℤ := 10

/-- A call of `udp_socket_write`: the string in the response buffer, and how many
bytes of the buffer are sent. -/
structure Datagram where
  addr : SockAddrIn
  response : List UInt8
  size : ℕ
  deriving DecidableEq

/-- The state the workers share: the client list of `main` and the chat history of
the queue manager. -/
structure Server where
  clients : ClientList
  chatHistory : ℕ → Option (List UInt8)
  chatHistoryc : ℕ

/-- A parsed command and its source address. -/
structure Request where
  command : Command
  fromAddr : SockAddrIn

/-- What `main` and the queue manager start with. -/
def Server.start : Server := ⟨.empty, fun _ => none, 0⟩

/-- `snprintf` into a buffer of `size` bytes. -/
def snprintf (size : ℕ) (text : List UInt8) : List UInt8 := text.take (size - 1)

/-- The loop of `join_args` over the arguments from the start index on. -/
def joinArgsLoop (maxLen : ℕ) : List Name → List UInt8 → ℕ → Bool → List UInt8
  | [], result, _, _ => result
  | arg :: rest, result, currentLen, first =>
    if arg.bytes = [] then result
    else
      let spaced := !first && currentLen < maxLen - 1
      let result := if spaced then result ++ ascii " " else result
      let currentLen := if spaced then currentLen + 1 else currentLen
      let argLen := arg.bytes.length
      if currentLen + argLen < maxLen - 1 then
        joinArgsLoop maxLen rest (result ++ arg.bytes) (currentLen + argLen) false
      else result

/-- `join_args`. -/
def joinArgs (args : Fin maxCmdSize → Name) (startIndex maxLen : ℕ) : List UInt8 :=
  joinArgsLoop maxLen ((List.ofFn args).drop startIndex) [] 0 true

/-- `chat_history[*chat_historyc] = strdup(full_message)` and the increment, while
there is room. -/
def Server.record (server : Server) (fullMessage : List UInt8) : Server :=
  if server.chatHistoryc < maxMsgs then
    { server with
      chatHistory := Function.update server.chatHistory server.chatHistoryc (some fullMessage)
      chatHistoryc := server.chatHistoryc + 1 }
  else server

@[simp] theorem Server.record_clients (server : Server) (message : List UInt8) :
    (server.record message).clients = server.clients := by
  unfold Server.record
  split <;> rfl

/-- The same response to every node from a pointer on. -/
def broadcast (clients : ClientList) (node : Ptr) (response : List UInt8) :
    Except Fault (List Datagram) := do
  let reached ← clients.heap.collect clients.heap.fresh node
  return reached.map fun node => ⟨node.2.clientAddress, response, responseBufferSize⟩

/-- The lines of the history that `connect_to_server` sends to an address. -/
def Server.replay (server : Server) (addr : SockAddrIn) : List Datagram :=
  let start := if server.chatHistoryc > chatHistorySize
    then server.chatHistoryc - chatHistorySize else 0
  (List.range' start (server.chatHistoryc - start)).filterMap fun i =>
    (server.chatHistory i).map fun line =>
      ⟨addr, snprintf responseBufferSize (ascii "say$ " ++ line), responseBufferSize⟩

/-- The confirmation of a connection. -/
def connsuccess (request : Request) : Datagram :=
  ⟨request.fromAddr, ascii "connsuccess$ " ++ (request.command.args 0).bytes, maxMessage⟩

/-- `connect_to_server`. -/
def connectToServer (server : Server) (request : Request) (now : ℤ) :
    Except Fault (Server × List Datagram) := do
  let name := request.command.args 0
  let clients ← addClientToList server.clients request.fromAddr name now
  return ({ server with clients := clients },
    connsuccess request :: server.replay request.fromAddr)

/-- The `server_reciever_response` of `sayto`. -/
def saytoReceiverResponse (sender : Name) (command : Command) : List UInt8 :=
  snprintf responseBufferSize (ascii "say$ " ++ sender.bytes ++ ascii ":(private message) " ++
    joinArgs command.args 1 maxMessage)

/-- The `server_sender_responce` of `sayto`. -/
def saytoSenderResponse (command : Command) : List UInt8 :=
  snprintf responseBufferSize (ascii "say$ you to " ++ (command.args 0).bytes ++
    ascii ":(private message) " ++ joinArgs command.args 1 maxMessage)

/-- The `server_sender_responce` of `sayto` to an unknown recipient. -/
def saytoMissingResponse (command : Command) : List UInt8 :=
  snprintf responseBufferSize
    (ascii "error$ User not found. (" ++ (command.args 0).bytes ++ ascii ")")

/-- `sayto`. -/
def sayto (server : Server) (request : Request) : Except Fault (Server × List Datagram) := do
  let clients := server.clients
  let toWho := request.command.args 0
  let client ← findClient clients toWho
  let fromWho ← findClientByAddress clients request.fromAddr
  match client with
  | some _ =>
    let sender ← clients.heap.load fromWho
    let recipient ← clients.heap.load client
    return (server, [
      ⟨recipient.value.clientAddress,
        saytoReceiverResponse sender.value.clientName request.command, responseBufferSize⟩,
      ⟨sender.value.clientAddress, saytoSenderResponse request.command, responseBufferSize⟩])
  | none =>
    let sender ← clients.heap.load fromWho
    return (server,
      [⟨sender.value.clientAddress, saytoMissingResponse request.command, responseBufferSize⟩])

/-- The `full_message` of `say`. -/
def fullMessage (sender : Name) (command : Command) : List UInt8 :=
  snprintf (maxMessage + maxNameLen + 2)
    (sender.bytes ++ ascii ": " ++ joinArgs command.args 0 maxMessage)

/-- The `server_response` of `say`. -/
def sayResponse (message : List UInt8) : List UInt8 :=
  snprintf responseBufferSize (ascii "say$ " ++ message)

/-- `say`. -/
def say (server : Server) (request : Request) : Except Fault (Server × List Datagram) := do
  let node := server.clients.head
  let fromWho ← findClientByAddress server.clients request.fromAddr
  let sender ← server.clients.heap.load fromWho
  let message := fullMessage sender.value.clientName request.command
  let sent ← broadcast server.clients node (sayResponse message)
  return (server.record message, sent)

/-- The confirmation of a removal. -/
def disconnresponse (addr : SockAddrIn) : Datagram := ⟨addr, ascii "disconnresponse$", maxMessage⟩

/-- `disconnect`. -/
def disconnect (server : Server) (request : Request) : Except Fault (Server × List Datagram) := do
  match ← findClientByAddress server.clients request.fromAddr with
  | none => return (server, [])
  | some node =>
    let requester ← server.clients.heap.load (some node)
    let (clients, clientAddress) ←
      removeClientFromList server.clients requester.value.clientName
    match clientAddress with
    | some address => return ({ server with clients := clients }, [disconnresponse address])
    | none => return ({ server with clients := clients }, [])

/-- A response of a keyword and the first argument, to the requester. -/
def answer (request : Request) (keyword : List UInt8) : Datagram :=
  ⟨request.fromAddr, snprintf maxMessage (keyword ++ (request.command.args 0).bytes), maxMessage⟩

/-- `mute`. -/
def mute (server : Server) (request : Request) : Except Fault (Server × List Datagram) :=
  return (server, [answer request (ascii "mute$ ")])

/-- `unmute`. -/
def unmute (server : Server) (request : Request) : Except Fault (Server × List Datagram) :=
  return (server, [answer request (ascii "unmute$ ")])

/-- The critical section of `rename_client`. -/
def renameWrite (clients : ClientList) (request : Request) : Except Fault ClientList := do
  let newName := request.command.args 0
  let client ← findClientByAddress clients request.fromAddr
  clients.write client fun client => { client with clientName := newName }

/-- `rename_client`. -/
def renameClient (server : Server) (request : Request) : Except Fault (Server × List Datagram) := do
  let clients ← renameWrite server.clients request
  return ({ server with clients := clients }, [answer request (ascii "rename$ ")])

/-- The admin check of `kick`: the head's address is the requester's. -/
def isAdmin (clients : ClientList) (address : SockAddrIn) : Except Fault Bool := do
  match clients.head with
  | none => return false
  | some _ =>
    let head ← clients.heap.load clients.head
    return head.value.clientAddress == address

/-- The refusal of a kick that the admin did not request. -/
def permissionDenied (addr : SockAddrIn) : Datagram :=
  ⟨addr, ascii "error$ Permission denied. Only admin can kick users.", maxMessage⟩

/-- The `broadcast_message` of `kick`. -/
def kickedResponse (name : Name) : List UInt8 :=
  snprintf responseBufferSize (ascii "say$ SERVER: " ++ name.bytes ++ ascii " has been kicked")

/-- `kick`. -/
def kick (server : Server) (request : Request) : Except Fault (Server × List Datagram) := do
  if ← isAdmin server.clients request.fromAddr then
    let name := request.command.args 0
    let (clients, clientAddress) ← removeClientFromList server.clients name
    match clientAddress with
    | some address =>
      let sent ← broadcast clients clients.head (kickedResponse name)
      return ({ server with clients := clients }, disconnresponse address :: sent)
    | none => return ({ server with clients := clients }, [])
  else return (server, [permissionDenied request.fromAddr])

/-- The response to an unknown command. -/
def unknownCommand (addr : SockAddrIn) : Datagram :=
  ⟨addr, ascii "error$ Unknown command", maxMessage⟩

/-- `handle_unknown_command`. -/
def handleUnknownCommand (server : Server) (request : Request) :
    Except Fault (Server × List Datagram) :=
  return (server, [unknownCommand request.fromAddr])

/-- The `switch` of `spawn_execute_command_threads`, with the worker it creates run to
its end. -/
def executeCommand (server : Server) (request : Request) (now : ℤ) :
    Except Fault (Server × List Datagram) :=
  match request.command.kind with
  | .conn => connectToServer server request now
  | .say => say server request
  | .sayto => sayto server request
  | .disconn => disconnect server request
  | .mute => mute server request
  | .unmute => unmute server request
  | .rename => renameClient server request
  | .kick => kick server request
  | .unknown => handleUnknownCommand server request
  | .retping | .connSuccess | .connFailed | .disconnResponse | .ping | .error =>
    return (server, [])

/-- Anything but a connection counts as activity of the sender. -/
def markActivity (server : Server) (request : Request) (now : ℤ) : Except Fault Server := do
  if request.command.kind ≠ .conn then
    let clients ← updateClientActivity server.clients request.fromAddr now
    return { server with clients := clients }
  else return server

/-- `spawn_execute_command_threads`. -/
def spawnExecuteCommandThreads (server : Server) (request : Request) (now : ℤ) :
    Except Fault (Server × List Datagram) := do
  let server ← markActivity server request now
  executeCommand server request now

/-- The test of the connection manager's scan. -/
def Client.overdue (client : Client) (currentTime : ℤ) : Bool :=
  currentTime - client.lastActive > inactivityThreshold &&
    (client.pingSent == 0 || currentTime - client.pingSent > pingTimeout)

/-- The request for a sign of life. -/
def ping (addr : SockAddrIn) : Datagram := ⟨addr, ascii "ping$", maxMessage⟩

/-- One pass of the loop of `connection_manager`, without interference. -/
def connectionManager (server : Server) (currentTime : ℤ) :
    Except Fault (Server × List Datagram) := do
  let clients := server.clients
  let selected ← clients.heap.seek (fun client => client.overdue currentTime) clients.heap.fresh
    clients.head
  match selected with
  | none => return (server, [])
  | some _ =>
    let node ← clients.heap.load selected
    if node.value.pingSent = 0 then
      let clients ← clients.write selected fun client => { client with pingSent := currentTime }
      return ({ server with clients := clients }, [ping node.value.clientAddress])
    else
      let (clients, _) ← removeClientFromList clients node.value.clientName
      return ({ server with clients := clients }, [disconnresponse node.value.clientAddress])

end MultithreadedChat
