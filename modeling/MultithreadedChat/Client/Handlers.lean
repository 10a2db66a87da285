import MultithreadedChat.Client.MuteTable
import MultithreadedChat.CommandMemory

/-! # The command handlers of the client

The handlers that run on the commands the server sends, one at a time. Writing behind
the 300 bytes of the buffer of `join`, reading behind the last argument and writing
behind the last row of the message log are faults. What is only printed is left out.
-/

namespace MultithreadedChat

open CString

/-- The fields of `client_t` that the handlers change, and the message log of `main`. -/
structure ClientState where
  name : List UInt8
  connected : Bool
  muteTable : MuteTable
  messages : Fin maxMsgs → List UInt8
  messageCount : ℕ

/-- Accesses outside an array. -/
inductive ClientFault
  | joinOverflow
  | argsOverrun
  | rowOutOfBounds (row : ℕ)
  deriving DecidableEq, Repr

abbrev joinSize : ℕ := 300

/-- `strcat` to a string in a buffer of so many bytes. -/
def strcat (size : ℕ) (result text : List UInt8) : Except ClientFault (List UInt8) :=
  if result.length + text.length < size then .ok (result ++ text) else .error .joinOverflow

/-- The loop of `join` over the remaining arguments. -/
def joinLoop : List (List UInt8) → List UInt8 → Except ClientFault (List UInt8)
  | [], _ => .error .argsOverrun
  | arg :: rest, result =>
    if arg = [] then .ok result
    else do
      let result ← strcat joinSize result arg
      match rest with
      | [] => .error .argsOverrun
      | next :: _ =>
        let result ← if next ≠ [] then strcat joinSize result (ascii " ") else .ok result
        joinLoop rest result

/-- `join`. -/
def join (command : CommandMemory) : Except ClientFault (List UInt8) :=
  joinLoop (List.ofFn command.arg) []

/-- `say_exec`. -/
def sayExec (command : CommandMemory) (client : ClientState) : Except ClientFault ClientState := do
  let result ← join command
  if room : client.messageCount < maxMsgs then
    return { client with
      messages := Function.update client.messages ⟨client.messageCount, room⟩ result
      messageCount := client.messageCount + 1 }
  else .error (.rowOutOfBounds client.messageCount)

/-- `mute_exec`. -/
def muteExec (command : CommandMemory) (client : ClientState) : ClientState :=
  { client with muteTable := client.muteTable.insert (command.arg 0) }

/-- `unmute_exec`. -/
def unmuteExec (command : CommandMemory) (client : ClientState) : ClientState :=
  { client with muteTable := client.muteTable.removeKey (command.arg 0) }

/-- `rename_exec`. -/
def renameExec (command : CommandMemory) (client : ClientState) : ClientState :=
  { client with name := command.arg 0 }

/-- `execute_connect_response`. -/
def executeConnectResponse (command : CommandMemory) (client : ClientState) : ClientState :=
  { client with connected := true, name := command.arg 0 }

/-- `execute_connect_failed`. -/
def executeConnectFailed (command : CommandMemory) (client : ClientState) :
    Except ClientFault ClientState := do
  let _errorMessage ← join command
  return client

/-- `execute_error_response`. -/
def executeErrorResponse (command : CommandMemory) (client : ClientState) :
    Except ClientFault ClientState := do
  let _errorMessage ← join command
  return client

/-- `execute_disconnect_response`. -/
def executeDisconnectResponse (client : ClientState) : ClientState :=
  { client with connected := false, messageCount := 0 }

/-- The kind with a number, if there is one. -/
def CommandKind.ofCode (code : UInt32) : Option CommandKind :=
  [CommandKind.conn, .connSuccess, .connFailed, .say, .sayto, .mute, .unmute, .rename, .disconn,
    .disconnResponse, .kick, .ping, .retping, .error, .unknown].find? fun kind => kind.code = code

@[simp] theorem CommandKind.ofCode_code (kind : CommandKind) : ofCode kind.code = some kind := by
  cases kind <;> rfl

/-- `execute_server_command`. -/
def executeServerCommand (command : CommandMemory) (client : ClientState) :
    Except ClientFault ClientState :=
  match CommandKind.ofCode command.kind with
  | some .connSuccess => return executeConnectResponse command client
  | some .connFailed => executeConnectFailed command client
  | some .disconnResponse => return executeDisconnectResponse client
  | some .error => executeErrorResponse command client
  | some .say => sayExec command client
  | some .mute => return muteExec command client
  | some .unmute => return unmuteExec command client
  | some .rename => return renameExec command client
  | _ => return client

/-- A datagram that reaches a handler: the bytes that `cli_listener` appends to the
queue, and what the stack of the handler's thread holds where the command will be. -/
structure Delivery where
  msg : List UInt8
  stack : CommandMemory

/-- The command a handler executes for a datagram. -/
def Delivery.command (delivery : Delivery) : CommandMemory :=
  parseSlot delivery.stack (storedMsg delivery.msg)

/-- `handle_cli_side_cmd`, after the queue has been appended and popped. -/
def handleCliSideCmd (client : ClientState) (delivery : Delivery) :
    Except ClientFault ClientState :=
  executeServerCommand delivery.command client

/-- Handling datagrams one after the other. -/
def handleAll (client : ClientState) (deliveries : List Delivery) :
    Except ClientFault ClientState :=
  deliveries.foldlM handleCliSideCmd client

/-- The lines that a redraw of `chat_display` skips. -/
def ClientState.skips (client : ClientState) (line : List UInt8) : Bool :=
  client.muteTable.contains (extractUsername line nameSize)

/-- The lines that a redraw of `chat_display` prints. -/
def ClientState.redraw (client : ClientState) : List (List UInt8) :=
  ((List.ofFn client.messages).take client.messageCount).filter fun line => !client.skips line

end MultithreadedChat
