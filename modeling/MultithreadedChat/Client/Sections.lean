import MultithreadedChat.Client.Handlers

/-! # The sections of the client's handlers

The handlers of the client cut at the sections they run under a mutex. A handler that
runs alone does what it does uncut (`MultithreadedChat.executeServerCommand_eq`).
-/

namespace MultithreadedChat

/-- The sections, each named after the handler it is in; connecting and disconnecting
have a section for `connection_mutex` and one for `messages_mutex`. The handlers that
print an error only join it. -/
inductive Section
  | say (command : CommandMemory)
  | mute (command : CommandMemory)
  | unmute (command : CommandMemory)
  | rename (command : CommandMemory)
  | connect (command : CommandMemory)
  | connectRedraw
  | disconnect
  | disconnectClear
  | error (command : CommandMemory)

namespace Section

/-- What a section does to the client, if no other handler writes into the buffer of `join`
meanwhile. -/
def run (client : ClientState) : Section → Except ClientFault ClientState
  | .say command => sayExec command client
  | .mute command => return muteExec command client
  | .unmute command => return unmuteExec command client
  | .rename command => return renameExec command client
  | .connect command => return { client with connected := true, name := command.arg 0 }
  | .connectRedraw => return client
  | .disconnect => return { client with connected := false }
  | .disconnectClear => return { client with messageCount := 0 }
  | .error command => do
    let _errorMessage ← join command
    return client

/-- Whether a section holds `messages_mutex`, and signals `messages_cond`. -/
def signals : Section → Bool
  | .say _ | .mute _ | .unmute _ | .rename _ | .connectRedraw | .disconnectClear => true
  | .connect _ | .disconnect | .error _ => false

end Section

/-- The sections of the handler that `execute_server_command` calls. -/
def sections (command : CommandMemory) : List Section :=
  match CommandKind.ofCode command.kind with
  | some .connSuccess => [.connect command, .connectRedraw]
  | some .connFailed => [.error command]
  | some .disconnResponse => [.disconnect, .disconnectClear]
  | some .error => [.error command]
  | some .say => [.say command]
  | some .mute => [.mute command]
  | some .unmute => [.unmute command]
  | some .rename => [.rename command]
  | _ => []

/-- Sections run one after the other. -/
def runSections (client : ClientState) (run : List Section) : Except ClientFault ClientState :=
  run.foldlM Section.run client

/-- A handler is its sections. -/
theorem executeServerCommand_eq (command : CommandMemory) (client : ClientState) :
    executeServerCommand command client = runSections client (sections command) := by
  have single : ∀ part : Section, runSections client [part] = part.run client := by
    intro part
    rw [runSections, List.foldlM_cons]
    exact bind_pure _
  rw [executeServerCommand, sections]
  cases CommandKind.ofCode command.kind with
  | none => rfl
  | some kind =>
      cases kind with
      | say => exact (single (.say command)).symm
      | connFailed | error => exact (single (.error command)).symm
      | conn | connSuccess | sayto | mute | unmute | rename | disconn | disconnResponse | kick
      | ping | retping | unknown => rfl

end MultithreadedChat
