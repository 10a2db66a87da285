import MultithreadedChat.Foundation.CString

/-! # Commands and their limits

The constants, the command type and the keyword table that both programs share,
and the filling of a command from the words of a message
(`MultithreadedChat.commandHandler`).
-/

namespace MultithreadedChat

open CString

/-! ## Sizes of `udp.h` and `cmd.h` -/

abbrev nameSize : ℕ := 20
abbrev maxCmdSize : ℕ := 50
abbrev maxMsgs : ℕ := 100
abbrev maxMessage : ℕ := 256
abbrev responseBufferSize : ℕ := maxMessage + 256

instance : NeZero nameSize := ⟨by decide⟩

instance : NeZero maxCmdSize := ⟨by decide⟩

/-- A string in a `char[NAME_SIZE]` slot. -/
abbrev Name := CString nameSize

/-- `struct sockaddr_in`. Addresses are compared byte for byte, padding included. -/
structure SockAddrIn where
  sinFamily : UInt16
  sinPort : UInt16
  sinAddr : UInt32
  sinZero : UInt64
  deriving DecidableEq, Repr

/-- `command_kind_t`. -/
inductive CommandKind
  | conn
  | connSuccess
  | connFailed
  | say
  | sayto
  | mute
  | unmute
  | rename
  | disconn
  | disconnResponse
  | kick
  | ping
  | retping
  | error
  | unknown
  deriving DecidableEq, Repr

/-- The kind `command_handler` gives to a keyword. -/
def CommandKind.ofKeyword (keyword : List UInt8) : CommandKind :=
  if keyword = ascii "conn" then .conn
  else if keyword = ascii "connsuccess" then .connSuccess
  else if keyword = ascii "connfailed" then .connFailed
  else if keyword = ascii "say" then .say
  else if keyword = ascii "sayto" then .sayto
  else if keyword = ascii "mute" then .mute
  else if keyword = ascii "unmute" then .unmute
  else if keyword = ascii "rename" then .rename
  else if keyword = ascii "disconn" then .disconn
  else if keyword = ascii "disconnresponse" then .disconnResponse
  else if keyword = ascii "kick" then .kick
  else if keyword = ascii "ping" then .ping
  else if keyword = ascii "retping" then .retping
  else if keyword = ascii "error" then .error
  else .unknown

/-- `command_t`. -/
structure Command where
  kind : CommandKind
  args : Fin maxCmdSize → Name

/-- `command_handler`: fill a command from the words of a message. Without a word
the command keeps its previous contents. -/
def commandHandler (command : Command) : List (List UInt8) → Command
  | [] => command
  | keyword :: words =>
    { kind := .ofKeyword keyword
      args := fun slot =>
        match words[slot.val]? with
        | some word => ofBytes nameSize word
        | none => empty nameSize }

end MultithreadedChat
