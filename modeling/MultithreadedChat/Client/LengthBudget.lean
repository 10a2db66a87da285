import MultithreadedChat.Client.Muting
import MultithreadedChat.Listener
import MultithreadedChat.Server.Joining

/-! # Lengths from the server's buffers to the client's

Every string that a handler of the server formats is shorter than the limit it is formatted
with, no longer than the queue of the client keeps, and its arguments, joined again by
the client, fit the buffer of `join` (`MultithreadedChat.responses_within_budget`). The
sender's copy of a private message is the longest: it may be too long for that buffer,
and fits because its words are cut to the size of an argument.
-/

namespace MultithreadedChat

open CString LinkedList

/-- A string that a handler formats, and the limit of the `snprintf`, or the size of the
buffer of the `sprintf`. -/
structure Formatted where
  text : List UInt8
  limit : ℕ

/-- What is in the buffer then. -/
def Formatted.result (formatted : Formatted) : List UInt8 :=
  snprintf formatted.limit formatted.text

namespace Server

variable (server : Server)

/-- The lines of the history that `connect_to_server` formats. -/
def historyStrings : List Formatted :=
  let start := if server.chatHistoryc > chatHistorySize
    then server.chatHistoryc - chatHistorySize else 0
  (List.range' start (server.chatHistoryc - start)).filterMap fun i =>
    (server.chatHistory i).map fun line => ⟨ascii "say$ " ++ line, responseBufferSize⟩

/-- The strings of `say`: the full message, which goes into the history, and the response. -/
def sayStrings (sender : Name) (command : Command) : List Formatted :=
  let fullMessage : Formatted :=
    ⟨sender.bytes ++ ascii ": " ++ joinArgs command.args 0 maxMessage, maxMessage + maxNameLen + 2⟩
  [fullMessage, ⟨ascii "say$ " ++ fullMessage.result, responseBufferSize⟩]

/-- The strings of `sayto`. -/
def saytoStrings (sender : Name) (command : Command) : List Formatted :=
  let toWho := command.args 0
  let message := joinArgs command.args 1 maxMessage
  if toWho ∈ server.registry.names then
    [⟨ascii "say$ " ++ sender.bytes ++ ascii ":(private message) " ++ message, responseBufferSize⟩,
      ⟨ascii "say$ you to " ++ toWho.bytes ++ ascii ":(private message) " ++ message,
        responseBufferSize⟩]
  else [⟨ascii "error$ User not found. (" ++ toWho.bytes ++ ascii ")", responseBufferSize⟩]

/-- The strings of `kick`. -/
def kickStrings (request : Request) : List Formatted :=
  let name := request.command.args 0
  if server.registry.administers request.fromAddr then
    if name ∈ server.registry.names then
      [⟨ascii "disconnresponse$", maxMessage⟩,
        ⟨ascii "say$ SERVER: " ++ name.bytes ++ ascii " has been kicked", responseBufferSize⟩]
    else []
  else [⟨ascii "error$ Permission denied. Only admin can kick users.", maxMessage⟩]

/-- The strings that the handler of a command formats. -/
def strings (request : Request) : List Formatted :=
  let name := request.command.args 0
  let sender := server.registry.nameAt request.fromAddr
  match request.command.kind with
  | .conn => ⟨ascii "connsuccess$ " ++ name.bytes, bufferSize⟩ :: server.historyStrings
  | .say => sender.elim [] fun sender => sayStrings sender request.command
  | .sayto => sender.elim [] fun sender => server.saytoStrings sender request.command
  | .disconn => [⟨ascii "disconnresponse$", maxMessage⟩]
  | .mute => [⟨ascii "mute$ " ++ name.bytes, maxMessage⟩]
  | .unmute => [⟨ascii "unmute$ " ++ name.bytes, maxMessage⟩]
  | .rename => [⟨ascii "rename$ " ++ name.bytes, maxMessage⟩]
  | .kick => server.kickStrings request
  | .unknown => [⟨ascii "error$ Unknown command", maxMessage⟩]
  | .retping | .connSuccess | .connFailed | .disconnResponse | .ping | .error => []

end Server

/-- The string is shorter than its limit, a slot of the client's queue keeps all of it, and
whatever is behind it in the packet and on the client's stack, the client joins its
arguments within the buffer of `join`. -/
structure Formatted.WithinBudget (formatted : Formatted) : Prop where
  uncut : formatted.text.length < formatted.limit
  queued : formatted.text.length ≤ queueMsgSize - 1
  joined : ∀ leftover stack, ∃ whole,
    join (relayed formatted.text leftover stack).command = .ok whole ∧
      whole.length ≤ joinSize - 1

/-! ## Joining what the client tokenised -/

/-- `join` succeeds on the arguments of a datagram if they fit. -/
theorem join_delivery {delivery : Delivery} (fits : FitsJoin delivery.args) :
    join delivery.command = .ok ([blank].intercalate delivery.args) := by
  rw [join_eq_ok_iff, delivery.leading_command]
  exact ⟨fits, rfl⟩

/-- The arguments of a text are no longer than the text. -/
theorem fitsJoin_relayed {text : List UInt8} (noNul : 0 ∉ text) (worded : messageWords text ≠ [])
    (short : text.length < joinSize) (leftover : List UInt8) (stack : CommandMemory) :
    FitsJoin (relayed text leftover stack).args := by
  have words := relayed_words noNul (short.trans (by decide)) leftover stack
  rw [Delivery.fitsJoin_args_iff _ (words ▸ worded), Delivery.args, words]
  have whole := (length_intercalate_messageWords_le text).trans_lt short
  cases found : messageWords text with
  | nil => exact (worded found).elim
  | cons keyword rest =>
      have cut := @List.length_intercalate_cut_le_whole _ blank rest rest.length (nameSize - 1)
      rw [List.take_length, List.length_intercalate rest] at cut
      rw [found, List.length_intercalate, List.map_cons, List.sum_cons, List.length_cons] at whole
      change ([blank].intercalate (rest.map (List.take (nameSize - 1)))).length < joinSize
      omega

namespace Formatted.WithinBudget

/-- A string with a word fits if it is short. -/
theorem of_short {formatted : Formatted} (noNul : 0 ∉ formatted.text) {byte : UInt8}
    (member : byte ∈ formatted.text) (visible : byte ≠ blank ∧ byte ≠ dollar)
    (short : formatted.text.length < joinSize) (uncut : formatted.text.length < formatted.limit) :
    formatted.WithinBudget where
  uncut := uncut
  queued := Nat.le_pred_of_lt (short.trans (show joinSize < queueMsgSize by decide))
  joined := by
    intro leftover stack
    have worded : messageWords formatted.text ≠ [] := messageWords_ne_nil_iff.mpr
      ⟨byte, (List.mem_erase_of_ne visible.2).mpr member, visible.1⟩
    have fits := fitsJoin_relayed noNul worded short leftover stack
    exact ⟨_, join_delivery fits, Nat.le_pred_of_lt (fitsJoin_iff.mp fits).2⟩

/-- A string that opens with a keyword fits if both its parts are short. -/
theorem of_keyword {keyword body : List UInt8} {limit : ℕ}
    (opening : 0 ∉ keyword ∧ ∃ byte ∈ keyword, byte ≠ blank ∧ byte ≠ dollar) (noNul : 0 ∉ body)
    (short : keyword.length + body.length < min joinSize limit) :
    WithinBudget ⟨keyword ++ body, limit⟩ := by
  obtain ⟨plain, byte, member, visible⟩ := opening
  rw [← List.length_append, Nat.lt_min] at short
  exact of_short (List.not_mem_append plain noNul) (List.mem_append_left _ member) visible short.1
    short.2

end Formatted.WithinBudget

section Budgets

variable (sender : Name) (command : Command)

/-- The length of a name is at most `NAME_SIZE - 1`. -/
theorem length_name_lt (name : Name) : name.bytes.length < 20 := name.fits

/-- A text that opens with a keyword. -/
def Opening (text : String) : Prop :=
  0 ∉ ascii text ∧ ∃ byte ∈ ascii text, byte ≠ blank ∧ byte ≠ dollar

instance (text : String) : Decidable (Opening text) := inferInstanceAs (Decidable (_ ∧ _))

theorem withinBudget_fixed {text : String} {limit : ℕ} (opening : Opening text)
    (short : (ascii text).length < min joinSize limit) :
    Formatted.WithinBudget ⟨ascii text, limit⟩ := by
  have whole := Formatted.WithinBudget.of_keyword opening List.not_mem_nil short
  rwa [List.append_nil] at whole

/-- A name between two fixed texts. -/
theorem withinBudget_around {text closing : String} {limit : ℕ} (opening : Opening text)
    (plain : 0 ∉ ascii closing)
    (short : (ascii text).length + 20 + (ascii closing).length ≤ min joinSize limit)
    (name : Name) :
    Formatted.WithinBudget ⟨ascii text ++ name.bytes ++ ascii closing, limit⟩ := by
  have fits := length_name_lt name
  rw [List.append_assoc]
  refine .of_keyword opening ?_ ?_
  · exact List.not_mem_append name.noNul plain
  · rw [List.length_append]
    omega

theorem withinBudget_named {text : String} {limit : ℕ} (opening : Opening text)
    (short : (ascii text).length + 20 ≤ min joinSize limit) (name : Name) :
    Formatted.WithinBudget ⟨ascii text ++ name.bytes, limit⟩ := by
  have whole := @withinBudget_around text "" limit opening (by decide) short name
  rwa [show ascii "" = [] from rfl, List.append_nil] at whole

theorem withinBudget_history {line : List UInt8}
    (short : line.length < maxMessage + maxNameLen + 2) (noNul : 0 ∉ line) :
    Formatted.WithinBudget ⟨ascii "say$ " ++ line, responseBufferSize⟩ := by
  refine .of_keyword (by decide) noNul ?_
  have keyword : (ascii "say$ ").length = 5 := rfl
  rw [keyword]
  dsimp only [maxMessage, maxNameLen, joinSize, responseBufferSize] at short ⊢
  omega

theorem withinBudget_say :
    ∀ formatted ∈ Server.sayStrings sender command, formatted.WithinBudget := by
  have short := length_fullMessage_lt sender command
  have noNul := fullMessage_noNul sender command
  refine List.forall_mem_cons.mpr ⟨?_, List.forall_mem_singleton.mpr ?_⟩
  · have colonInside :
        colon ∈ sender.bytes ++ ascii ": " ++ joinArgs command.args 0 maxMessage := by
      simp [show ascii ": " = [colon, blank] from rfl]
    refine .of_short ?_ colonInside (by decide) (short.trans (by decide)) short
    rw [← fullMessage_eq]
    exact noNul
  · exact withinBudget_history (fullMessage_length_lt sender command) noNul

/-- The text of a private message is behind a name and a note. -/
theorem private_spec (name : Name) :
    (name.bytes ++ ascii ":(private message) " ++ joinArgs command.args 1 maxMessage).length ≤ 293 ∧
      0 ∉ name.bytes ++ ascii ":(private message) " ++ joinArgs command.args 1 maxMessage := by
  have fits := length_name_lt name
  have text : (joinArgs command.args 1 maxMessage).length < 256 :=
    length_joinArgs_lt command.args 1 (by decide)
  have note : (ascii ":(private message) ").length = 19 := rfl
  constructor
  · rw [List.length_append, List.length_append, note]
    omega
  · exact List.not_mem_append (List.not_mem_append name.noNul (by decide)) (joinArgs_noNul _ 1)

theorem withinBudget_received :
    Formatted.WithinBudget ⟨ascii "say$ " ++ sender.bytes ++ ascii ":(private message) " ++
      joinArgs command.args 1 maxMessage, responseBufferSize⟩ := by
  obtain ⟨short, noNul⟩ := private_spec command sender
  rw [List.append_assoc, List.append_assoc, ← List.append_assoc sender.bytes]
  refine .of_keyword (by decide) noNul ?_
  have keyword : (ascii "say$ ").length = 5 := rfl
  rw [keyword]
  exact (Nat.add_le_add_left short 5).trans_lt (by decide)

/-- The sender's copy may be longer than the buffer of `join`, but its arguments are not. -/
theorem withinBudget_confirmed (parsed : command.Parsed) :
    Formatted.WithinBudget ⟨ascii "say$ you to " ++ (command.args 0).bytes ++
      ascii ":(private message) " ++ joinArgs command.args 1 maxMessage, responseBufferSize⟩ := by
  obtain ⟨short, -⟩ := private_spec command (command.args 0)
  set text := ascii "say$ you to " ++ (command.args 0).bytes ++ ascii ":(private message) " ++
    joinArgs command.args 1 maxMessage with textEq
  have length : text.length ≤ 305 := by
    have keyword : (ascii "say$ you to ").length = 12 := rfl
    rw [textEq, List.append_assoc, List.append_assoc, ← List.append_assoc (command.args 0).bytes,
      List.length_append, keyword]
    omega
  have whole : text = ascii "say$ " ++ SenderLine.confirmed.line (command.args 0) command := by
    rw [← SenderLine.response_eq]
    exact (List.take_of_length_le (length.trans (by decide))).symm
  have named : Name.Parsed (command.args 0) := ⟨command, parsed, rfl⟩
  obtain ⟨noNul, fits, joins, -⟩ := SenderLine.confirmed.loggedLine_line named parsed
  refine ⟨length.trans_lt (show 305 < responseBufferSize by decide),
    length.trans (show 305 ≤ queueMsgSize - 1 by decide), ?_⟩
  intro leftover stack
  have joined := join_delivery (fitsJoin_relayed_say noNul fits leftover stack joins)
  rw [relayed_say_args noNul fits, ← whole] at joined
  exact ⟨_, joined, Nat.le_pred_of_lt joins⟩

theorem withinBudget_sayto (server : Server) (parsed : command.Parsed) :
    ∀ formatted ∈ server.saytoStrings sender command, formatted.WithinBudget := by
  unfold Server.saytoStrings
  dsimp only
  split
  · exact List.forall_mem_cons.mpr ⟨withinBudget_received sender command,
      List.forall_mem_singleton.mpr (withinBudget_confirmed command parsed)⟩
  · exact List.forall_mem_singleton.mpr
      (withinBudget_around (by decide) (by decide) (by decide) (command.args 0))

theorem withinBudget_kick (server : Server) (request : Request) :
    ∀ formatted ∈ server.kickStrings request, formatted.WithinBudget := by
  unfold Server.kickStrings
  dsimp only
  split
  · split
    · exact List.forall_mem_cons.mpr ⟨withinBudget_fixed (by decide) (by decide),
        List.forall_mem_singleton.mpr
          (withinBudget_around (by decide) (by decide) (by decide) (request.command.args 0))⟩
    · exact fun _ member => absurd member List.not_mem_nil
  · exact List.forall_mem_singleton.mpr (withinBudget_fixed (by decide) (by decide))

end Budgets

/-- What a server remembers of its broadcasts. -/
structure Server.HistoryShort (server : Server) : Prop where
  short : ∀ slot line, server.chatHistory slot = some line →
    line.length < maxMessage + maxNameLen + 2
  noNul : ∀ slot line, server.chatHistory slot = some line → 0 ∉ line

theorem withinBudget_strings {server : Server} (remembers : server.HistoryShort)
    {request : Request} (parsed : request.command.Parsed) :
    ∀ formatted ∈ server.strings request, formatted.WithinBudget := by
  unfold Server.strings
  cases request.command.kind with
  | conn =>
      refine List.forall_mem_cons.mpr ⟨withinBudget_named (by decide) (by decide) _, ?_⟩
      intro formatted member
      obtain ⟨slot, -, stored⟩ := List.mem_filterMap.mp member
      obtain ⟨line, found, rfl⟩ := Option.map_eq_some_iff.mp stored
      exact withinBudget_history (remembers.short slot line found) (remembers.noNul slot line found)
  | say =>
      cases server.registry.nameAt request.fromAddr with
      | none => exact fun _ member => absurd member List.not_mem_nil
      | some sender => exact withinBudget_say sender request.command
  | sayto =>
      cases server.registry.nameAt request.fromAddr with
      | none => exact fun _ member => absurd member List.not_mem_nil
      | some sender => exact withinBudget_sayto sender request.command server parsed
  | kick => exact withinBudget_kick server request
  | mute | unmute | rename =>
      exact List.forall_mem_singleton.mpr (withinBudget_named (by decide) (by decide) _)
  | disconn | unknown =>
      exact List.forall_mem_singleton.mpr (withinBudget_fixed (by decide) (by decide))
  | _ => exact fun _ member => absurd member List.not_mem_nil

/-! ## What is sent -/

theorem Formatted.WithinBudget.result_eq {formatted : Formatted}
    (within : formatted.WithinBudget) : formatted.result = formatted.text :=
  List.take_of_length_le (Nat.le_pred_of_lt within.uncut)

namespace Registry

variable {registry : Registry}

theorem exists_named {name : Name} :
    (∃ node, registry.named name = some node) ↔ name ∈ registry.names := by
  rw [← Option.isSome_iff_exists, named, List.find?_isSome, names, List.mem_map]
  simp

@[simp] theorem administers_mark (address : SockAddrIn) (request : Request) (now : ℤ) :
    (registry.mark request now).administers address = registry.administers address := by
  rw [Bool.eq_iff_iff, administers_iff, administers_iff, places_mark]

end Registry

/-- Marking activity does not change what the handler formats. -/
theorem strings_mark {server : Server} {clients : ClientList} {request : Request} {now : ℤ}
    (nodes : clients.nodes = server.registry.mark request now) :
    Server.strings { server with clients := clients } request = server.strings request := by
  have registry : Server.registry { server with clients := clients } =
      server.registry.mark request now := nodes
  simp only [Server.strings, Server.kickStrings, Server.saytoStrings, Server.historyStrings,
    registry, Registry.nameAt_mark, Registry.names_mark, Registry.administers_mark]

section Sent

variable {server server' : Server} (formed : server.clients.WellFormed) {request : Request}
  {sent : List Datagram}
include formed

theorem sayto_strings (done : sayto server request = .ok (server', sent)) :
    ∃ sender, server.registry.nameAt request.fromAddr = some sender ∧
      sent.map Datagram.response =
        (server.saytoStrings sender request.command).map Formatted.result := by
  cases stored : server.registry.atAddress request.fromAddr with
  | none =>
      rw [sayto_absent formed stored] at done
      cases done
  | some node =>
      obtain ⟨id, client⟩ := node
      obtain ⟨found, next, loaded⟩ := findSender_present formed stored
      refine ⟨client.clientName, by rw [Registry.nameAt, stored, Option.map_some], ?_⟩
      simp only [sayto, formed.findRecipient_eq, found, loaded, ok_bind] at done
      cases named : server.registry.named (request.command.args 0) with
      | none =>
          have unknown : request.command.args 0 ∉ server.registry.names := by
            rw [← Registry.exists_named, named]
            simp
          rw [named] at done
          cases done
          rw [Server.saytoStrings, if_neg unknown]
          rfl
      | some recipient =>
          have known : request.command.args 0 ∈ server.registry.names :=
            Registry.exists_named.mp ⟨recipient, named⟩
          obtain ⟨next, reached⟩ := formed.load_eq (List.mem_of_find?_eq_some named)
          rw [named] at done
          simp only [Option.map_some, reached, ok_bind] at done
          cases done
          rw [Server.saytoStrings, if_pos known]
          rfl

theorem kick_strings (done : kick server request = .ok (server', sent)) :
    ∀ datagram ∈ sent,
      datagram.response ∈ (server.kickStrings request).map Formatted.result := by
  cases admin : server.registry.administers request.fromAddr with
  | false =>
      rw [kick_denied formed admin] at done
      cases done
      simp only [Server.kickStrings, admin]
      exact List.forall_mem_singleton.mpr List.mem_cons_self
  | true =>
      obtain ⟨clients, granted, -, -⟩ := kick_granted formed admin
      rw [granted] at done
      cases named : server.registry.named (request.command.args 0) with
      | none =>
          rw [named] at done
          cases done
          exact fun _ member => absurd member List.not_mem_nil
      | some removed =>
          have known : request.command.args 0 ∈ server.registry.names :=
            Registry.exists_named.mp ⟨removed, named⟩
          rw [named] at done
          cases done
          simp only [Server.kickStrings, admin, ↓reduceIte, known]
          refine List.forall_mem_cons.mpr ⟨List.mem_cons_self, ?_⟩
          intro datagram member
          obtain ⟨node, -, rfl⟩ := List.mem_map.mp member
          exact List.mem_cons_of_mem _ List.mem_cons_self

/-- A handler sends nothing but the strings it formats. -/
theorem executeCommand_strings {now : ℤ}
    (done : executeCommand server request now = .ok (server', sent)) :
    ∀ datagram ∈ sent, datagram.response ∈ (server.strings request).map Formatted.result := by
  unfold executeCommand at done
  unfold Server.strings
  cases kind : request.command.kind with
  | conn =>
      rw [kind] at done
      obtain ⟨clients, connected, -, -⟩ := connectToServer_spec formed request now
      rw [connected] at done
      cases done
      refine List.forall_mem_cons.mpr ⟨?_, ?_⟩
      · have whole := (@withinBudget_named "connsuccess$ " bufferSize (by decide) (by decide)
          (request.command.args 0)).result_eq
        exact List.mem_cons.mpr (.inl whole.symm)
      · intro datagram member
        obtain ⟨slot, within, stored⟩ := List.mem_filterMap.mp member
        obtain ⟨line, found, rfl⟩ := Option.map_eq_some_iff.mp stored
        refine List.mem_cons_of_mem _ (List.mem_map.mpr ⟨_, List.mem_filterMap.mpr
          ⟨slot, within, by rw [found]; rfl⟩, rfl⟩)
  | say =>
      rw [kind] at done
      cases named : server.registry.nameAt request.fromAddr with
      | none =>
          have absent : server.registry.atAddress request.fromAddr = none :=
            Option.map_eq_none_iff.mp named
          rw [say_absent formed absent] at done
          cases done
      | some sender =>
          rw [say_present formed named] at done
          cases done
          intro datagram member
          obtain ⟨node, -, rfl⟩ := List.mem_map.mp member
          exact List.mem_cons_of_mem _ List.mem_cons_self
  | sayto =>
      rw [kind] at done
      obtain ⟨sender, named, same⟩ := sayto_strings formed done
      rw [named]
      intro datagram member
      exact same ▸ List.mem_map_of_mem member
  | disconn =>
      rw [kind] at done
      obtain ⟨-, rfl⟩ | ⟨-, -, address, -, -, rfl⟩ := disconnect_cases done
      · exact fun _ member => absurd member List.not_mem_nil
      · intro datagram member
        obtain ⟨asked, -, rfl⟩ := Option.map_eq_some_iff.mp (Option.mem_toList.mp member)
        exact List.mem_cons_self
  | kick =>
      rw [kind] at done
      exact kick_strings formed done
  | rename =>
      rw [kind] at done
      obtain ⟨clients, -, done⟩ := exists_of_bind_eq_ok done
      cases done
      exact List.forall_mem_singleton.mpr List.mem_cons_self
  | mute | unmute | unknown =>
      rw [kind] at done
      cases done
      exact List.forall_mem_singleton.mpr List.mem_cons_self
  | _ =>
      rw [kind] at done
      cases done
      exact fun _ member => absurd member List.not_mem_nil

end Sent

/-- A line of the history after an append is the new one or was there before. -/
theorem Server.chatHistory_record {server : Server} {message line : List UInt8} {slot : ℕ}
    (stored : (server.record message).chatHistory slot = some line) :
    server.chatHistory slot = some line ∨ line = message := by
  unfold Server.record at stored
  split at stored
  · dsimp only at stored
    by_cases here : slot = server.chatHistoryc
    · rw [here, Function.update_self] at stored
      exact .inr (Option.some.inj stored).symm
    · rw [Function.update_of_ne here] at stored
      exact .inl stored
  · exact .inl stored

theorem historyShort_of_reachable {server : Server} (reachable : serverSystem.Reachable server) :
    server.HistoryShort := by
  obtain ⟨trace, execution⟩ := reachable
  have remembers := history_of_execution execution
  have said : ∀ slot line, server.chatHistory slot = some line →
      ∃ sender command, line = fullMessage sender command := by
    intro slot line stored
    rw [remembers.lines] at stored
    exact exists_fullMessage (List.mem_of_mem_take (List.mem_of_getElem? stored))
  constructor
  · intro slot line stored
    obtain ⟨sender, command, rfl⟩ := said slot line stored
    exact fullMessage_length_lt sender command
  · intro slot line stored
    obtain ⟨sender, command, rfl⟩ := said slot line stored
    exact fullMessage_noNul sender command

/-- **Lengths.** In every reachable state, whatever the handler of a registered client's
command formats is shorter than its limit and fits the queue and the joined arguments of
the client; the responses and the new lines of the history are such strings, whole. -/
theorem responses_within_budget {server : Server} (reachable : serverSystem.Reachable server)
    {request : Request} (parsed : request.command.Parsed)
    (registered : request.fromAddr ∈ server.registry.addresses) (now : ℤ) :
    (∀ formatted ∈ server.strings request, formatted.WithinBudget) ∧
      ∃ server' sent, spawnExecuteCommandThreads server request now = .ok (server', sent) ∧
        (∀ datagram ∈ sent, ∃ formatted ∈ server.strings request,
          datagram.response = formatted.text) ∧
        ∀ slot line, server'.chatHistory slot = some line →
          server.chatHistory slot = some line ∨
            ∃ formatted ∈ server.strings request, line = formatted.text := by
  have formed := wellFormed_of_reachable reachable
  have within := withinBudget_strings (historyShort_of_reachable reachable) parsed
  have whole : ∀ text ∈ (server.strings request).map Formatted.result,
      ∃ formatted ∈ server.strings request, text = formatted.text := by
    intro text member
    obtain ⟨formatted, among, rfl⟩ := List.mem_map.mp member
    exact ⟨formatted, among, (within formatted among).result_eq⟩
  obtain ⟨server', sent, done, -, -, kept⟩ := spawn_spec formed request now fun _ => registered
  obtain ⟨clients, same, formed', -, nodes⟩ := spawn_eq_execute formed request now
  refine ⟨within, server', sent, done, ?_, ?_⟩
  · intro datagram member
    have formedThere : ({ server with clients := clients } : Server).clients.WellFormed := formed'
    have string := executeCommand_strings formedThere (same.symm.trans done) datagram member
    rw [strings_mark nodes] at string
    exact whole _ string
  · intro slot line stored
    by_cases said : request.command.kind = .say
    · obtain ⟨sender, named⟩ := Registry.exists_nameAt.mpr registered
      obtain ⟨clients', recorded, -, -⟩ := spawn_say formed request now said named
      obtain ⟨rfl, -⟩ := Prod.mk.inj (Except.ok.inj (done.symm.trans recorded))
      refine (Server.chatHistory_record stored).imp_right fun new => whole line ?_
      rw [Server.strings, said, named, new]
      exact List.mem_cons_self
    · rw [kept said] at stored
      exact .inl stored

/-- A client writes to itself. -/
theorem responses_within_budget_sayto :
    ∃ server, serverSystem.Reachable server ∧
      ∃ request : Request, request.command.kind = .sayto ∧
        (server.strings request).length = 2 ∧
        ∀ formatted ∈ server.strings request, formatted.WithinBudget := by
  have start : serverSystem.Reachable Server.start := .start rfl
  have connected := start.step (handled_step (.command (sampleRequest .conn 1 "A") 0) rfl)
  have parsed : (commandOf "sayto$ A hello").Parsed := ⟨_, _, by decide, rfl⟩
  have within := @responses_within_budget _ connected
    ⟨commandOf "sayto$ A hello", (sampleRequest .conn 1 "A").fromAddr⟩ parsed (by decide) 0
  exact ⟨_, connected, _, by decide, by decide, within.1⟩

end MultithreadedChat
