import MultithreadedChat.Client.Relay

/-! # Muting by name

A redraw skips the lines whose text before the first colon is a muted name. The lines
come from the server as texts, and the name is read off them again
(`MultithreadedChat.hidesExactly_iff`).
-/

namespace MultithreadedChat

open CString

/-! ## Reading a name off a line -/

/-- A nonempty name that is read off a line stands before a colon. -/
theorem exists_of_extractUsername {message : List UInt8} {maxLen : ℕ}
    (named : extractUsername message maxLen ≠ []) :
    ∃ rest, message = extractUsername message maxLen ++ colon :: rest := by
  by_cases present : colon ∈ message
  · obtain ⟨name, rest, rfl, plain⟩ := List.eq_append_cons_of_mem present
    rw [extractUsername_colon plain] at named ⊢
    split at named
    · rename_i short
      exact ⟨rest, by rw [if_pos short]⟩
    · exact (named rfl).elim
  · exact (named (extractUsername_none present maxLen)).elim

/-- No name is read off a line that does not start with a colon exactly if there is no
colon near its start. -/
theorem extractUsername_eq_nil_iff {message : List UInt8} {maxLen : ℕ}
    (starts : message.head? ≠ some colon) :
    extractUsername message maxLen = [] ↔ colon ∉ message.take maxLen := by
  by_cases present : colon ∈ message
  · obtain ⟨name, rest, rfl, plain⟩ := List.eq_append_cons_of_mem present
    have nonempty : name ≠ [] := by
      rintro rfl
      exact starts rfl
    rw [extractUsername_colon plain, List.take_append]
    by_cases short : name.length < maxLen
    · obtain ⟨more, room⟩ : ∃ more, maxLen - name.length = more + 1 :=
        ⟨maxLen - name.length - 1, by omega⟩
      rw [if_pos short, room]
      simp [nonempty]
    · have none : maxLen - name.length = 0 := by omega
      rw [if_neg short, none]
      simp only [List.take_zero, List.append_nil, true_iff]
      exact fun member => plain (List.mem_of_mem_take member)
  · rw [extractUsername_none present]
    simp only [true_iff]
    exact fun member => present (List.mem_of_mem_take member)

/-- A line that starts with the sender's name, a colon and more, cut to an argument slot,
and whose next word is separated by a blank. -/
theorem extractUsername_eq_iff (sender : Name) (suffix : List UInt8) {more : List UInt8}
    (separated : more.head? ≠ some colon) :
    extractUsername ((sender.bytes ++ colon :: suffix).take (nameSize - 1) ++ more) nameSize =
        sender.bytes ↔
      sender.bytes.length ≤ nameSize - 2 ∧ colon ∉ sender.bytes := by
  have fits : sender.bytes.length < 20 := sender.fits
  constructor
  · intro same
    have plain : colon ∉ sender.bytes :=
      same ▸ colon_notMem_extractUsername _ nameSize
    refine ⟨?_, plain⟩
    by_contra long
    dsimp only [nameSize] at long
    have cut : (sender.bytes ++ colon :: suffix).take (nameSize - 1) = sender.bytes := by
      apply List.take_left'
      dsimp only [nameSize]
      omega
    rw [cut] at same
    have nonempty : extractUsername (sender.bytes ++ more) nameSize ≠ [] := by
      rw [same]
      intro nothing
      rw [nothing, List.length_nil] at long
      omega
    obtain ⟨rest, line⟩ := exists_of_extractUsername nonempty
    rw [same] at line
    rw [List.append_cancel_left line] at separated
    exact separated rfl
  · rintro ⟨short, plain⟩
    obtain ⟨rest, room⟩ : ∃ rest, nameSize - 1 - sender.bytes.length = rest + 1 := by
      refine ⟨nameSize - 2 - sender.bytes.length, ?_⟩
      dsimp only [nameSize] at short ⊢
      omega
    have whole : sender.bytes.take (nameSize - 1) = sender.bytes :=
      List.take_of_length_le (by dsimp only [nameSize] at short ⊢; omega)
    rw [List.take_append, whole, room, List.take_succ_cons, List.append_assoc, List.cons_append,
      extractUsername_colon plain, if_pos sender.fits]

/-! ## The muted names -/

/-- A `mute$` or `unmute$` of the user: the request that reaches the server, and what is
around the server's answer when the client handles it. -/
structure MuteCommand where
  muting : Bool
  request : Request
  leftover : List UInt8
  stack : CommandMemory

namespace MuteCommand

variable (command : MuteCommand)

/-- The name that is muted or unmuted. -/
def name : Name := command.request.command.args 0

/-- The server's answer as it reaches the client. -/
def delivery : Delivery :=
  relayed
    (answer command.request (if command.muting then ascii "mute$ " else ascii "unmute$ ")).response
    command.leftover command.stack

/-- The effect on a set of names. -/
def change (muted : Set (List UInt8)) : Set (List UInt8) :=
  if command.muting then insert command.name.bytes muted else muted \ {command.name.bytes}

/-- The effect on the table. -/
def changeTable (table : MuteTable) : MuteTable :=
  if command.muting then table.insert command.name.bytes
  else table.removeKey command.name.bytes

end MuteCommand

/-- The names muted by some commands and not unmuted again. -/
def mutedNames (commands : List MuteCommand) : Set (List UInt8) :=
  commands.foldl (fun muted command => command.change muted) ∅

/-- The table stands for a set of names. -/
def MuteTable.Represents (table : MuteTable) (muted : Set (List UInt8)) : Prop :=
  ∀ key, table.contains key = true ↔ key ∈ muted

theorem MuteTable.Represents.change {table : MuteTable} {muted : Set (List UInt8)}
    (represents : table.Represents muted) (command : MuteCommand) :
    (command.changeTable table).Represents (command.change muted) := by
  intro key
  unfold MuteCommand.changeTable MuteCommand.change
  by_cases muting : command.muting = true
  · rw [if_pos muting, if_pos muting, Set.mem_insert_iff, ← represents key]
    exact ChainedSet.contains_insert
  · rw [if_neg muting, if_neg muting, Set.mem_sdiff, Set.mem_singleton_iff, ← represents key,
      and_comm]
    exact ChainedSet.contains_erase

/-- The words of an answer: its keyword and the name. -/
theorem messageWords_answer {keyword : List UInt8} (nonempty : keyword ≠ [])
    (plain : blank ∉ keyword) (noDollar : dollar ∉ keyword) {name : List UInt8}
    (noBlank : blank ∉ name) :
    messageWords (keyword ++ [dollar, blank] ++ name) =
      keyword :: if name = [] then [] else [name] := by
  have erased : (keyword ++ [dollar, blank] ++ name).erase dollar = keyword ++ blank :: name := by
    rw [List.append_assoc, List.erase_append_right _ noDollar]
    rfl
  rw [messageWords, erased, List.words_cons nonempty plain, List.words_plain noBlank]
  split <;> rfl

/-- An answer of the server arrives as a command of its keyword, with the name. -/
theorem answer_arrives (keyword : List UInt8) (nonempty : keyword ≠ []) (plain : blank ∉ keyword)
    (noDollar : dollar ∉ keyword) (noNul : 0 ∉ keyword) (short : keyword.length < 20)
    {request : Request} (parsed : request.command.Parsed) (leftover : List UInt8)
    (stack : CommandMemory) :
    let delivery :=
      relayed (answer request (keyword ++ [dollar, blank])).response leftover stack
    delivery.kind = some (.ofKeyword keyword) ∧
      delivery.command.arg 0 = (request.command.args 0).bytes := by
  intro delivery
  have noBlank : blank ∉ (request.command.args 0).bytes :=
    Name.Parsed.noBlank ⟨request.command, parsed, rfl⟩
  have fits : (request.command.args 0).bytes.length < 20 := (request.command.args 0).fits
  have response : (answer request (keyword ++ [dollar, blank])).response =
      keyword ++ [dollar, blank] ++ (request.command.args 0).bytes := by
    apply List.take_of_length_le
    simp only [List.length_append, List.length_cons, List.length_nil, maxMessage]
    omega
  have words : delivery.words =
      keyword :: if (request.command.args 0).bytes = [] then []
        else [(request.command.args 0).bytes] := by
    have plainResponse : 0 ∉ keyword ++ [dollar, blank] ++ (request.command.args 0).bytes := by
      have separators : 0 ∉ [dollar, blank] := by decide
      simp only [List.mem_append, not_or]
      exact ⟨⟨noNul, separators⟩, (request.command.args 0).noNul⟩
    rw [← messageWords_answer nonempty plain noDollar noBlank, ← response]
    rw [← response] at plainResponse
    refine relayed_words plainResponse ?_ leftover stack
    rw [response]
    simp only [List.length_append, List.length_cons, List.length_nil, queueMsgSize]
    omega
  refine ⟨by rw [Delivery.kind, words], ?_⟩
  rw [delivery.command_eq, words, CommandMemory.arg_commandHandler, CommandMemory.expected]
  by_cases unnamed : (request.command.args 0).bytes = []
  · rw [if_pos unnamed, unnamed]
    rfl
  · rw [if_neg unnamed]
    exact bytes_ofBytes (request.command.args 0).noNul (request.command.args 0).fits

/-- Handling the answer changes the table, and nothing else. -/
theorem handle_muteCommand (client : ClientState) (command : MuteCommand)
    (parsed : command.request.command.Parsed) :
    handleCliSideCmd client command.delivery =
      .ok { client with muteTable := command.changeTable client.muteTable } := by
  obtain ⟨muting, request, leftover, stack⟩ := command
  cases muting with
  | true =>
      have arrives : (MuteCommand.mk true request leftover stack).delivery =
          relayed (answer request (ascii "mute" ++ [dollar, blank])).response leftover stack := rfl
      obtain ⟨kind, named⟩ := answer_arrives (ascii "mute") (by decide) (by decide)
        (by decide) (by decide) (by decide) parsed leftover stack
      rw [← arrives] at kind named
      rw [handleCliSideCmd, executeServerCommand, Delivery.ofCode_kind, kind,
        MuteCommand.changeTable, if_pos rfl, MuteCommand.name, ← named]
      rfl
  | false =>
      have arrives : (MuteCommand.mk false request leftover stack).delivery =
          relayed (answer request (ascii "unmute" ++ [dollar, blank])).response leftover stack :=
        rfl
      obtain ⟨kind, named⟩ := answer_arrives (ascii "unmute") (by decide) (by decide)
        (by decide) (by decide) (by decide) parsed leftover stack
      rw [← arrives] at kind named
      rw [handleCliSideCmd, executeServerCommand, Delivery.ofCode_kind, kind,
        MuteCommand.changeTable, if_neg Bool.false_ne_true, MuteCommand.name, ← named]
      rfl

/-- Handling the answers to some commands. -/
theorem handleAll_muteCommands (client : ClientState) (commands : List MuteCommand)
    (parsed : ∀ command ∈ commands, command.request.command.Parsed) :
    handleAll client (commands.map MuteCommand.delivery) =
      .ok { client with
        muteTable := commands.foldl (fun table command => command.changeTable table)
          client.muteTable } := by
  induction commands generalizing client with
  | nil => exact handleAll_nil client
  | cons command commands ih =>
      have first := handle_muteCommand client command (parsed command List.mem_cons_self)
      have rest := ih { client with muteTable := command.changeTable client.muteTable }
        fun later member => parsed later (List.mem_cons_of_mem _ member)
      rw [List.map_cons, handleAll_cons first, rest]
      rfl

theorem represents_foldl (commands : List MuteCommand) {table : MuteTable}
    {muted : Set (List UInt8)} (represents : table.Represents muted) :
    (commands.foldl (fun table command => command.changeTable table) table).Represents
      (commands.foldl (fun muted command => command.change muted) muted) := by
  induction commands generalizing table muted with
  | nil => exact represents
  | cons command commands ih => exact ih (represents.change command)

/-! ## The lines of a sender -/

/-- The lines that a say or a sayto of a sender puts into the logs: the broadcast, the
private message to its receiver, and the sender's own copy of it. -/
inductive SenderLine
  | broadcast
  | received
  | confirmed
  deriving DecidableEq, Repr

/-- The response with the line. -/
def SenderLine.response (sender : Name) (command : Command) : SenderLine → List UInt8
  | .broadcast => sayResponse (fullMessage sender command)
  | .received => saytoReceiverResponse sender command
  | .confirmed => saytoSenderResponse command

/-- Whatever commands a client that starts without muted names has executed before and
after it has logged the response, a redraw skips the line exactly if the sender's name is
muted. -/
def HidesExactly (sender : Name) (response : List UInt8) : Prop :=
  ∀ (client : ClientState) (room : client.messageCount < maxMsgs) (leftover : List UInt8)
      (stack : CommandMemory) (earlier later : List MuteCommand),
    client.muteTable = .empty →
    (∀ command ∈ earlier ++ later, command.request.command.Parsed) →
    ∃ after,
      handleAll client (earlier.map MuteCommand.delivery ++
        relayed response leftover stack :: later.map MuteCommand.delivery) = .ok after ∧
      (after.skips (after.messages ⟨client.messageCount, room⟩) = true ↔
        sender.bytes ∈ mutedNames (earlier ++ later))

theorem represents_empty : MuteTable.Represents .empty ∅ := by
  intro key
  refine iff_of_false ?_ (Set.notMem_empty key)
  rw [MuteTable.contains, ChainedSet.contains_empty]
  exact Bool.false_ne_true

/-- A relayed line among commands that mute is logged, and the table has the muted names. -/
theorem handleAll_relayed {line : List UInt8} (noNul : 0 ∉ line)
    (fits : line.length + 5 < queueMsgSize) (short : (loggedLine line).length < joinSize)
    (client : ClientState) (room : client.messageCount < maxMsgs) (leftover : List UInt8)
    (stack : CommandMemory) (earlier later : List MuteCommand)
    (empty : client.muteTable = .empty)
    (parsed : ∀ command ∈ earlier ++ later, command.request.command.Parsed) :
    ∃ after,
      handleAll client (earlier.map MuteCommand.delivery ++
        relayed (ascii "say$ " ++ line) leftover stack :: later.map MuteCommand.delivery) =
          .ok after ∧
      after.messages ⟨client.messageCount, room⟩ = loggedLine line ∧
      after.muteTable.Represents (mutedNames (earlier ++ later)) := by
  have before := handleAll_muteCommands client earlier fun command member =>
    parsed command (List.mem_append_left _ member)
  set muting : ClientState := { client with
    muteTable := earlier.foldl (fun table command => command.changeTable table)
      client.muteTable } with mutingEq
  have rooms : muting.messageCount < maxMsgs := room
  have logs := handle_line noNul fits leftover stack rooms short
  have behind := handleAll_muteCommands (muting.log rooms (loggedLine line)) later
    fun command member => parsed command (List.mem_append_right _ member)
  have whole := (handleAll_append before _).trans ((handleAll_cons logs _).trans behind)
  refine ⟨_, whole, ?_, ?_⟩
  · exact Function.update_self ..
  · rw [mutedNames, List.foldl_append]
    have start : client.muteTable.Represents ∅ := empty ▸ represents_empty
    exact represents_foldl later (represents_foldl earlier start)

/-- A line is hidden exactly if the name read off it is the sender's. -/
theorem hidesExactly_iff_extractUsername {sender : Name} (named : sender.Parsed)
    {line : List UInt8} (noNul : 0 ∉ line) (fits : line.length + 5 < queueMsgSize)
    (short : (loggedLine line).length < joinSize) :
    HidesExactly sender (ascii "say$ " ++ line) ↔
      extractUsername (loggedLine line) nameSize = sender.bytes := by
  constructor
  · intro hides
    obtain ⟨command, parsed, own⟩ := named
    let muteSender : MuteCommand := ⟨true, ⟨command, ⟨0, 0, 0, 0⟩⟩, [], ⟨0, .strncpy _ []⟩⟩
    have only : ∀ other ∈ [] ++ [muteSender], other.request.command.Parsed := by
      intro other member
      rw [List.mem_singleton.mp member]
      exact parsed
    obtain ⟨after, handled, exactly⟩ := hides .fresh (by decide) [] ⟨0, .strncpy _ []⟩ []
      [muteSender] rfl only
    obtain ⟨after', handled', logged, represents⟩ := handleAll_relayed noNul fits short
      .fresh (by decide) [] ⟨0, .strncpy _ []⟩ [] [muteSender] rfl only
    obtain rfl := Except.ok.inj (handled.symm.trans handled')
    have muted : mutedNames ([] ++ [muteSender]) = {sender.bytes} := by
      rw [own]
      exact insert_empty_eq ..
    rw [muted] at exactly represents
    have skipped := exactly.mpr rfl
    rw [ClientState.skips, logged] at skipped
    exact (represents _).mp skipped
  · intro same client room leftover stack earlier later empty parsed
    obtain ⟨after, handled, logged, represents⟩ :=
      handleAll_relayed noNul fits short client room leftover stack earlier later empty parsed
    refine ⟨after, handled, ?_⟩
    rw [ClientState.skips, logged, same]
    exact represents _

/-- The words that stand before the text of a line. -/
def SenderLine.front (sender : Name) (command : Command) : SenderLine → List (List UInt8)
  | .broadcast => [sender.bytes ++ colon :: []]
  | .received => [sender.bytes ++ colon :: ascii "(private", ascii "message)"]
  | .confirmed =>
    [ascii "you", ascii "to", (command.args 0).bytes ++ colon :: ascii "(private", ascii "message)"]

/-- Where the text starts among the arguments. -/
def SenderLine.startIndex : SenderLine → ℕ
  | .broadcast => 0
  | .received | .confirmed => 1

/-- The line behind the `say$`. -/
def SenderLine.line (kind : SenderLine) (sender : Name) (command : Command) : List UInt8 :=
  [blank].intercalate (kind.front sender command) ++ [blank] ++
    joinArgs command.args kind.startIndex maxMessage

/-- The name read off a line is the sender's: of a broadcast or a received message, if
the name has no colon and leaves room for one; of a sender's own copy, if the sender has
the empty name and the recipient's hides every colon. -/
def SenderLine.Attributable (sender : Name) (command : Command) : SenderLine → Prop
  | .broadcast | .received => sender.bytes.length ≤ nameSize - 2 ∧ colon ∉ sender.bytes
  | .confirmed =>
    sender.bytes = [] ∧ 13 ≤ (command.args 0).bytes.length ∧
      colon ∉ (command.args 0).bytes.take 13

namespace SenderLine

variable {sender : Name} {command : Command} (kind : SenderLine)

/-- No response is cut. -/
theorem response_eq :
    kind.response sender command = ascii "say$ " ++ kind.line sender command := by
  have text : (joinArgs command.args 1 maxMessage).length < 256 :=
    length_joinArgs_lt command.args 1 (by decide)
  -- both lines of a private message open with a keyword and a name
  have uncut : ∀ (opening : List UInt8) (name : Name), opening.length ≤ 12 →
      snprintf responseBufferSize (opening ++ name.bytes ++ ascii ":(private message) " ++
        joinArgs command.args 1 maxMessage) =
      opening ++ name.bytes ++ ascii ":(private message) " ++
        joinArgs command.args 1 maxMessage := by
    intro opening name keyword
    have fits : name.bytes.length < 20 := name.fits
    have note : (ascii ":(private message) ").length = 19 := rfl
    apply List.take_of_length_le
    simp only [List.length_append, note]
    dsimp only [responseBufferSize, maxMessage] at text ⊢
    omega
  have regrouped : ascii ":(private message) " =
      colon :: ascii "(private" ++ [blank] ++ ascii "message)" ++ [blank] := rfl
  cases kind with
  | broadcast =>
      have separator : ascii ": " = [colon] ++ [blank] := rfl
      rw [response, sayResponse_eq (fullMessage_length_lt ..), fullMessage_eq sender command, line,
        front, separator]
      simp [startIndex]
  | received =>
      have whole := uncut (ascii "say$ ") sender (by decide)
      rw [response, saytoReceiverResponse, whole, line, front, regrouped]
      simp [startIndex]
  | confirmed =>
      have whole := uncut (ascii "say$ you to ") (command.args 0) (by decide)
      have prefixed : ascii "say$ you to " =
          ascii "say$ " ++ ascii "you" ++ [blank] ++ ascii "to" ++ [blank] := rfl
      rw [response, saytoSenderResponse, whole, line, front, regrouped, prefixed]
      simp [startIndex]

/-- A word without blanks and NULs. -/
def PlainWord (word : List UInt8) : Prop := word ≠ [] ∧ blank ∉ word ∧ 0 ∉ word

theorem plainWord_headed {name suffix : List UInt8} (noBlank : blank ∉ name) (noNul : 0 ∉ name)
    (blankSuffix : blank ∉ suffix) (nulSuffix : 0 ∉ suffix) :
    PlainWord (name ++ colon :: suffix) := by
  have colonBlank : blank ≠ colon := by decide
  have colonNul : (0 : UInt8) ≠ colon := by decide
  refine ⟨by simp, ?_, ?_⟩
  · simp only [List.mem_append, List.mem_cons, not_or]
    exact ⟨noBlank, colonBlank, blankSuffix⟩
  · simp only [List.mem_append, List.mem_cons, not_or]
    exact ⟨noNul, colonNul, nulSuffix⟩

/-- The words before the text have no blanks and NULs. -/
theorem plainWord_front (named : sender.Parsed) (parsed : command.Parsed) :
    ∀ word ∈ kind.front sender command, PlainWord word := by
  have own : ∀ suffix, blank ∉ suffix → 0 ∉ suffix →
      PlainWord (sender.bytes ++ colon :: suffix) :=
    fun _ => plainWord_headed named.noBlank sender.noNul
  have addressed : Name.Parsed (command.args 0) := ⟨command, parsed, rfl⟩
  have toWho : ∀ suffix, blank ∉ suffix → 0 ∉ suffix →
      PlainWord ((command.args 0).bytes ++ colon :: suffix) :=
    fun _ => plainWord_headed addressed.noBlank (command.args 0).noNul
  have message : PlainWord (ascii "message)") := by
    unfold PlainWord
    decide
  cases kind with
  | broadcast => simp only [front, List.mem_singleton, forall_eq, own [] (by decide) (by decide)]
  | received =>
      simp only [front, List.forall_mem_cons, List.not_mem_nil, false_imp_iff, implies_true,
        and_true]
      exact ⟨own _ (by decide) (by decide), message⟩
  | confirmed =>
      simp only [front, List.forall_mem_cons, List.not_mem_nil, false_imp_iff, implies_true,
        and_true]
      exact ⟨by unfold PlainWord; decide, by unfold PlainWord; decide,
        toWho _ (by decide) (by decide), message⟩

/-- How long the words before the text are, as they are and in the log. -/
theorem length_front : kind.front sender command ≠ [] ∧ (kind.front sender command).length ≤ 4 ∧
    ((kind.front sender command).map List.length).sum ≤ 41 ∧
    ((kind.front sender command).map fun word => min (nameSize - 1) word.length).sum ≤ 32 := by
  have fits : sender.bytes.length < 20 := sender.fits
  have fitsTo : (command.args 0).bytes.length < 20 := (command.args 0).fits
  have private_ : (ascii "(private").length = 8 := rfl
  have message : (ascii "message)").length = 8 := rfl
  have you : (ascii "you").length = 3 := rfl
  have to_ : (ascii "to").length = 2 := rfl
  cases kind with
  | broadcast | received | confirmed =>
      simp only [front, ne_eq, List.cons_ne_nil, not_false_eq_true, List.length_cons,
        List.length_nil, List.map_cons, List.map_nil, List.sum_cons, List.sum_nil,
        List.length_append, private_, message, you, to_, true_and]
      dsimp only [nameSize]
      omega

/-- What is logged of a line: the words before the text, each cut, and words of the text. -/
theorem loggedLine_line (named : sender.Parsed) (parsed : command.Parsed) :
    0 ∉ kind.line sender command ∧ (kind.line sender command).length + 5 < queueMsgSize ∧
      (loggedLine (kind.line sender command)).length < joinSize ∧
      ∃ rest, loggedLine (kind.line sender command) =
        [blank].intercalate
          ((kind.front sender command).map (List.take (nameSize - 1)) ++ rest) := by
  have plain := kind.plainWord_front named parsed
  obtain ⟨nonempty, few, whole, cut⟩ := @length_front sender command kind
  obtain ⟨kept, extra, properKept, -, joined, short⟩ := parsed.joinArgs_spec kind.startIndex
  obtain ⟨count, line⟩ := intercalate_text nonempty kept extra
  have proper : ∀ word ∈ kind.front sender command ++ kept, word ≠ [] ∧ blank ∉ word := by
    intro word member
    rcases List.mem_append.mp member with before | text
    · exact ⟨(plain word before).1, (plain word before).2.1⟩
    · exact ⟨(properKept word text).nonempty, (properKept word text).noBlank⟩
  have logged : loggedLine (kind.line sender command) = [blank].intercalate
      (((kind.front sender command ++ kept).take (maxCommandLen - 2)).map
        (List.take (nameSize - 1))) := by
    rw [SenderLine.line, joined, line, loggedLine_intercalate proper]
  have keptLength := @List.length_intercalate _ blank kept
  refine ⟨?_, ?_, ?_, ?_⟩
  · have leading : 0 ∉ [blank].intercalate (kind.front sender command) :=
      List.notMem_intercalate (by decide) fun word member => (plain word member).2.2
    exact List.not_mem_append (List.not_mem_append leading (by decide)) (joinArgs_noNul _ _)
  · have frontLength := @List.length_intercalate _ blank (kind.front sender command)
    rw [SenderLine.line, joined]
    simp only [List.length_append, List.length_replicate, List.length_singleton]
    dsimp only [maxMessage, queueMsgSize] at short ⊢
    omega
  · have bound := @List.length_intercalate_cut_le _ blank (kind.front sender command ++ kept)
      (maxCommandLen - 2) (nameSize - 1)
    have shorter : (kept.map fun word => min (nameSize - 1) word.length).sum ≤
        (kept.map List.length).sum := List.sum_le_sum fun word _ => Nat.min_le_right ..
    rw [← logged, List.map_append, List.sum_append, List.length_append] at bound
    dsimp only [maxMessage, joinSize] at short ⊢
    omega
  · have leading : (kind.front sender command).take (maxCommandLen - 2) =
        kind.front sender command :=
      List.take_of_length_le (few.trans (by decide))
    refine ⟨(kept.take (maxCommandLen - 2 - (kind.front sender command).length)).map
      (List.take (nameSize - 1)), ?_⟩
    rw [logged, List.take_append, leading, List.map_append]

/-- Joined words start with the first one, and no colon follows it. -/
theorem intercalate_head (word : List UInt8) (rest : List (List UInt8)) :
    ∃ more, [blank].intercalate (word :: rest) = word ++ more ∧ more.head? ≠ some colon := by
  by_cases last : rest = []
  · subst last
    exact ⟨[], by simp, by simp⟩
  · refine ⟨blank :: [blank].intercalate rest, ?_, fun same => by cases same⟩
    rw [List.intercalate_cons_of_ne_nil last, List.append_assoc]
    rfl

/-- No name is read off a sender's own copy if its first colon comes too late. -/
theorem extractUsername_confirmed_eq_nil (recipient suffix : List UInt8) {more : List UInt8} :
    extractUsername (ascii "you to " ++
        ((recipient ++ colon :: suffix).take (nameSize - 1) ++ more)) nameSize = [] ↔
      13 ≤ recipient.length ∧ colon ∉ recipient.take 13 := by
  set line := ascii "you to " ++ ((recipient ++ colon :: suffix).take (nameSize - 1) ++ more)
    with lineEq
  have starts : line.head? ≠ some colon := fun same => by cases same
  have opening : line.take nameSize = ascii "you to " ++
      ((recipient ++ colon :: suffix).take (nameSize - 1) ++ more).take 13 := rfl
  have plain : colon ∉ ascii "you to " := by decide
  rw [extractUsername_eq_nil_iff starts, opening, List.mem_append, not_or, and_iff_right plain]
  by_cases room : 13 ≤ recipient.length
  · have cut : ((recipient ++ colon :: suffix).take (nameSize - 1) ++ more).take 13 =
        recipient.take 13 := by
      have kept : 13 ≤ ((recipient ++ colon :: suffix).take (nameSize - 1)).length := by
        rw [List.length_take, List.length_append]
        dsimp only [nameSize]
        omega
      have limit : min 13 (nameSize - 1) = 13 := rfl
      rw [List.take_append_of_le_length kept, List.take_take, limit,
        List.take_append_of_le_length room]
    rw [cut, and_iff_right room]
  · refine iff_of_false (fun absent => absent ?_) fun both => room both.1
    obtain ⟨behind, space⟩ : ∃ behind, 13 - recipient.length = behind + 1 :=
      ⟨12 - recipient.length, by omega⟩
    obtain ⟨further, space'⟩ : ∃ further, nameSize - 1 - recipient.length = further + 1 :=
      ⟨18 - recipient.length, by dsimp only [nameSize]; omega⟩
    have whole : recipient.take (nameSize - 1) = recipient :=
      List.take_of_length_le (by dsimp only [nameSize]; omega)
    rw [List.take_append (i := nameSize - 1), whole, space', List.take_succ_cons,
      List.append_assoc,
      List.take_append, space, List.cons_append, List.take_succ_cons]
    simp

/-- The name read off a sender's own copy is the sender's only if it is empty, and the
name that stands before the first colon is too long. -/
theorem extractUsername_confirmed (named : sender.Parsed) (recipient suffix : List UInt8)
    {more : List UInt8} :
    extractUsername (ascii "you to " ++
        ((recipient ++ colon :: suffix).take (nameSize - 1) ++ more)) nameSize = sender.bytes ↔
      sender.bytes = [] ∧ 13 ≤ recipient.length ∧ colon ∉ recipient.take 13 := by
  rw [← @extractUsername_confirmed_eq_nil recipient suffix more]
  set line := ascii "you to " ++ ((recipient ++ colon :: suffix).take (nameSize - 1) ++ more)
    with lineEq
  constructor
  · intro same
    by_cases empty : sender.bytes = []
    · exact ⟨empty, same.trans empty⟩
    · obtain ⟨rest, split⟩ := exists_of_extractUsername (same ▸ empty)
      have plain : colon ∉ sender.bytes := same ▸ colon_notMem_extractUsername _ nameSize
      rw [same] at split
      -- the first blank or colon of the line is the blank behind `you`
      have first : (line.dropWhile fun symbol => symbol ≠ blank ∧ symbol ≠ colon).head? =
          some blank := rfl
      have own : ∀ symbol ∈ sender.bytes, decide (symbol ≠ blank ∧ symbol ≠ colon) = true := by
        intro symbol member
        refine decide_eq_true ⟨?_, ?_⟩
        · rintro rfl
          exact named.noBlank member
        · rintro rfl
          exact plain member
      rw [split, List.dropWhile_append_of_pos own] at first
      cases first
  · rintro ⟨empty, unnamed⟩
    rw [empty]
    exact unnamed

/-- The name read off a line in the log. -/
theorem extractUsername_line (named : sender.Parsed) (parsed : command.Parsed) :
    extractUsername (loggedLine (kind.line sender command)) nameSize = sender.bytes ↔
      kind.Attributable sender command := by
  obtain ⟨-, -, -, rest, logged⟩ := kind.loggedLine_line named parsed
  rw [logged]
  cases kind with
  | broadcast =>
      obtain ⟨more, line, separated⟩ := intercalate_head
        ((sender.bytes ++ colon :: []).take (nameSize - 1)) rest
      rw [front, List.map_cons, List.map_nil, List.singleton_append, line]
      exact extractUsername_eq_iff sender [] separated
  | received =>
      obtain ⟨more, line, separated⟩ := intercalate_head
        ((sender.bytes ++ colon :: ascii "(private").take (nameSize - 1))
        ((ascii "message)").take (nameSize - 1) :: rest)
      rw [front, List.map_cons, List.map_cons, List.map_nil, List.cons_append,
        List.singleton_append, line]
      exact extractUsername_eq_iff sender (ascii "(private") separated
  | confirmed =>
      obtain ⟨more, line, -⟩ := intercalate_head
        (((command.args 0).bytes ++ colon :: ascii "(private").take (nameSize - 1))
        ((ascii "message)").take (nameSize - 1) :: rest)
      have whole : [blank].intercalate
          ((front sender command .confirmed).map (List.take (nameSize - 1)) ++ rest) =
            ascii "you to " ++ (((command.args 0).bytes ++ colon :: ascii "(private").take
              (nameSize - 1) ++ more) := by
        rw [← line]
        rfl
      rw [whole]
      exact extractUsername_confirmed named _ _

/-- A line is hidden exactly if the name read off what is logged of it is the sender's. -/
theorem hides_iff_extractUsername (named : sender.Parsed) (parsed : command.Parsed) :
    HidesExactly sender (kind.response sender command) ↔
      extractUsername (loggedLine (kind.line sender command)) nameSize = sender.bytes := by
  obtain ⟨noNul, fits, short, -⟩ := kind.loggedLine_line named parsed
  rw [kind.response_eq, hidesExactly_iff_extractUsername named noNul fits short]

end SenderLine

/-- **Muting by name.** A redraw hides the lines of a sender exactly if the sender is
muted, as long as the sender's name can be read off the line. -/
theorem hidesExactly_iff {sender : Name} {command : Command} (named : sender.Parsed)
    (parsed : command.Parsed) (kind : SenderLine) :
    HidesExactly sender (kind.response sender command) ↔ kind.Attributable sender command :=
  (kind.hides_iff_extractUsername named parsed).trans (kind.extractUsername_line named parsed)

/-- A broadcast of a client with a short name. -/
theorem hidesExactly_short :
    HidesExactly ((commandOf "conn$ A").args 0)
      (SenderLine.broadcast.response ((commandOf "conn$ A").args 0)
        (commandOf "say$ hello world")) := by
  have named : ((commandOf "conn$ A").args 0).Parsed :=
    ⟨commandOf "conn$ A", ⟨_, _, by decide, rfl⟩, rfl⟩
  have parsed : (commandOf "say$ hello world").Parsed := ⟨_, _, by decide, rfl⟩
  exact (hidesExactly_iff named parsed .broadcast).mpr ⟨by decide, by decide⟩

/-- Lines of a client with a name of `NAME_SIZE - 1` bytes or with a colon in its name are
not hidden, and neither is a client's own copy of a private message. -/
theorem muted_lines_shown :
    (∃ name : Name, name.Parsed ∧ name.bytes = ascii "nineteen_characters" ∧
      ¬ HidesExactly name (SenderLine.broadcast.response name (commandOf "say$ hello"))) ∧
    (∃ name : Name, name.Parsed ∧ name.bytes = ascii "a:b" ∧
      ¬ HidesExactly name (SenderLine.broadcast.response name (commandOf "say$ hello"))) ∧
    ∃ name : Name, name.Parsed ∧ name.bytes = ascii "A" ∧
      ¬ HidesExactly name (SenderLine.confirmed.response name (commandOf "sayto$ B hello")) := by
  have parsed : (commandOf "say$ hello").Parsed := ⟨_, _, by decide, rfl⟩
  have addressed : (commandOf "sayto$ B hello").Parsed := ⟨_, _, by decide, rfl⟩
  have long : ((commandOf "conn$ nineteen_characters").args 0).Parsed :=
    ⟨_, ⟨_, _, by decide, rfl⟩, rfl⟩
  have divided : ((commandOf "conn$ a:b").args 0).Parsed := ⟨_, ⟨_, _, by decide, rfl⟩, rfl⟩
  have short : ((commandOf "conn$ A").args 0).Parsed := ⟨_, ⟨_, _, by decide, rfl⟩, rfl⟩
  refine ⟨⟨_, long, by decide, ?_⟩, ⟨_, divided, by decide, ?_⟩, ⟨_, short, by decide, ?_⟩⟩
  · rw [SenderLine.hides_iff_extractUsername _ long parsed]
    decide
  · rw [SenderLine.hides_iff_extractUsername _ divided parsed]
    decide
  · rw [SenderLine.hides_iff_extractUsername _ short addressed]
    decide

end MultithreadedChat
