import MultithreadedChat.Client.MessageLog
import MultithreadedChat.Server.JoinedText

/-! # Lines on their way to the client's log

A line that the server sends behind `say$` is split into words again, and the client
joins the first of them, each cut to the size of an argument
(`MultithreadedChat.loggedLine`). A broadcast survives this, up to trailing blanks,
exactly if its sender's name and the number of its words leave room for what the
server has added (`MultithreadedChat.relaysFaithfully_iff`).
-/

namespace MultithreadedChat

open CString

/-- What a client logs of a line. -/
def loggedLine (line : List UInt8) : List UInt8 :=
  [blank].intercalate
    (((line.words blank).take (maxCommandLen - 2)).map (List.take (nameSize - 1)))

/-- A response of the server in its buffer, as the client receives it. -/
def relayed (response leftover : List UInt8) (stack : CommandMemory) : Delivery :=
  ⟨response ++ 0 :: leftover, stack⟩

/-- The words of a response are not affected by what follows it in the buffer. -/
theorem relayed_words {response : List UInt8} (noNul : 0 ∉ response)
    (fits : response.length < queueMsgSize) (leftover : List UInt8) (stack : CommandMemory) :
    (relayed response leftover stack).words = messageWords response := by
  rw [Delivery.words, relayed, ofBytes_terminated noNul fits]

/-- The words of a say of the server. -/
theorem messageWords_say (line : List UInt8) :
    messageWords (ascii "say$ " ++ line) =
      ascii "say" :: (line.words blank).take (maxCommandLen - 2) :=
  @messageWords_keyword (ascii "say") (by decide) (by decide) (by decide) line

/-- A line is not lengthened on its way into the log. -/
theorem length_loggedLine_le (line : List UInt8) : (loggedLine line).length ≤ line.length :=
  (List.length_intercalate_cut_le_whole ..).trans (List.length_intercalate_words_le line)

section Said

variable {line : List UInt8} (noNul : 0 ∉ line) (fits : line.length + 5 < queueMsgSize)
  (leftover : List UInt8) (stack : CommandMemory)
include noNul fits

theorem relayed_say_words :
    (relayed (ascii "say$ " ++ line) leftover stack).words =
      ascii "say" :: (line.words blank).take (maxCommandLen - 2) := by
  have plain : 0 ∉ ascii "say$ " ++ line := List.not_mem_append (by decide) noNul
  have inSlot : (ascii "say$ " ++ line).length < queueMsgSize := by
    have keyword : (ascii "say$ ").length = 5 := rfl
    rw [List.length_append, keyword]
    omega
  rw [relayed_words plain inSlot, messageWords_say]

/-- The arguments of a line that the server says. -/
theorem relayed_say_args :
    (relayed (ascii "say$ " ++ line) leftover stack).args =
      ((line.words blank).take (maxCommandLen - 2)).map (List.take (nameSize - 1)) := by
  rw [Delivery.args, relayed_say_words noNul fits]

/-- The client can join them if what it logs is short enough. -/
theorem fitsJoin_relayed_say (short : (loggedLine line).length < joinSize) :
    FitsJoin (relayed (ascii "say$ " ++ line) leftover stack).args := by
  have worded : (relayed (ascii "say$ " ++ line) leftover stack).words ≠ [] := by
    rw [relayed_say_words noNul fits]
    exact List.cons_ne_nil _ _
  rw [Delivery.fitsJoin_args_iff _ worded, relayed_say_args noNul fits]
  exact short

/-- A client logs a line that the server says. -/
theorem handle_line {client : ClientState} (room : client.messageCount < maxMsgs)
    (short : (loggedLine line).length < joinSize) :
    handleCliSideCmd client (relayed (ascii "say$ " ++ line) leftover stack) =
      .ok (client.log room (loggedLine line)) := by
  have said : (relayed (ascii "say$ " ++ line) leftover stack).kind = some .say := by
    rw [Delivery.kind, relayed_say_words noNul fits]
    rfl
  rw [handle_say said (fitsJoin_relayed_say noNul fits leftover stack short) room,
    relayed_say_args noNul fits]
  rfl

end Said

/-! ## Broadcasts -/

/-- The text a line ends with, joined behind the words before it. -/
theorem intercalate_text {front : List (List UInt8)} (nonempty : front ≠ [])
    (kept : List (List UInt8)) (extra : ℕ) :
    ∃ count, [blank].intercalate front ++ [blank] ++
        ([blank].intercalate kept ++ List.replicate extra blank) =
      [blank].intercalate (front ++ kept) ++ List.replicate count blank := by
  by_cases silent : kept = []
  · subst silent
    refine ⟨extra + 1, ?_⟩
    rw [List.append_nil, List.intercalate_nil, List.nil_append, List.replicate_succ,
      List.append_assoc]
    rfl
  · refine ⟨extra, ?_⟩
    rw [List.intercalate_append _ nonempty silent]
    simp only [List.append_assoc]

/-- What is logged of joined words and blanks behind them. -/
theorem loggedLine_intercalate {words : List (List UInt8)}
    (proper : ∀ word ∈ words, word ≠ [] ∧ blank ∉ word) (count : ℕ) :
    loggedLine ([blank].intercalate words ++ List.replicate count blank) =
      [blank].intercalate
        ((words.take (maxCommandLen - 2)).map (List.take (nameSize - 1))) := by
  rw [loggedLine, List.words_append_replicate, List.words_intercalate proper]

/-- Whatever the state of the client and of its stack, the row in which it logs the
broadcast of a say holds the full message, up to trailing blanks. -/
def RelaysFaithfully (sender : Name) (command : Command) : Prop :=
  ∀ (client : ClientState) (room : client.messageCount < maxMsgs) (leftover : List UInt8)
      (stack : CommandMemory), ∃ after,
    handleCliSideCmd client
        (relayed (sayResponse (fullMessage sender command)) leftover stack) = .ok after ∧
    (after.messages ⟨client.messageCount, room⟩).rdropWhile (· = blank) =
      (fullMessage sender command).rdropWhile (· = blank)

/-- A broadcast is relayed faithfully if the line that is logged is the message. -/
theorem relaysFaithfully_iff_loggedLine (sender : Name) (command : Command) :
    RelaysFaithfully sender command ↔
      (loggedLine (fullMessage sender command)).rdropWhile (· = blank) =
        (fullMessage sender command).rdropWhile (· = blank) := by
  have length := fullMessage_length_lt sender command
  have inSlot : (fullMessage sender command).length + 5 < queueMsgSize := by
    dsimp only [maxMessage, maxNameLen, queueMsgSize] at length ⊢
    omega
  have short : (loggedLine (fullMessage sender command)).length < joinSize := by
    have cut := length_loggedLine_le (fullMessage sender command)
    dsimp only [maxMessage, maxNameLen, joinSize] at length ⊢
    omega
  have handled : ∀ (client : ClientState) (room : client.messageCount < maxMsgs) leftover stack,
      handleCliSideCmd client
          (relayed (sayResponse (fullMessage sender command)) leftover stack) =
        .ok (client.log room (loggedLine (fullMessage sender command))) := by
    intro client room leftover stack
    rw [sayResponse_eq length]
    exact handle_line (fullMessage_noNul sender command) inSlot leftover stack room short
  have logged : ∀ (client : ClientState) (room : client.messageCount < maxMsgs) (line : List UInt8),
      (client.log room line).messages ⟨client.messageCount, room⟩ = line :=
    fun client room line => Function.update_self ..
  constructor
  · intro faithful
    obtain ⟨after, done, same⟩ := faithful .fresh (by decide) [] ⟨0, .strncpy _ []⟩
    rw [handled .fresh (by decide)] at done
    rwa [← Except.ok.inj done, logged] at same
  · intro same client room leftover stack
    exact ⟨_, handled client room leftover stack, by rw [logged, same]⟩

/-- The full message is the sender's name with a colon and the words of the text, joined,
with blanks behind them. -/
theorem fullMessage_words {sender : Name} {command : Command} (named : sender.Parsed)
    (parsed : command.Parsed) :
    ∃ kept count, (joinArgs command.args 0 maxMessage).words blank = kept ∧
      (∀ word ∈ kept, word.length < nameSize) ∧
      (∀ word ∈ (sender.bytes ++ [colon]) :: kept, word ≠ [] ∧ blank ∉ word) ∧
      fullMessage sender command =
        [blank].intercalate ((sender.bytes ++ [colon]) :: kept) ++ List.replicate count blank := by
  obtain ⟨kept, extra, properKept, -, joined, -⟩ := parsed.joinArgs_spec 0
  have proper : ∀ word ∈ (sender.bytes ++ [colon]) :: kept, word ≠ [] ∧ blank ∉ word := by
    intro word member
    rcases List.mem_cons.mp member with rfl | text
    · have notColon : blank ∉ [colon] := by decide
      exact ⟨by simp, by simp [named.noBlank, notColon]⟩
    · exact ⟨(properKept word text).nonempty, (properKept word text).noBlank⟩
  have headed : [sender.bytes ++ [colon]] ≠ [] := List.cons_ne_nil _ _
  obtain ⟨count, regrouped⟩ := intercalate_text headed kept extra
  refine ⟨kept, count, ?_, fun word member => (properKept word member).fits, proper, ?_⟩
  · rw [joined, List.words_append_replicate]
    exact List.words_intercalate fun word member => proper word (List.mem_cons_of_mem _ member)
  · have separator : ascii ": " = [colon] ++ [blank] := rfl
    rw [List.intercalate_singleton] at regrouped
    rw [fullMessage_eq sender command, joined, separator, ← List.append_assoc sender.bytes]
    exact regrouped

/-- **Faithful relay.** A broadcast is logged as it was sent, up to trailing blanks,
exactly if the sender's name leaves room for the colon in an argument slot, and the text
has at most `MAX_COMMAND_LEN - 3` words. -/
theorem relaysFaithfully_iff {sender : Name} {command : Command} (named : sender.Parsed)
    (parsed : command.Parsed) :
    RelaysFaithfully sender command ↔
      sender.bytes.length ≤ nameSize - 2 ∧
        ((joinArgs command.args 0 maxMessage).words blank).length ≤ maxCommandLen - 3 := by
  obtain ⟨kept, count, text, short, proper, message⟩ := fullMessage_words named parsed
  set words := (sender.bytes ++ [colon]) :: kept
  have cut : (words.take (maxCommandLen - 2)).map (List.take (nameSize - 1)) =
      (sender.bytes ++ [colon]).take (nameSize - 1) :: kept.take (maxCommandLen - 3) := by
    have whole : (kept.take (maxCommandLen - 3)).map (List.take (nameSize - 1)) =
        kept.take (maxCommandLen - 3) := by
      refine (List.map_congr_left fun word member => ?_).trans (List.map_id _)
      have fits := short word (List.mem_of_mem_take member)
      exact List.take_of_length_le (by omega)
    rw [← whole]
    rfl
  have properCut : ∀ word ∈ (words.take (maxCommandLen - 2)).map (List.take (nameSize - 1)),
      word ≠ [] ∧ blank ∉ word := by
    intro arg member
    obtain ⟨word, among, rfl⟩ := List.mem_map.mp member
    exact List.take_word (proper word (List.mem_of_mem_take among)) (by decide)
  rw [relaysFaithfully_iff_loggedLine sender command, text, message,
    loggedLine_intercalate proper, List.rdropWhile_append_replicate,
    List.rdropWhile_intercalate proper, List.rdropWhile_intercalate properCut]
  constructor
  · intro same
    have alike := congrArg (List.words blank) same
    rw [List.words_intercalate proper, List.words_intercalate properCut, cut] at alike
    obtain ⟨named, kept⟩ := List.cons.inj alike
    refine ⟨?_, kept ▸ List.length_take_le ..⟩
    have fits := List.length_take_le (nameSize - 1) (sender.bytes ++ [colon])
    rw [named, List.length_append, List.length_singleton] at fits
    dsimp only [nameSize] at fits ⊢
    omega
  · rintro ⟨named, kept⟩
    have fits : (sender.bytes ++ [colon]).length ≤ nameSize - 1 := by
      rw [List.length_append, List.length_singleton]
      dsimp only [nameSize] at named ⊢
      omega
    rw [cut, List.take_of_length_le fits, List.take_of_length_le kept]

/-- The command of a message. -/
def commandOf (message : String) : Command :=
  commandHandler ⟨.unknown, fun _ => .empty nameSize⟩
    (messageWords (CString.ofBytes queueMsgSize (ascii message)).bytes)

/-- A short message of a client with a short name. -/
theorem relaysFaithfully_short :
    RelaysFaithfully ((commandOf "conn$ A").args 0) (commandOf "say$ hello world") := by
  have named : ((commandOf "conn$ A").args 0).Parsed :=
    ⟨commandOf "conn$ A", ⟨_, _, by decide, rfl⟩, rfl⟩
  have parsed : (commandOf "say$ hello world").Parsed := ⟨_, _, by decide, rfl⟩
  exact (relaysFaithfully_iff named parsed).mpr (by decide)

set_option maxRecDepth 2000 in
/-- A name of `NAME_SIZE - 1` bytes loses its colon, and a text of 48 words its last word. -/
theorem relay_unfaithful :
    (∃ name : Name, name.Parsed ∧ ¬ RelaysFaithfully name (commandOf "say$ hello")) ∧
    ∃ command : Command, command.Parsed ∧
      ¬ RelaysFaithfully ((commandOf "conn$ A").args 0) command := by
  have parsed : (commandOf "say$ hello").Parsed := ⟨_, _, by decide, rfl⟩
  have long : ((commandOf "conn$ nineteen_characters").args 0).Parsed :=
    ⟨_, ⟨_, _, by decide, rfl⟩, rfl⟩
  have short : ((commandOf "conn$ A").args 0).Parsed := ⟨_, ⟨_, _, by decide, rfl⟩, rfl⟩
  have many : (commandOf ("say$ a b c d e f g h i j k l m n o p q r s t u v w x " ++
      "a b c d e f g h i j k l m n o p q r s t u v w x")).Parsed :=
    ⟨_, _, by decide, rfl⟩
  refine ⟨⟨_, long, ?_⟩, _, many, ?_⟩
  · rw [relaysFaithfully_iff_loggedLine]
    decide
  · rw [relaysFaithfully_iff_loggedLine]
    decide

end MultithreadedChat
