import MultithreadedChat.MessageWords

/-! # Commands as memory

`command_handler` fills a `command_t` that the caller has allocated: on the heap for
the server, on the stack for the client. Here the command is the bits of that memory
(`MultithreadedChat.CommandMemory`), so that what the handler leaves unwritten can be
seen. Given a word it leaves the command of `MultithreadedChat.commandHandler`
(`MultithreadedChat.CommandMemory.commandHandler_holds`); without a word it
returns early and leaves everything as it was.
-/

namespace MultithreadedChat

open ByteBuffer

/-- The number of a kind in the enumeration. -/
def CommandKind.code : CommandKind → UInt32
  | .conn => 0
  | .connSuccess => 1
  | .connFailed => 2
  | .say => 3
  | .sayto => 4
  | .mute => 5
  | .unmute => 6
  | .rename => 7
  | .disconn => 8
  | .disconnResponse => 9
  | .kick => 10
  | .ping => 11
  | .retping => 12
  | .error => 13
  | .unknown => 14

/-- The memory of a `command_t`. -/
structure CommandMemory where
  kind : UInt32
  args : ByteBuffer (maxCmdSize * nameSize)

namespace CommandMemory

/-- The string in an argument slot; without a terminator it runs on into the next slot. -/
def arg (command : CommandMemory) (slot : Fin maxCmdSize) : List UInt8 :=
  command.args.string (nameSize * slot)

/-- One step of the copying loop: `strncpy` of `NAME_SIZE - 1` bytes and the terminator. -/
def copyArg (args : ByteBuffer (maxCmdSize * nameSize)) (out : ℕ) (word : List UInt8) :
    ByteBuffer (maxCmdSize * nameSize) :=
  (args.write (nameSize * out) (strncpy (nameSize - 1) word).bytes).set
    (nameSize * out + (nameSize - 1)) 0

/-- The loop that clears the remaining slots, so many of them. -/
def clearArgs : ℕ → ℕ → ByteBuffer (maxCmdSize * nameSize) → ByteBuffer (maxCmdSize * nameSize)
  | 0, _, args => args
  | count + 1, out, args => clearArgs count (out + 1) (args.set (nameSize * out) 0)

/-- The two loops of `command_handler` over the words behind the keyword. -/
def fillArgs : List (List UInt8) → ℕ → ByteBuffer (maxCmdSize * nameSize) →
    ByteBuffer (maxCmdSize * nameSize)
  | [], out, args => clearArgs (maxCmdSize - out) out args
  | word :: words, out, args =>
    if out < maxCmdSize then fillArgs words (out + 1) (copyArg args out word) else args

/-- `command_handler` on the memory of a command. -/
def commandHandler (command : CommandMemory) : List (List UInt8) → CommandMemory
  | [] => command
  | keyword :: words =>
    { kind := (CommandKind.ofKeyword keyword).code
      args := fillArgs words 0 command.args }

/-- The memory holds a command. -/
structure Holds (memory : CommandMemory) (command : Command) : Prop where
  kind : memory.kind = command.kind.code
  args : ∀ slot, memory.arg slot = (command.args slot).bytes

/-! ## What the loops leave in the slots -/

section Loops

variable {args : ByteBuffer (maxCmdSize * nameSize)}

/-- The words of a message in the slots from `out` on. -/
def expected (words : List (List UInt8)) (slot : ℕ) : List UInt8 :=
  match words[slot]? with
  | some word => (CString.ofBytes nameSize word).bytes
  | none => []

/-- A slot ends where the next one starts. -/
theorem slot_succ (slot : ℕ) : nameSize * (slot + 1) = nameSize * slot + 20 := Nat.mul_succ ..

theorem strncpy_bytes_getD (word : List UInt8) (i : ℕ) :
    (strncpy (nameSize - 1) word).bytes.getD i 0 =
      (CString.ofBytes nameSize word).bytes.getD i 0 :=
  byte_strncpy word i

theorem byte_copyArg {out : ℕ} (inside : out < maxCmdSize) (word : List UInt8) (i : ℕ) :
    (copyArg args out word).byte i =
      if nameSize * out ≤ i ∧ i < nameSize * (out + 1) then
        (CString.ofBytes nameSize word).bytes.getD (i - nameSize * out) 0
      else args.byte i := by
  have fits := (CString.ofBytes nameSize word).fits
  have length := (strncpy (nameSize - 1) word).length_eq
  dsimp only [nameSize, maxCmdSize] at inside fits length ⊢
  rw [copyArg, byte_set, byte_write _ _ _ (by rw [length]; dsimp only [nameSize]; omega), length,
    strncpy_bytes_getD]
  dsimp only [nameSize]
  by_cases last : i = 20 * out + 19
  · subst last
    rw [if_pos (by omega), if_pos (by omega), List.getD_eq_default _ _ (by omega)]
  · rw [if_neg (by omega)]
    by_cases within : 20 * out ≤ i ∧ i < 20 * (out + 1)
    · rw [if_pos (by omega), if_pos within]
    · rw [if_neg (by omega), if_neg within]

/-- The argument a copy writes. -/
theorem string_copyArg {out : ℕ} (inside : out < maxCmdSize) (word : List UInt8) :
    (copyArg args out word).string (nameSize * out) = (CString.ofBytes nameSize word).bytes := by
  have fits : (CString.ofBytes nameSize word).bytes.length < 20 :=
    (CString.ofBytes nameSize word).fits
  have ends := slot_succ out
  refine string_eq (CString.ofBytes nameSize word).noNul (fun i within => ?_) ?_
  · rw [byte_copyArg inside, if_pos (by omega), Nat.add_sub_cancel_left,
      List.getD_eq_getElem _ _ within]
  · rw [byte_copyArg inside, if_pos (by omega), Nat.add_sub_cancel_left,
      List.getD_eq_default _ _ le_rfl]

/-- Clearing slots empties their strings and leaves what is before them. -/
theorem clearArgs_spec (count out : ℕ) (args : ByteBuffer (maxCmdSize * nameSize))
    (fits : out + count ≤ maxCmdSize) :
    (∀ i < nameSize * out, (clearArgs count out args).byte i = args.byte i) ∧
      ∀ slot, out ≤ slot → slot < out + count →
        (clearArgs count out args).string (nameSize * slot) = [] := by
  induction count generalizing out args with
  | zero => exact ⟨fun _ _ => rfl, fun slot behind before => by omega⟩
  | succ count ih =>
      obtain ⟨before, cleared⟩ := ih (out + 1) (args.set (nameSize * out) 0) (by omega)
      have ends := slot_succ out
      constructor
      · intro i earlier
        rw [clearArgs, before i (by omega), byte_set, if_neg (by omega)]
      · intro slot behind within
        rw [clearArgs]
        by_cases first : slot = out
        · subst first
          rw [string_eq_nil_iff, before _ (by omega), byte_set,
            if_pos ⟨rfl, by dsimp only [nameSize, maxCmdSize] at fits ⊢; omega⟩]
        · exact cleared slot (by omega) (by omega)

/-- The loops fill the slots from `out` on with the words, one a slot, and leave what is
before them. -/
theorem fillArgs_spec (words : List (List UInt8)) (out : ℕ)
    (args : ByteBuffer (maxCmdSize * nameSize)) :
    (∀ i < nameSize * out, (fillArgs words out args).byte i = args.byte i) ∧
      ∀ slot, out ≤ slot → slot < maxCmdSize →
        (fillArgs words out args).string (nameSize * slot) = expected words (slot - out) := by
  induction words generalizing out args with
  | nil =>
      by_cases room : out ≤ maxCmdSize
      · obtain ⟨before, cleared⟩ := clearArgs_spec (maxCmdSize - out) out args (by omega)
        exact ⟨before, fun slot behind inside => cleared slot behind (by omega)⟩
      · have full : maxCmdSize - out = 0 := by omega
        rw [fillArgs, full]
        exact ⟨fun _ _ => rfl, fun slot behind inside => by omega⟩
  | cons word words ih =>
      by_cases room : out < maxCmdSize
      · obtain ⟨before, filled⟩ := ih (out + 1) (copyArg args out word)
        have ends := slot_succ out
        rw [fillArgs, if_pos room]
        constructor
        · intro i earlier
          rw [before i (by omega), byte_copyArg room, if_neg (by omega)]
        · intro slot behind inside
          by_cases first : slot = out
          · subst first
            have written := @string_copyArg args _ room word
            have short : (CString.ofBytes nameSize word).bytes.length < 20 :=
              (CString.ofBytes nameSize word).fits
            rw [string_congr, written, Nat.sub_self]
            · rfl
            · intro i within
              rw [written] at within
              exact before _ (by omega)
          · have next : slot - out = (slot - (out + 1)) + 1 := by omega
            rw [filled slot (by omega) inside, next]
            rfl
      · rw [fillArgs, if_neg room]
        exact ⟨fun _ _ => rfl, fun slot behind inside => by omega⟩

end Loops

/-- The arguments after filling: the words behind the first, one a slot. -/
theorem arg_commandHandler (memory : CommandMemory) (keyword : List UInt8)
    (words : List (List UInt8)) (slot : Fin maxCmdSize) :
    (memory.commandHandler (keyword :: words)).arg slot = expected words slot :=
  (fillArgs_spec words 0 memory.args).2 slot (Nat.zero_le _) slot.isLt

/-- The arguments of a parsed command are the same words. -/
theorem bytes_args_commandHandler (command : Command) (keyword : List UInt8)
    (words : List (List UInt8)) (slot : Fin maxCmdSize) :
    ((MultithreadedChat.commandHandler command (keyword :: words)).args slot).bytes =
      expected words slot := by
  rw [MultithreadedChat.commandHandler, expected]
  dsimp only
  cases words[slot.val]? <;> rfl

/-- All arguments: the words, and empty strings behind them. -/
theorem ofFn_expected {words : List (List UInt8)} (few : words.length ≤ maxCmdSize) :
    List.ofFn (fun slot : Fin maxCmdSize => expected words slot) =
      words.map (fun word => (CString.ofBytes nameSize word).bytes) ++
        List.replicate (maxCmdSize - words.length) [] := by
  refine List.ext_getElem? fun i => ?_
  rw [List.getElem?_ofFn, List.getElem?_append, List.length_map, List.getElem?_map,
    List.getElem?_replicate]
  by_cases inside : i < maxCmdSize
  · rw [dif_pos inside, expected]
    dsimp only
    by_cases given : i < words.length
    · rw [if_pos given, List.getElem?_eq_getElem given]
      rfl
    · rw [if_neg given, List.getElem?_eq_none (Nat.le_of_not_lt given), if_pos (by omega)]
  · rw [dif_neg inside, if_neg (by omega), if_neg (by omega)]

/-- All arguments of a parsed command. -/
theorem map_bytes_args (command : Command) (keyword : List UInt8) {words : List (List UInt8)}
    (few : words.length ≤ maxCmdSize) :
    (List.ofFn (MultithreadedChat.commandHandler command (keyword :: words)).args).map
        CString.bytes =
      words.map (fun word => (CString.ofBytes nameSize word).bytes) ++
        List.replicate (maxCmdSize - words.length) [] := by
  rw [List.map_ofFn, ← ofFn_expected few]
  exact congrArg List.ofFn (funext (bytes_args_commandHandler command keyword words))

/-- Given a word, the memory afterwards holds the command of the message. -/
theorem commandHandler_holds {words : List (List UInt8)} (worded : words ≠ [])
    (memory : CommandMemory) (command : Command) :
    (memory.commandHandler words).Holds (MultithreadedChat.commandHandler command words) := by
  cases words with
  | nil => exact (worded rfl).elim
  | cons keyword rest =>
      refine ⟨rfl, fun slot => ?_⟩
      rw [arg_commandHandler, bytes_args_commandHandler]

end CommandMemory

/-- What the queue manager of either program does with a slot: the words of the message
fill the memory of a command. -/
def parseSlot (memory : CommandMemory) (msg : ByteBuffer queueMsgSize) : CommandMemory :=
  memory.commandHandler ((getAndTokenise msg).2.map (getAndTokenise msg).1.string)

theorem parseSlot_eq (memory : CommandMemory) (msg : ByteBuffer queueMsgSize) :
    parseSlot memory msg = memory.commandHandler (messageWords (msg.string 0)) := by
  rw [parseSlot, getAndTokenise_words]

/-- Whatever was in the memory of the command before, the kind and the arguments after
parsing the message are the same, and a message without a word is unknown. -/
def DependsOnlyOnMessage (msg : List UInt8) : Prop :=
  (∀ memory memory' : CommandMemory,
    (parseSlot memory (storedMsg msg)).kind = (parseSlot memory' (storedMsg msg)).kind ∧
      ∀ slot, (parseSlot memory (storedMsg msg)).arg slot =
        (parseSlot memory' (storedMsg msg)).arg slot) ∧
  (messageWords ((storedMsg msg).string 0) = [] →
    ∀ memory, (parseSlot memory (storedMsg msg)).kind = CommandKind.unknown.code)

/-- Two memories show through where a message has no word. -/
theorem not_dependsOnlyOnMessage {msg : List UInt8}
    (wordless : messageWords ((storedMsg msg).string 0) = []) : ¬ DependsOnlyOnMessage msg := by
  rintro ⟨alike, -⟩
  have kinds := (alike ⟨0, strncpy _ []⟩ ⟨1, strncpy _ []⟩).1
  rw [parseSlot_eq, parseSlot_eq, wordless] at kinds
  cases kinds

/-- **Commands and leftover memory.** The command parsed from a message depends only on
the message exactly if the message, as stored, has a byte that is neither a blank nor
its first dollar sign. -/
theorem dependsOnlyOnMessage_iff (msg : List UInt8) :
    DependsOnlyOnMessage msg ↔
      ∃ byte ∈ (CString.ofBytes queueMsgSize msg).bytes.erase dollar, byte ≠ blank := by
  rw [← messageWords_ne_nil_iff, ← storedMsg_string]
  constructor
  · exact fun depends wordless => not_dependsOnlyOnMessage wordless depends
  · intro worded
    refine ⟨fun memory memory' => ?_, fun wordless => (worded wordless).elim⟩
    have command : Command := ⟨.unknown, fun _ => .empty nameSize⟩
    have holds := CommandMemory.commandHandler_holds worded memory command
    have holds' := CommandMemory.commandHandler_holds worded memory' command
    rw [parseSlot_eq, parseSlot_eq]
    exact ⟨holds.kind.trans holds'.kind.symm,
      fun slot => (holds.args slot).trans (holds'.args slot).symm⟩

/-- After a mute, an empty message is a mute of the same name again. -/
theorem empty_message_repeats_command :
    ¬ DependsOnlyOnMessage [] ∧
      ∀ memory : CommandMemory,
        parseSlot (parseSlot memory (storedMsg (CString.ascii "mute$ bob"))) (storedMsg []) =
          parseSlot memory (storedMsg (CString.ascii "mute$ bob")) := by
  have wordless : messageWords ((storedMsg []).string 0) = [] := by
    rw [storedMsg_string]
    rfl
  refine ⟨not_dependsOnlyOnMessage wordless, fun memory => ?_⟩
  rw [parseSlot_eq _ (storedMsg []), wordless, CommandMemory.commandHandler]

end MultithreadedChat
