import MultithreadedChat.Client.Joiners
import MultithreadedChat.Foundation.CheckedArray

/-! # The bounds of the token and argument arrays

The loops over the tokens of a message and over the arguments of a command, with every index
checked against its array. Only some of them test their index; the others stop at a `NULL` or
at an empty argument, which is always there
(`MultithreadedChat.arrays_in_bounds`).
-/

namespace MultithreadedChat

open CString CheckedArray

/-- `char *args[MAX_COMMAND_LEN]`; a token is its offset in the message. -/
abbrev TokenArray := Fin maxCommandLen → Option ℕ

/-! ## `get_and_tokenise` -/

/-- The loop of `get_and_tokenise`: the message, the array and `argsc` behind it. -/
def storeLoop : ℕ → ByteBuffer queueMsgSize → Option ℕ → ℕ → ℕ → TokenArray →
    Except Fault (ByteBuffer queueMsgSize × TokenArray × ℕ)
  | 0, _, _, _, _, _ => .error .unending
  | rounds + 1, msg, token, start, argsc, args =>
    if token ≠ none ∧ argsc < maxCommandLen - 1 then do
      let args ← writeAt args argsc token
      let (msg, token, start) := msg.strtok blank start
      storeLoop rounds msg token start (argsc + 1) args
    else .ok (msg, args, argsc)

/-- `get_and_tokenise`, which stores its tokens in an array. -/
def storeTokens (msg : ByteBuffer queueMsgSize) (args : TokenArray) :
    Except Fault (ByteBuffer queueMsgSize × TokenArray) := do
  let msg := removeDollarSign msg
  let (msg, token, start) := msg.strtok blank 0
  let (msg, args, argsc) ← storeLoop maxCommandLen msg token start 0 args
  let args ← writeAt args argsc none
  return (msg, args)

theorem length_tokeniseLoop_le (room : ℕ) (msg : ByteBuffer queueMsgSize) (token : Option ℕ)
    (start : ℕ) : (tokeniseLoop room msg token start).2.length ≤ room := by
  induction room generalizing msg token start with
  | zero => exact Nat.le_refl _
  | succ room ih =>
      cases token with
      | none => exact Nat.zero_le _
      | some offset => exact Nat.succ_le_succ (ih ..)

/-- The loop stores the tokens from `argsc` on, and keeps the array. -/
theorem storeLoop_eq {room rounds : ℕ} (enough : room < rounds) (msg : ByteBuffer queueMsgSize)
    (token : Option ℕ) (start : ℕ) {argsc : ℕ} (counted : argsc + room = maxCommandLen - 1)
    (args : TokenArray) :
    storeLoop rounds msg token start argsc args =
      .ok ((tokeniseLoop room msg token start).1,
        overwrite args argsc ((tokeniseLoop room msg token start).2.map some),
        argsc + (tokeniseLoop room msg token start).2.length) := by
  induction room generalizing rounds msg token start argsc args with
  | zero =>
      obtain ⟨rounds, rfl⟩ := Nat.exists_eq_succ_of_ne_zero (Nat.ne_zero_of_lt enough)
      have full : ¬ (token ≠ none ∧ argsc < maxCommandLen - 1) := by omega
      rw [storeLoop, if_neg full, tokeniseLoop, List.map_nil, overwrite_nil]
      rfl
  | succ room ih =>
      obtain ⟨rounds, rfl⟩ := Nat.exists_eq_succ_of_ne_zero (Nat.ne_zero_of_lt enough)
      cases token with
      | none =>
          rw [storeLoop, if_neg (by simp), tokeniseLoop, List.map_nil, overwrite_nil]
          rfl
      | some offset =>
          have more : some offset ≠ none ∧ argsc < maxCommandLen - 1 :=
            ⟨Option.some_ne_none _, by omega⟩
          have inside : argsc < maxCommandLen := by omega
          have next := @ih rounds (by omega) (msg.strtok blank start).1
            (msg.strtok blank start).2.1 (msg.strtok blank start).2.2 (argsc + 1) (by omega)
            (Function.update args ⟨argsc, inside⟩ (some offset))
          have regroup : ∀ count, argsc + (count + 1) = argsc + 1 + count := by omega
          rw [storeLoop, if_pos more, writeAt_eq args inside, ok_bind, tokeniseLoop, List.map_cons,
            overwrite_cons args inside]
          rw [← regroup] at next
          exact next

theorem length_getAndTokenise_le (msg : ByteBuffer queueMsgSize) :
    (getAndTokenise msg).2.length ≤ maxCommandLen - 1 :=
  length_tokeniseLoop_le ..

/-- The tokens are stored from the start of the array, with a `NULL` behind them. -/
theorem storeTokens_spec (msg : ByteBuffer queueMsgSize) (args : TokenArray) :
    ∃ stored : TokenArray, storeTokens msg args = .ok ((getAndTokenise msg).1, stored) ∧
      Terminated stored (getAndTokenise msg).2 := by
  have fits : (getAndTokenise msg).2.length < maxCommandLen :=
    (length_getAndTokenise_le msg).trans_lt (by decide)
  refine ⟨_, ?_, terminated_overwrite args fits⟩
  have loop : storeLoop maxCommandLen ((removeDollarSign msg).strtok blank 0).1
      ((removeDollarSign msg).strtok blank 0).2.1 ((removeDollarSign msg).strtok blank 0).2.2 0
        args =
      .ok ((getAndTokenise msg).1, overwrite args 0 ((getAndTokenise msg).2.map some),
        (getAndTokenise msg).2.length) := by
    have stores := @storeLoop_eq (maxCommandLen - 1) maxCommandLen (by decide)
      ((removeDollarSign msg).strtok blank 0).1 ((removeDollarSign msg).strtok blank 0).2.1
      ((removeDollarSign msg).strtok blank 0).2.2 0 (Nat.zero_add _) args
    rw [Nat.zero_add] at stores
    exact stores
  simp only [storeTokens, loop, ok_bind, writeAt_eq _ fits]
  rfl

/-! ## `command_handler` -/

/-- The copying loop of `command_handler`: `out` and the arguments behind it. -/
def copyLoop : ℕ → (Fin maxCommandLen → Option (List UInt8)) → ℕ → ℕ →
    ByteBuffer (maxCmdSize * nameSize) → Except Fault (ℕ × ByteBuffer (maxCmdSize * nameSize))
  | 0, _, _, _, _ => .error .unending
  | rounds + 1, args, i, out, copied => do
    match ← readAt args i with
    | none => return (out, copied)
    | some word =>
      if out < maxCmdSize then
        copyLoop rounds args (i + 1) (out + 1) (CommandMemory.copyArg copied out word)
      else return (out, copied)

/-- `command_handler` on an array of strings. -/
def handleTokens (command : CommandMemory) (args : Fin maxCommandLen → Option (List UInt8)) :
    Except Fault CommandMemory := do
  match ← readAt args 0 with
  | none => return command
  | some keyword =>
    let (out, copied) ← copyLoop (maxCmdSize + 1) args 1 0 command.args
    return { kind := (CommandKind.ofKeyword keyword).code
             args := CommandMemory.clearArgs (maxCmdSize - out) out copied }

/-- The loops over the strings from one on stay in the array and fill the slots with them. -/
theorem copyLoop_spec {args : Fin maxCommandLen → Option (List UInt8)}
    {front words : List (List UInt8)} (terminated : Terminated args (front ++ words)) {rounds : ℕ}
    (enough : words.length < rounds) (out : ℕ) (copied : ByteBuffer (maxCmdSize * nameSize)) :
    ∃ last copied', copyLoop rounds args front.length out copied = .ok (last, copied') ∧
      CommandMemory.clearArgs (maxCmdSize - last) last copied' =
        CommandMemory.fillArgs words out copied := by
  induction words generalizing front rounds out copied with
  | nil =>
      obtain ⟨rounds, rfl⟩ := Nat.exists_eq_succ_of_ne_zero (Nat.ne_zero_of_lt enough)
      have read := terminated.readAt_eq (Nat.le_of_eq (congrArg List.length front.append_nil.symm))
      refine ⟨out, copied, ?_, rfl⟩
      rw [copyLoop, read]
      simp
  | cons word words ih =>
      obtain ⟨rounds, rfl⟩ := Nat.exists_eq_succ_of_ne_zero (Nat.ne_zero_of_lt enough)
      have within : front.length ≤ (front ++ word :: words).length := by simp
      have read := terminated.readAt_eq within
      rw [List.getElem?_append_right (Nat.le_refl _), Nat.sub_self, List.getElem?_cons_zero] at read
      by_cases room : out < maxCmdSize
      · have onward : front ++ word :: words = (front ++ [word]) ++ words := by simp
        rw [onward] at terminated
        obtain ⟨last, copied', done, filled⟩ := ih terminated
          (Nat.lt_of_succ_lt_succ enough) (out + 1) (CommandMemory.copyArg copied out word)
        refine ⟨last, copied', ?_, ?_⟩
        · rw [copyLoop, read, ok_bind]
          simpa [room] using done
        · rw [filled, CommandMemory.fillArgs, if_pos room]
      · have full : maxCmdSize - out = 0 := by omega
        refine ⟨out, copied, ?_, ?_⟩
        · rw [copyLoop, read, ok_bind]
          simp [room]
        · rw [full, CommandMemory.fillArgs, if_neg room, CommandMemory.clearArgs]

/-- On a terminated array of strings `command_handler` stays in it, and does what it does to
the list of the strings. -/
theorem handleTokens_eq {args : Fin maxCommandLen → Option (List UInt8)}
    {words : List (List UInt8)} (terminated : Terminated args words) (command : CommandMemory) :
    handleTokens command args = .ok (command.commandHandler words) := by
  have read := terminated.readAt_eq (Nat.zero_le _)
  cases words with
  | nil =>
      rw [handleTokens, read]
      rfl
  | cons keyword words =>
      have few : words.length < maxCmdSize + 1 := by
        have fits := terminated.fits
        rw [List.length_cons] at fits
        dsimp only [maxCommandLen, maxCmdSize] at fits ⊢
        omega
      obtain ⟨last, copied, done, filled⟩ :=
        @copyLoop_spec args [keyword] words terminated _ few 0 command.args
      rw [List.length_singleton] at done
      rw [handleTokens, read, CommandMemory.commandHandler, ← filled]
      simp [done]

/-! ## `join` and `join_args` -/

/-- The loop of `join` from a slot on, in a buffer without end. -/
def joinAt (command : CommandMemory) : ℕ → ℕ → List UInt8 → Except Fault (List UInt8)
  | 0, _, _ => .error .unending
  | rounds + 1, i, result => do
    let arg ← readAt command.arg i
    if arg = [] then return result
    else
      let next ← readAt command.arg (i + 1)
      let result := result ++ arg
      joinAt command rounds (i + 1) (if next ≠ [] then result ++ ascii " " else result)

/-- The loop of `join_args` from a slot on. -/
def joinArgsAt (args : Fin maxCmdSize → Name) (maxLen : ℕ) :
    ℕ → ℕ → List UInt8 → ℕ → Bool → Except Fault (List UInt8)
  | 0, _, _, _, _ => .error .unending
  | rounds + 1, i, result, currentLen, first =>
    if i < maxCmdSize then do
      let arg ← readAt args i
      if arg.bytes = [] then return result
      else
        let spaced := !first && currentLen < maxLen - 1
        let result := if spaced then result ++ ascii " " else result
        let currentLen := if spaced then currentLen + 1 else currentLen
        let argLen := arg.bytes.length
        if currentLen + argLen < maxLen - 1 then
          joinArgsAt args maxLen rounds (i + 1) (result ++ arg.bytes) (currentLen + argLen) false
        else return result
    else return result

/-- Where an empty slot ends the joining, `join` has read no slot outside the array. -/
theorem joinAt_eq {command : CommandMemory} {rounds i : ℕ} (enough : maxCmdSize - i < rounds)
    {result whole : List UInt8}
    (joins : joinTextLoop ((List.ofFn command.arg).drop i) result = .ok whole) :
    joinAt command rounds i result = .ok whole := by
  induction rounds generalizing i result with
  | zero => exact absurd enough (Nat.not_lt_zero _)
  | succ rounds ih =>
      by_cases inside : i < maxCmdSize
      · rw [drop_ofFn command.arg inside, joinTextLoop] at joins
        rw [joinAt, readAt_eq command.arg inside, ok_bind]
        by_cases ended : command.arg ⟨i, inside⟩ = []
        · rw [if_pos ended] at joins
          rw [if_pos ended, pure_eq_ok, Except.ok.inj joins]
        · rw [if_neg ended] at joins ⊢
          by_cases ahead : i + 1 < maxCmdSize
          · rw [readAt_eq command.arg ahead, ok_bind]
            refine ih (by omega) ?_
            rw [drop_ofFn command.arg ahead] at joins ⊢
            exact joins
          · rw [List.drop_eq_nil_of_le (by rw [List.length_ofFn]; omega)] at joins
            cases joins
      · rw [List.drop_eq_nil_of_le (by rw [List.length_ofFn]; omega)] at joins
        cases joins

/-- Whatever the arguments, `join_args` reads no slot outside the array. -/
theorem joinArgsAt_eq (args : Fin maxCmdSize → Name) (maxLen : ℕ) {rounds i : ℕ}
    (enough : maxCmdSize - i < rounds) (result : List UInt8) (currentLen : ℕ) (first : Bool) :
    joinArgsAt args maxLen rounds i result currentLen first =
      .ok (joinArgsLoop maxLen ((List.ofFn args).drop i) result currentLen first) := by
  induction rounds generalizing i result currentLen first with
  | zero => exact absurd enough (Nat.not_lt_zero _)
  | succ rounds ih =>
      by_cases inside : i < maxCmdSize
      · rw [joinArgsAt, if_pos inside, readAt_eq args inside, ok_bind, drop_ofFn args inside,
          joinArgsLoop]
        by_cases ended : (args ⟨i, inside⟩).bytes = []
        · rw [if_pos ended, if_pos ended, pure_eq_ok]
        · have remaining : maxCmdSize - (i + 1) < rounds := by omega
          rw [if_neg ended, if_neg ended]
          dsimp only
          rw [ih remaining, pure_eq_ok]
          exact (apply_ite Except.ok ..).symm
      · rw [joinArgsAt, if_neg inside, List.drop_eq_nil_of_le (by rw [List.length_ofFn]; omega),
          joinArgsLoop, pure_eq_ok]

/-! ## From the message to the joined arguments -/

/-- What the arrays hold once a message is tokenised and parsed, and what follows for the
routines that read them. -/
structure ParsedInBounds (text : CString queueMsgSize) (msg : ByteBuffer queueMsgSize)
    (tokens : TokenArray) (command : CommandMemory) : Prop where
  /-- The tokens are the words of the message, up to the limit, and a `NULL`. -/
  tokens : ∃ offsets, Terminated tokens offsets ∧ offsets.map msg.string = messageWords text.bytes
  /-- A slot has the start of the token behind its own index, and is empty if there is none. -/
  args : ∀ slot, command.arg slot =
    ((messageWords text.bytes)[slot.val + 1]?.map (List.take (nameSize - 1))).getD []
  empty : ∃ slot, command.arg slot = []
  join : ∃ whole, joinAt command (maxCmdSize + 1) 0 [] = .ok whole ∧ joinText command = .ok whole
  joinArgs : ∀ parsed : Command, command.Holds parsed → ∀ startIndex maxLen,
    joinArgsAt parsed.args maxLen (maxCmdSize + 1) startIndex [] 0 true =
      .ok (joinArgs parsed.args startIndex maxLen)
  strcpy : ∀ slot, (command.arg slot).length + 1 ≤ nameSize

/-- A slot holds a word of the message, cut to the size of a name. -/
theorem arg_parseSlot {text : CString queueMsgSize} {keyword : List UInt8}
    {words : List (List UInt8)} (found : messageWords text.bytes = keyword :: words)
    (memory : CommandMemory) (slot : Fin maxCmdSize) :
    (memory.commandHandler (messageWords text.bytes)).arg slot =
      (words[slot.val]?.map (List.take (nameSize - 1))).getD [] := by
  rw [found, CommandMemory.arg_commandHandler, CommandMemory.expected]
  cases given : words[slot.val]? with
  | none => rfl
  | some word =>
      have member : word ∈ messageWords text.bytes :=
        found ▸ List.mem_cons_of_mem _ (List.mem_of_getElem? given)
      exact (ofBytes_messageWord member).1

/-- The command of a message with a word. -/
theorem parsedInBounds_commandHandler {text : CString queueMsgSize}
    (worded : messageWords text.bytes ≠ []) (memory : CommandMemory)
    {msg : ByteBuffer queueMsgSize} {tokens : TokenArray} {offsets : List ℕ}
    (terminated : Terminated tokens offsets)
    (strings : offsets.map msg.string = messageWords text.bytes) :
    ParsedInBounds text msg tokens (memory.commandHandler (messageWords text.bytes)) := by
  have parses : parseSlot memory (storedMsg text.bytes) =
      memory.commandHandler (messageWords text.bytes) := by
    rw [parseSlot_eq, storedMsg_string, CString.ofBytes_bytes]
  have wordedThere : messageWords (CString.ofBytes queueMsgSize text.bytes).bytes ≠ [] := by
    rwa [CString.ofBytes_bytes]
  obtain ⟨keyword, words, found⟩ := List.exists_cons_of_ne_nil worded
  rw [← parses]
  constructor
  case tokens => exact ⟨offsets, terminated, strings⟩
  case args =>
    intro slot
    rw [parses, arg_parseSlot found, found, List.getElem?_cons_succ]
  case empty => exact List.mem_ofFn.mp (nil_mem_args_parseSlot wordedThere memory)
  case join =>
    have joins := joinText_parseSlot wordedThere memory
    exact ⟨_, joinAt_eq (by decide) joins, joins⟩
  case joinArgs =>
    intro parsed _ startIndex maxLen
    exact joinArgsAt_eq parsed.args maxLen (Nat.lt_succ_of_le (Nat.sub_le ..)) [] 0 true
  case strcpy =>
    intro slot
    rw [parses, arg_parseSlot found]
    cases words[slot.val]? with
    | none => exact Nat.succ_le_of_lt (by decide)
    | some word => exact Nat.succ_le_of_lt (Nat.lt_succ_of_le (List.length_take_le ..))

/-- **The arrays are kept.** Whatever the message and whatever was in the arrays before, the
tokeniser stays in its array and ends it with `NULL`, the command gets an empty argument behind
the others, and the joiners stop in the array of arguments. -/
theorem arrays_in_bounds (text : CString queueMsgSize) (worded : messageWords text.bytes ≠ [])
    (args : TokenArray) (memory : CommandMemory) :
    ∃ msg tokens command, storeTokens (storedMsg text.bytes) args = .ok (msg, tokens) ∧
      handleTokens memory (fun index => (tokens index).map msg.string) = .ok command ∧
      ParsedInBounds text msg tokens command := by
  obtain ⟨tokens, stores, terminated⟩ := storeTokens_spec (storedMsg text.bytes) args
  have strings := getAndTokenise_words (storedMsg text.bytes)
  rw [storedMsg_string, CString.ofBytes_bytes] at strings
  have handled := handleTokens_eq
    (terminated.map (getAndTokenise (storedMsg text.bytes)).1.string) memory
  rw [strings] at handled
  exact ⟨_, tokens, _, stores, handled,
    parsedInBounds_commandHandler worded memory terminated strings⟩

/-- A message of two words, in arrays that nothing was written to before. -/
theorem arrays_in_bounds_hello :
    ∃ msg tokens command,
      storeTokens (storedMsg (ascii "say$ hello")) (fun _ => none) = .ok (msg, tokens) ∧
        handleTokens ⟨0, .strncpy _ []⟩ (fun index => (tokens index).map msg.string) =
          .ok command ∧
        command.arg 0 = ascii "hello" := by
  obtain ⟨msg, tokens, command, stores, handled, kept⟩ := arrays_in_bounds
    ⟨ascii "say$ hello", by decide, by decide⟩ (by decide) (fun _ => none) ⟨0, .strncpy _ []⟩
  exact ⟨msg, tokens, command, stores, handled, kept.args 0⟩

end MultithreadedChat
