import MultithreadedChat.Client.MessageLog
import MultithreadedChat.Server.WholeWords

/-! # The two joiners

`join_args` of the server puts the blank before a word and stops at a limit; `join` of the
client puts it behind a word, after a look at the next slot, and never stops for length.
On the arguments of a message the one gives a start of what the other would give in a
buffer without end, and all of it if there is room (`MultithreadedChat.joiners_agree`).
-/

namespace MultithreadedChat

open CString

/-- The loop of `join` over the remaining arguments, in a buffer without end. -/
def joinTextLoop : List (List UInt8) → List UInt8 → Except ClientFault (List UInt8)
  | [], _ => .error .argsOverrun
  | arg :: rest, result =>
    if arg = [] then .ok result
    else
      let result := result ++ arg
      match rest with
      | [] => .error .argsOverrun
      | next :: _ =>
        let result := if next ≠ [] then result ++ ascii " " else result
        joinTextLoop rest result

/-- `join` in a buffer without end. -/
def joinText (command : CommandMemory) : Except ClientFault (List UInt8) :=
  joinTextLoop (List.ofFn command.arg) []

/-- What the loop makes of the remaining arguments: they are joined, if an empty one stops it. -/
theorem joinTextLoop_eq_ok_iff {args : List (List UInt8)} {result whole : List UInt8} :
    joinTextLoop args result = .ok whole ↔ [] ∈ args ∧ whole = result ++ joined args := by
  induction args generalizing result with
  | nil => simp [joinTextLoop]
  | cons arg rest ih =>
      by_cases ended : arg = []
      · subst ended
        rw [joinTextLoop, if_pos rfl, joined_nil, List.append_nil]
        simp [eq_comm]
      · rw [joinTextLoop, if_neg ended]
        cases rest with
        | nil => simp [Ne.symm ended]
        | cons next rest =>
            dsimp only
            rw [ih, nil_mem_cons_iff ended]
            by_cases last : next = []
            · subst last
              rw [if_neg (fun going => going rfl), joined_last ended, joined_nil, List.append_nil]
            · rw [if_pos last, joined_cons ended last]
              simp [show ascii " " = [blank] from rfl]

/-- The words that both find in a command. -/
theorem CommandMemory.Holds.leading_eq {memory : CommandMemory} {command : Command}
    (holds : memory.Holds command) : memory.leading = argumentWords command.args 0 := by
  have slots : memory.arg = fun slot => (command.args slot).bytes := funext holds.args
  rw [CommandMemory.leading, argumentWords, List.drop_zero, List.map_ofFn, slots]
  rfl

/-- A message with a word leaves an empty slot. -/
theorem nil_mem_args_parseSlot {msg : List UInt8}
    (worded : messageWords (CString.ofBytes queueMsgSize msg).bytes ≠ [])
    (memory : CommandMemory) : [] ∈ List.ofFn (parseSlot memory (storedMsg msg)).arg := by
  obtain ⟨keyword, words, found⟩ := List.exists_cons_of_ne_nil worded
  have few : words.length ≤ maxCommandLen - 2 := length_arguments_le found
  refine List.mem_ofFn.mpr ⟨⟨maxCommandLen - 2, by decide⟩, ?_⟩
  rw [parseSlot_eq, storedMsg_string, found, CommandMemory.arg_commandHandler,
    CommandMemory.expected, List.getElem?_eq_none few]

/-- On the arguments of a message with a word, `join` finds its end. -/
theorem joinText_parseSlot {msg : List UInt8}
    (worded : messageWords (CString.ofBytes queueMsgSize msg).bytes ≠ [])
    (memory : CommandMemory) :
    joinText (parseSlot memory (storedMsg msg)) =
      .ok ([blank].intercalate (parseSlot memory (storedMsg msg)).leading) := by
  rw [CommandMemory.leading, joinText, joinTextLoop_eq_ok_iff, List.nil_append, joined]
  exact ⟨nil_mem_args_parseSlot worded memory, rfl⟩

/-- **The joiners agree.** On the arguments of a message with a word, `join_args` gives a start
of what `join` gives in a buffer without end, and all of it if that has at most `max_len - 2`
characters. -/
theorem joiners_agree {msg : List UInt8}
    (worded : messageWords (CString.ofBytes queueMsgSize msg).bytes ≠ [])
    (memory : CommandMemory) {command : Command}
    (holds : (parseSlot memory (storedMsg msg)).Holds command) :
    ∃ whole, joinText (parseSlot memory (storedMsg msg)) = .ok whole ∧
      ∀ maxLen, 1 ≤ maxLen →
        joinArgs command.args 0 maxLen <+: whole ∧
          (whole.length + 2 ≤ maxLen → joinArgs command.args 0 maxLen = whole) := by
  refine ⟨_, joinText_parseSlot worded memory, ?_⟩
  rw [holds.leading_eq]
  intro maxLen _
  constructor
  · exact joinArgs_prefix ..
  · exact joinArgs_eq_of_fits

/-- The second word does not fit a buffer of 8 bytes. -/
theorem joiners_agree_cut :
    ∃ whole,
      joinText (parseSlot ⟨0, .strncpy _ []⟩ (storedMsg (ascii "say$ hello world"))) = .ok whole ∧
        joinArgs (saidArgs [ascii "hello", ascii "world"]) 0 8 <+: whole := by
  have worded : messageWords (CString.ofBytes queueMsgSize (ascii "say$ hello world")).bytes =
      [ascii "say", ascii "hello", ascii "world"] := by decide
  have holds : (parseSlot ⟨0, .strncpy _ []⟩ (storedMsg (ascii "say$ hello world"))).Holds
      (commandHandler ⟨.unknown, fun _ => .empty nameSize⟩
        [ascii "say", ascii "hello", ascii "world"]) := by
    rw [parseSlot_eq, storedMsg_string, worded]
    exact CommandMemory.commandHandler_holds (List.cons_ne_nil _ _) _ _
  obtain ⟨whole, joins, agree⟩ := joiners_agree (worded ▸ List.cons_ne_nil _ _) _ holds
  exact ⟨whole, joins, (agree 8 (by decide)).1⟩

end MultithreadedChat
