import MultithreadedChat.CommandMemory
import MultithreadedChat.Server.History

/-! # Names and texts that the server takes from commands

The arguments of a command parsed from a message are words
(`MultithreadedChat.Command.Parsed.arguments`). `join_args` joins the first of them
with blanks, and may leave a blank behind the last one
(`MultithreadedChat.Command.Parsed.joinArgs_spec`).
-/

namespace MultithreadedChat

open CString

/-- A command that the server has parsed from a message with a word. -/
def Command.Parsed (command : Command) : Prop :=
  ∃ (prior : Command) (text : CString queueMsgSize), messageWords text.bytes ≠ [] ∧
    command = commandHandler prior (messageWords text.bytes)

/-- A name that the server has taken from a command. -/
def Name.Parsed (name : Name) : Prop := ∃ command : Command, command.Parsed ∧ name = command.args 0

/-- A word in an argument slot. -/
structure ArgumentWord (word : List UInt8) : Prop where
  nonempty : word ≠ []
  noBlank : blank ∉ word
  noNul : 0 ∉ word
  fits : word.length < nameSize

/-- A word of a message, cut to the size of a slot. -/
theorem argumentWord_of_mem {text : CString queueMsgSize} {word : List UInt8}
    (member : word ∈ messageWords text.bytes) :
    ArgumentWord (CString.ofBytes nameSize word).bytes := by
  obtain ⟨cut, nonempty, noBlank⟩ := ofBytes_messageWord member
  constructor
  · rwa [cut]
  · rwa [cut]
  · exact (CString.ofBytes nameSize word).noNul
  · exact (CString.ofBytes nameSize word).fits

namespace Command.Parsed

variable {command : Command} (parsed : command.Parsed)
include parsed

/-- The arguments of a parsed command are words, and empty behind them. -/
theorem arguments :
    ∃ words, (∀ word ∈ words, ArgumentWord word) ∧ words.length ≤ maxCommandLen - 2 ∧
      (List.ofFn command.args).map CString.bytes =
        words ++ List.replicate (maxCmdSize - words.length) [] := by
  obtain ⟨prior, text, worded, rfl⟩ := parsed
  cases found : messageWords text.bytes with
  | nil => exact (worded found).elim
  | cons keyword words =>
      have few := length_arguments_le found
      refine ⟨words.map fun word => (CString.ofBytes nameSize word).bytes, ?_, ?_, ?_⟩
      · intro arg member
        obtain ⟨word, given, rfl⟩ := List.mem_map.mp member
        exact argumentWord_of_mem (found ▸ List.mem_cons_of_mem _ given)
      · rwa [List.length_map]
      · rw [List.length_map]
        exact CommandMemory.map_bytes_args prior keyword (few.trans (by decide))

/-- A name is an argument word or empty. -/
theorem name_spec : (command.args 0).bytes = [] ∨ ArgumentWord (command.args 0).bytes := by
  obtain ⟨words, proper, -, all⟩ := parsed.arguments
  have first : ((List.ofFn command.args).map CString.bytes)[0]? = some (command.args 0).bytes := by
    rw [List.getElem?_map, List.getElem?_ofFn, dif_pos (by decide)]
    rfl
  rw [all] at first
  cases words with
  | nil =>
      rw [List.nil_append, List.getElem?_replicate, if_pos (by decide)] at first
      exact .inl (Option.some.inj first).symm
  | cons word words =>
      rw [List.cons_append, List.getElem?_cons_zero] at first
      exact .inr (Option.some.inj first ▸ proper word List.mem_cons_self)

end Command.Parsed

theorem Name.Parsed.noBlank {name : Name} (parsed : name.Parsed) : blank ∉ name.bytes := by
  obtain ⟨command, fromMessage, rfl⟩ := parsed
  rcases fromMessage.name_spec with empty | word
  · rw [empty]
    exact List.not_mem_nil
  · exact word.noBlank

/-! ## Joining arguments -/

/-- One round of the loop of `join_args`: the next argument is joined if it fits, and
leaves its blank if it does not. -/
theorem joinArgsLoop_cons {maxLen : ℕ} {arg : Name} (nonempty : arg.bytes ≠ [])
    (rest : List Name) {before : List (List UInt8)}
    (room : before ≠ [] → ([blank].intercalate before).length < maxLen - 1) :
    joinArgsLoop maxLen (arg :: rest) ([blank].intercalate before)
        ([blank].intercalate before).length before.isEmpty =
      if ([blank].intercalate (before ++ [arg.bytes])).length < maxLen - 1 then
        joinArgsLoop maxLen rest ([blank].intercalate (before ++ [arg.bytes]))
          ([blank].intercalate (before ++ [arg.bytes])).length (before ++ [arg.bytes]).isEmpty
      else [blank].intercalate before ++ List.replicate (if before = [] then 0 else 1) blank := by
  have started : (before ++ [arg.bytes]).isEmpty = false := by simp
  rw [joinArgsLoop, if_neg nonempty, started]
  by_cases first : before = []
  · subst first
    simp
  · have separated : before.isEmpty = false := by simpa using first
    have longer : [blank].intercalate (before ++ [arg.bytes]) =
        [blank].intercalate before ++ [blank] ++ arg.bytes := by
      rw [List.intercalate_append [blank] first (by simp), List.intercalate_singleton]
    have length : ([blank].intercalate (before ++ [arg.bytes])).length =
        ([blank].intercalate before).length + 1 + arg.bytes.length := by
      rw [longer, List.length_append, List.length_append, List.length_singleton]
    rw [length, longer]
    simp [separated, room first, first, show ascii " " = [blank] from rfl]

/-- The arguments up to the first empty one, from one that is not. -/
theorem takeWhile_map_bytes {arg : Name} (nonempty : arg.bytes ≠ []) (rest : List Name) :
    ((arg :: rest).map CString.bytes).takeWhile (· ≠ []) =
      arg.bytes :: (rest.map CString.bytes).takeWhile (· ≠ []) := by
  rw [List.map_cons, List.takeWhile_cons_of_pos (by simpa using nonempty)]

/-- What the loop of `join_args` does with some words joined so far: the arguments up to one
that does not fit are joined, and such a one leaves its blank. -/
theorem joinArgsLoop_split (maxLen : ℕ) (args : List Name) (before : List (List UInt8))
    (room : before ≠ [] → ([blank].intercalate before).length < maxLen - 1) :
    ∃ kept rest, (args.map CString.bytes).takeWhile (· ≠ []) = kept ++ rest ∧
      joinArgsLoop maxLen args ([blank].intercalate before) ([blank].intercalate before).length
          before.isEmpty =
        [blank].intercalate (before ++ kept) ++
          List.replicate (if before ++ kept = [] ∨ rest = [] then 0 else 1) blank ∧
      (before ++ kept ≠ [] → ([blank].intercalate (before ++ kept)).length < maxLen - 1) ∧
      ∀ next ∈ rest.head?,
        maxLen - 1 ≤ ([blank].intercalate (before ++ kept ++ [next])).length := by
  induction args generalizing before with
  | nil => exact ⟨[], [], rfl, by simp [joinArgsLoop], by simpa using room, by simp⟩
  | cons arg rest ih =>
      by_cases ended : arg.bytes = []
      · refine ⟨[], [], by simp [ended], ?_, by simpa using room, by simp⟩
        rw [joinArgsLoop, if_pos ended]
        simp
      · rw [joinArgsLoop_cons ended rest room, takeWhile_map_bytes ended]
        by_cases space : ([blank].intercalate (before ++ [arg.bytes])).length < maxLen - 1
        · obtain ⟨kept, left, shape, joined, fits, stuck⟩ :=
            ih (before ++ [arg.bytes]) fun _ => space
          rw [List.append_assoc, List.singleton_append] at joined fits stuck
          rw [if_pos space]
          exact ⟨arg.bytes :: kept, left, by rw [shape, List.cons_append], joined, fits, stuck⟩
        · rw [if_neg space]
          refine ⟨[], _, rfl, by simp, by simpa using room, ?_⟩
          simpa using Nat.le_of_not_lt space

/-- What the loop of `join_args` adds to some words joined so far: more of the arguments,
and perhaps a blank for one that did not fit. -/
theorem joinArgsLoop_spec (maxLen : ℕ) (args : List Name) (before : List (List UInt8))
    (room : ([blank].intercalate before).length < maxLen - 1) :
    ∃ kept extra, kept <+: (args.map CString.bytes).takeWhile (· ≠ []) ∧
      joinArgsLoop maxLen args ([blank].intercalate before) ([blank].intercalate before).length
        before.isEmpty = [blank].intercalate (before ++ kept) ++ List.replicate extra blank ∧
      ([blank].intercalate (before ++ kept)).length + extra < maxLen := by
  obtain ⟨kept, rest, shape, joined, fits, -⟩ :=
    joinArgsLoop_split maxLen args before fun _ => room
  refine ⟨kept, _, ⟨rest, shape.symm⟩, joined, ?_⟩
  by_cases nothing : before ++ kept = []
  · rw [if_pos (.inl nothing), nothing, List.intercalate_nil]
    exact Nat.zero_lt_of_lt (room.trans_le (Nat.sub_le ..))
  · have bound := fits nothing
    split <;> omega

/-- Arguments that fit are joined whole. -/
theorem joinArgsLoop_eq (maxLen : ℕ) (args : List Name) (before : List (List UInt8))
    (fits : ([blank].intercalate
      (before ++ (args.map CString.bytes).takeWhile (· ≠ []))).length < maxLen - 1) :
    joinArgsLoop maxLen args ([blank].intercalate before) ([blank].intercalate before).length
        before.isEmpty =
      [blank].intercalate (before ++ (args.map CString.bytes).takeWhile (· ≠ [])) := by
  have room := (@List.length_intercalate_append_le _ blank _ _).trans_lt fits
  obtain ⟨kept, rest, shape, joined, -, stuck⟩ :=
    joinArgsLoop_split maxLen args before fun _ => room
  rw [shape] at fits ⊢
  cases rest with
  | nil => simpa using joined
  | cons next rest =>
      have full := stuck next rfl
      have whole := @List.length_intercalate_append_le _ blank (before ++ kept ++ [next]) rest
      have regroup : before ++ kept ++ [next] ++ rest = before ++ (kept ++ next :: rest) := by simp
      rw [regroup] at whole
      omega

/-- Arguments that fit are joined whole, each cut to the size of its slot. -/
theorem joinArgs_commandHandler {text : CString queueMsgSize} {keyword : List UInt8}
    {words : List (List UInt8)} (found : messageWords text.bytes = keyword :: words)
    (prior : Command) (startIndex : ℕ)
    (fits : ([blank].intercalate
      ((words.drop startIndex).map (List.take (nameSize - 1)))).length < maxMessage - 1) :
    joinArgs (commandHandler prior (messageWords text.bytes)).args startIndex maxMessage =
      [blank].intercalate ((words.drop startIndex).map (List.take (nameSize - 1))) := by
  have room : words.length ≤ maxCmdSize := (length_arguments_le found).trans (by decide)
  have leading : (((List.ofFn (commandHandler prior (keyword :: words)).args).drop
      startIndex).map CString.bytes).takeWhile (· ≠ []) =
        (words.drop startIndex).map (List.take (nameSize - 1)) := by
    rw [List.map_drop, CommandMemory.map_bytes_args prior keyword room,
      map_ofBytes_arguments found, List.drop_append, List.drop_replicate, List.map_drop]
    exact List.takeWhile_ne_append_replicate
      (fun arg member => argument_ne_nil found arg (List.mem_of_mem_drop member)) _
  have whole := joinArgsLoop_eq maxMessage
    ((List.ofFn (commandHandler prior (keyword :: words)).args).drop startIndex) []
  rw [List.nil_append, leading] at whole
  rw [found]
  exact whole fits

/-- What `join_args` makes of a parsed command: some of its words joined with blanks, and
perhaps one more blank. -/
theorem Command.Parsed.joinArgs_spec {command : Command} (parsed : command.Parsed)
    (startIndex : ℕ) :
    ∃ kept extra, (∀ word ∈ kept, ArgumentWord word) ∧ kept.length ≤ maxCommandLen - 2 ∧
      joinArgs command.args startIndex maxMessage =
        [blank].intercalate kept ++ List.replicate extra blank ∧
      ([blank].intercalate kept).length + extra < maxMessage := by
  obtain ⟨words, proper, few, all⟩ := parsed.arguments
  obtain ⟨kept, extra, initial, joined, fits⟩ :=
    joinArgsLoop_spec maxMessage ((List.ofFn command.args).drop startIndex) [] (by decide)
  have given : kept.Sublist words := by
    have whole : (words ++ List.replicate (maxCmdSize - words.length) []).filter (· ≠ []) =
        words := by
      rw [List.filter_append, List.filter_replicate_of_neg (by simp), List.append_nil]
      exact List.filter_eq_self.mpr fun word member => by simpa using (proper word member).nonempty
    have nonempty : kept.filter (· ≠ []) = kept := by
      refine List.filter_eq_self.mpr fun word member => ?_
      have leads := List.mem_takeWhile_imp (initial.subset member)
      exact leads
    have later := (initial.sublist.trans (List.takeWhile_sublist _)).filter (· ≠ [])
    rw [List.map_drop, all, nonempty] at later
    have dropped := (List.drop_sublist startIndex
      (words ++ List.replicate (maxCmdSize - words.length) [])).filter (· ≠ [])
    rw [whole] at dropped
    exact later.trans dropped
  exact ⟨kept, extra, fun word member => proper word (given.subset member),
    given.length_le.trans few, joined, fits⟩

/-- `result` and `current_len` in the loop of `join_args`: behind the separator, and behind
the word if it fits. -/
def joinArgsStates (maxLen : ℕ) : List Name → List UInt8 → ℕ → Bool → List (List UInt8 × ℕ)
  | [], _, _, _ => []
  | arg :: rest, result, currentLen, first =>
    if arg.bytes = [] then []
    else
      let spaced := !first && currentLen < maxLen - 1
      let result := if spaced then result ++ ascii " " else result
      let currentLen := if spaced then currentLen + 1 else currentLen
      let argLen := arg.bytes.length
      (result, currentLen) ::
        if currentLen + argLen < maxLen - 1 then
          (result ++ arg.bytes, currentLen + argLen) ::
            joinArgsStates maxLen rest (result ++ arg.bytes) (currentLen + argLen) false
        else []

/-- What the loop returns is what it has built in the end. -/
theorem joinArgsLoop_eq_getLastD (maxLen : ℕ) (args : List Name) (result : List UInt8)
    (currentLen : ℕ) (first : Bool) :
    joinArgsLoop maxLen args result currentLen first =
      ((joinArgsStates maxLen args result currentLen first).getLastD (result, currentLen)).1 := by
  induction args generalizing result currentLen first with
  | nil => rfl
  | cons arg rest ih =>
      rw [joinArgsLoop, joinArgsStates]
      by_cases ended : arg.bytes = []
      · rw [if_pos ended, if_pos ended]
        rfl
      · rw [if_neg ended, if_neg ended, List.getLastD_cons]
        dsimp only
        by_cases space : (if (!first && decide (currentLen < maxLen - 1)) = true then currentLen + 1
            else currentLen) + arg.bytes.length < maxLen - 1
        · rw [if_pos space, if_pos space, List.getLastD_cons, ih]
        · rw [if_neg space, if_neg space]
          rfl

/-- `current_len` is the length of the string, which leaves room for its terminator. -/
theorem joinArgsStates_spec {maxLen : ℕ} (args : List Name) {result : List UInt8}
    (room : result.length < maxLen) (first : Bool) :
    ∀ state ∈ joinArgsStates maxLen args result result.length first,
      state.1.length = state.2 ∧ state.2 < maxLen := by
  induction args generalizing result first with
  | nil => exact List.forall_mem_nil _
  | cons arg rest ih =>
      rw [joinArgsStates]
      by_cases ended : arg.bytes = []
      · rw [if_pos ended]
        exact List.forall_mem_nil _
      · rw [if_neg ended]
        dsimp only
        set separated := if (!first && decide (result.length < maxLen - 1)) = true then
          result ++ ascii " " else result with separatedEq
        have counted : (if (!first && decide (result.length < maxLen - 1)) = true then
            result.length + 1 else result.length) = separated.length := by
          rw [separatedEq]
          split
          · rw [List.length_append]
            rfl
          · rfl
        have within : separated.length < maxLen := by
          rw [← counted]
          split
          · rename_i spaced
            simp only [Bool.and_eq_true, decide_eq_true_eq] at spaced
            omega
          · exact room
        rw [counted]
        refine List.forall_mem_cons.mpr ⟨⟨rfl, within⟩, ?_⟩
        by_cases space : separated.length + arg.bytes.length < maxLen - 1
        · have fits : (separated ++ arg.bytes).length < maxLen := by
            rw [List.length_append]
            omega
          rw [if_pos space, ← List.length_append]
          exact List.forall_mem_cons.mpr ⟨⟨rfl, fits⟩, ih fits false⟩
        · rw [if_neg space]
          exact List.forall_mem_nil _

section Joined

variable (args : Fin maxCmdSize → Name) (startIndex : ℕ)

theorem exists_joinArgs :
    ∃ kept extra, (∀ word ∈ kept, 0 ∉ word) ∧ joinArgs args startIndex maxMessage =
        [blank].intercalate kept ++ List.replicate extra blank ∧
      ([blank].intercalate kept).length + extra < maxMessage := by
  obtain ⟨kept, extra, initial, joined, fits⟩ :=
    joinArgsLoop_spec maxMessage ((List.ofFn args).drop startIndex) [] (by decide)
  refine ⟨kept, extra, ?_, joined, fits⟩
  intro word member
  obtain ⟨arg, -, rfl⟩ := List.mem_map.mp ((List.takeWhile_subset _) (initial.subset member))
  exact arg.noNul

/-- What is joined leaves room for the terminator. -/
theorem length_joinArgs_lt {maxLen : ℕ} (positive : 1 ≤ maxLen) :
    (joinArgs args startIndex maxLen).length < maxLen := by
  have states := @joinArgsStates_spec maxLen ((List.ofFn args).drop startIndex) [] positive true
  rw [joinArgs, joinArgsLoop_eq_getLastD]
  rcases List.mem_cons.mp List.getLastD_mem_cons with none | built
  · rw [none]
    exact positive
  · obtain ⟨counted, fits⟩ := states _ built
    exact counted.trans_lt fits

theorem joinArgs_noNul : 0 ∉ joinArgs args startIndex maxMessage := by
  obtain ⟨kept, extra, plain, joined, -⟩ := exists_joinArgs args startIndex
  rw [joined]
  refine List.not_mem_append (List.notMem_intercalate (by decide) plain) ?_
  intro nul
  cases List.eq_of_mem_replicate nul

end Joined

section FullMessage

variable (sender : Name) (command : Command)

/-- The full message of a say leaves room for the terminator. -/
theorem length_fullMessage_lt :
    (sender.bytes ++ ascii ": " ++ joinArgs command.args 0 maxMessage).length <
      maxMessage + maxNameLen + 2 := by
  have short := length_joinArgs_lt command.args 0 (show 1 ≤ maxMessage by decide)
  have named : sender.bytes.length < 20 := sender.fits
  have separator : (ascii ": ").length = 2 := rfl
  rw [List.length_append, List.length_append, separator]
  dsimp only [maxMessage, maxNameLen] at short ⊢
  omega

/-- The full message of a say is not cut. -/
theorem fullMessage_eq :
    fullMessage sender command =
      sender.bytes ++ ascii ": " ++ joinArgs command.args 0 maxMessage :=
  List.take_of_length_le (Nat.le_of_lt_succ (length_fullMessage_lt sender command))

theorem fullMessage_noNul : 0 ∉ fullMessage sender command := by
  rw [fullMessage_eq sender command]
  exact List.not_mem_append (List.not_mem_append sender.noNul (by decide)) (joinArgs_noNul _ 0)

end FullMessage

end MultithreadedChat
