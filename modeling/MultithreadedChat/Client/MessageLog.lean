import Mathlib.Data.List.DropRight
import MultithreadedChat.Client.Handlers

/-! # The bounds of the client's message log

The handlers of the client access their arrays within bounds as long as the arguments
they join fit the buffer, and no more says come between two disconnresponses than the log
has rows (`MultithreadedChat.inBounds_iff`). Nothing in the client checks either.
-/

namespace MultithreadedChat

open CString

/-! ## Joining -/

/-- The strings of some arguments and the blanks between them fit the buffer of `join`,
and the arguments are followed by an empty one. -/
def FitsJoin (args : List (List UInt8)) : Prop :=
  args.length < maxCmdSize ∧ (args.map List.length).sum + (args.length - 1) < joinSize

instance (args : List (List UInt8)) : Decidable (FitsJoin args) :=
  inferInstanceAs (Decidable (_ ∧ _))

theorem fitsJoin_iff {args : List (List UInt8)} :
    FitsJoin args ↔
      args.length < maxCmdSize ∧ ([blank].intercalate args).length < joinSize := by
  rw [FitsJoin, ← @List.length_intercalate _ blank]

/-- The arguments of a command that `join` finds. -/
def CommandMemory.leading (command : CommandMemory) : List (List UInt8) :=
  (List.ofFn command.arg).takeWhile (· ≠ [])

/-- The string that `join` builds of some arguments. -/
def joined (args : List (List UInt8)) : List UInt8 := [blank].intercalate (args.takeWhile (· ≠ []))

@[simp] theorem joined_nil (rest : List (List UInt8)) : joined ([] :: rest) = [] := rfl

theorem joined_last {arg : List UInt8} (nonempty : arg ≠ []) (rest : List (List UInt8)) :
    joined (arg :: [] :: rest) = arg := by
  rw [joined, List.takeWhile_cons_of_pos (by simpa using nonempty)]
  simp

theorem joined_cons {arg next : List UInt8} (nonempty : arg ≠ []) (going : next ≠ [])
    (rest : List (List UInt8)) :
    joined (arg :: next :: rest) = arg ++ [blank] ++ joined (next :: rest) := by
  have starts : (next :: rest).takeWhile (· ≠ []) ≠ [] := by
    rw [List.takeWhile_cons_of_pos (by simpa using going)]
    simp
  rw [joined, List.takeWhile_cons_of_pos (by simpa using nonempty),
    List.intercalate_cons_of_ne_nil starts, joined]

theorem length_le_joined {arg : List UInt8} (nonempty : arg ≠ []) (rest : List (List UInt8)) :
    arg.length ≤ (joined (arg :: rest)).length := by
  cases rest with
  | nil => simp [joined, nonempty]
  | cons next rest =>
      by_cases last : next = []
      · subst last
        rw [joined_last nonempty]
      · rw [joined_cons nonempty last, List.length_append, List.length_append]
        omega

theorem nil_mem_cons_iff {arg : List UInt8} (nonempty : arg ≠ []) {rest : List (List UInt8)} :
    [] ∈ arg :: rest ↔ [] ∈ rest := by
  simp [Ne.symm nonempty]

/-- One round of the loop of `join`. -/
theorem joinLoop_cons {arg : List UInt8} (nonempty : arg ≠ []) (next : List UInt8)
    (rest : List (List UInt8)) (result : List UInt8) :
    joinLoop (arg :: next :: rest) result =
      if result.length + arg.length < joinSize then
        if next = [] then .ok (result ++ arg)
        else if (result ++ arg).length + 1 < joinSize then
          joinLoop (next :: rest) (result ++ arg ++ [blank])
        else .error .joinOverflow
      else .error .joinOverflow := by
  rw [joinLoop, if_neg nonempty]
  unfold strcat
  by_cases room : result.length + arg.length < joinSize
  · rw [if_pos room, if_pos room]
    by_cases last : next = []
    · subst last
      rfl
    · rw [if_neg last]
      have going : next ≠ [] := last
      by_cases more : (result ++ arg).length + 1 < joinSize
      · have space : (result ++ arg).length + (ascii " ").length < joinSize := more
        rw [if_pos more]
        simp only [bind, Except.bind, if_pos going, if_pos space]
        rfl
      · have full : ¬ (result ++ arg).length + (ascii " ").length < joinSize := more
        rw [if_neg more]
        simp only [bind, Except.bind, if_pos going, if_neg full]
  · rw [if_neg room, if_neg room]
    rfl

/-- What the loop of `join` does with the remaining arguments. -/
theorem joinLoop_eq_ok_iff {args : List (List UInt8)} {result whole : List UInt8}
    (fitting : result.length < joinSize) :
    joinLoop args result = .ok whole ↔
      [] ∈ args ∧ (result ++ joined args).length < joinSize ∧ whole = result ++ joined args := by
  induction args generalizing result with
  | nil => simp [joinLoop]
  | cons arg rest ih =>
      by_cases ended : arg = []
      · subst ended
        rw [joinLoop, if_pos rfl, joined_nil, List.append_nil]
        simp [fitting, eq_comm]
      · cases rest with
        | nil =>
            refine iff_of_false (fun done => ?_) (fun holds => ?_)
            · rw [joinLoop, if_neg ended] at done
              unfold strcat at done
              split at done <;> cases done
            · exact ended (List.mem_singleton.mp holds.1).symm
        | cons next rest =>
            rw [joinLoop_cons ended]
            by_cases room : result.length + arg.length < joinSize
            · rw [if_pos room]
              by_cases last : next = []
              · subst last
                rw [if_pos rfl, joined_last ended, List.length_append]
                simp [room, eq_comm]
              · rw [if_neg last, joined_cons ended last]
                have regroup : result ++ (arg ++ [blank] ++ joined (next :: rest)) =
                    result ++ arg ++ [blank] ++ joined (next :: rest) := by
                  simp
                rw [nil_mem_cons_iff ended, regroup]
                by_cases more : (result ++ arg).length + 1 < joinSize
                · rw [if_pos more, ih (by rw [List.length_append]; exact more)]
                · rw [if_neg more]
                  refine iff_of_false (fun done => by cases done) (fun holds => more ?_)
                  have short := holds.2.1
                  rw [List.length_append, List.length_append, List.length_singleton] at short
                  omega
            · rw [if_neg room]
              refine iff_of_false (fun done => by cases done) (fun holds => room ?_)
              have short := holds.2.1
              have longer := length_le_joined ended (next :: rest)
              rw [List.length_append] at short
              omega

/-- `join` succeeds with the leading arguments, if they fit. -/
theorem join_eq_ok_iff {command : CommandMemory} {whole : List UInt8} :
    join command = .ok whole ↔
      FitsJoin command.leading ∧ whole = [blank].intercalate command.leading := by
  have count : (List.ofFn command.arg).length = maxCmdSize := List.length_ofFn
  have leads : command.leading <+: List.ofFn command.arg := List.takeWhile_prefix _
  have ended : [] ∈ List.ofFn command.arg ↔ command.leading.length < maxCmdSize := by
    have short := leads.length_le
    rw [count] at short
    rw [lt_iff_le_and_ne, and_iff_right short, ← not_iff_not, not_not]
    constructor
    · intro absent
      have whole : command.leading = List.ofFn command.arg := by
        apply List.takeWhile_eq_self_iff.mpr
        intro arg member
        have present : arg ≠ [] := fun nothing => absent (nothing ▸ member)
        simpa using present
      rw [whole, count]
    · intro same nothing
      have whole := leads.eq_of_length (same.trans count.symm)
      have kept := List.takeWhile_eq_self_iff.mp whole [] nothing
      simp at kept
  rw [join, joinLoop_eq_ok_iff (by decide), ended, List.nil_append, joined, ← and_assoc,
    fitsJoin_iff]
  rfl

/-! ## Datagrams -/

namespace Delivery

variable (delivery : Delivery)

/-- The words of the message in a datagram. -/
def words : List (List UInt8) := messageWords (CString.ofBytes queueMsgSize delivery.msg).bytes

/-- What a datagram is handled as: without a word, as what is left on the stack. -/
def kind : Option CommandKind :=
  match delivery.words with
  | [] => CommandKind.ofCode delivery.stack.kind
  | keyword :: _ => some (.ofKeyword keyword)

/-- The arguments of a datagram: its words behind the first, cut to the size of a name.
Without a word they are what is left on the stack. -/
def args : List (List UInt8) :=
  match delivery.words with
  | [] => delivery.stack.leading
  | _ :: words => words.map (List.take (nameSize - 1))

theorem command_eq : delivery.command = delivery.stack.commandHandler delivery.words := by
  rw [command, parseSlot_eq, storedMsg_string, words]

/-- The kind of the command that is handled. -/
theorem ofCode_kind : CommandKind.ofCode delivery.command.kind = delivery.kind := by
  rw [command_eq, kind]
  cases delivery.words with
  | nil => rfl
  | cons keyword words => exact CommandKind.ofCode_code _

/-- The arguments of the command that is handled. -/
theorem leading_command : delivery.command.leading = delivery.args := by
  rw [command_eq, args]
  cases found : delivery.words with
  | nil => rfl
  | cons keyword words =>
      rw [Delivery.words] at found
      have room : words.length ≤ maxCmdSize := (length_arguments_le found).trans (by decide)
      have slots : List.ofFn (delivery.stack.commandHandler (keyword :: words)).arg =
          words.map (List.take (nameSize - 1)) ++
            List.replicate (maxCmdSize - words.length) [] := by
        rw [← map_ofBytes_arguments found, ← CommandMemory.ofFn_expected room]
        exact congrArg List.ofFn (funext (CommandMemory.arg_commandHandler _ _ _))
      rw [CommandMemory.leading, slots]
      exact List.takeWhile_ne_append_replicate (argument_ne_nil found) _

/-- A message with a word has no more arguments than there are slots. -/
theorem fitsJoin_args_iff (worded : delivery.words ≠ []) :
    FitsJoin delivery.args ↔ ([blank].intercalate delivery.args).length < joinSize := by
  refine fitsJoin_iff.trans (and_iff_right ?_)
  rw [args]
  cases found : delivery.words with
  | nil => exact (worded found).elim
  | cons keyword words =>
      rw [Delivery.words] at found
      dsimp only
      rw [List.length_map]
      exact (length_arguments_le found).trans_lt (by decide)

/-- The datagram can be handled by a client: what is joined fits, and there is a row for
another line. -/
def Within (client : ClientState) : Prop :=
  (delivery.kind ∈ [some .say, some .connFailed, some .error] → FitsJoin delivery.args) ∧
    (delivery.kind = some .say → client.messageCount < maxMsgs)

end Delivery

/-- What becomes of the number of lines in the log when the datagram is handled. -/
def Delivery.lines (delivery : Delivery) (count : ℕ) : ℕ :=
  match delivery.kind with
  | some .say => count + 1
  | some .disconnResponse => 0
  | _ => count

/-- The datagrams behind the last disconnresponse. -/
def sinceDisconnResponse (deliveries : List Delivery) : List Delivery :=
  deliveries.rtakeWhile (·.kind ≠ some .disconnResponse)

/-- The lines in the log after some datagrams: the says behind the last disconnresponse and,
if there was none, the `count` lines that were there. -/
def linesAfter (count : ℕ) (deliveries : List Delivery) : ℕ :=
  (if some .disconnResponse ∈ deliveries.map Delivery.kind then 0 else count) +
    (sinceDisconnResponse deliveries).countP (·.kind = some .say)

theorem linesAfter_nil (count : ℕ) : linesAfter count [] = count := by
  simp [linesAfter, sinceDisconnResponse]

theorem linesAfter_concat (count : ℕ) (deliveries : List Delivery) (delivery : Delivery) :
    linesAfter count (deliveries ++ [delivery]) =
      delivery.lines (linesAfter count deliveries) := by
  rw [linesAfter, sinceDisconnResponse, List.rtakeWhile_concat, Delivery.lines]
  by_cases reset : delivery.kind = some .disconnResponse
  · simp [reset]
  · by_cases said : delivery.kind = some .say
    · simp [said, linesAfter, sinceDisconnResponse, List.countP_append, add_assoc]
    · simp [reset, said, Ne.symm reset, linesAfter, sinceDisconnResponse, List.countP_append]

/-- The datagrams fit the arrays of a client with `count` lines: what is joined fits, and
there are never more lines than rows. -/
def AllFit (count : ℕ) (deliveries : List Delivery) : Prop :=
  (∀ delivery ∈ deliveries, delivery.kind ∈ [some .say, some .connFailed, some .error] →
    FitsJoin delivery.args) ∧
  ∀ earlier, earlier <+: deliveries → linesAfter count earlier ≤ maxMsgs

/-! ## Runs -/

section Runs

variable {client after : ClientState} {command : CommandMemory} {delivery : Delivery}

/-- The line that `say_exec` stores. -/
def ClientState.log (client : ClientState) (room : client.messageCount < maxMsgs)
    (line : List UInt8) : ClientState :=
  { client with
    messages := Function.update client.messages ⟨client.messageCount, room⟩ line
    messageCount := client.messageCount + 1 }

theorem sayExec_eq_ok_iff :
    sayExec command client = .ok after ↔
      ∃ line, join command = .ok line ∧
        ∃ room : client.messageCount < maxMsgs, after = client.log room line := by
  unfold sayExec
  cases joins : join command with
  | error fault => simp [bind, Except.bind]
  | ok line =>
      by_cases room : client.messageCount < maxMsgs
      · simp only [bind, Except.bind, dif_pos room, pure, Except.pure, Except.ok.injEq,
          exists_eq_left', exists_prop_of_true room]
        exact eq_comm
      · simp [bind, Except.bind, room]

theorem executeConnectFailed_eq_ok_iff :
    executeConnectFailed command client = .ok after ↔
      (∃ line, join command = .ok line) ∧ after = client := by
  unfold executeConnectFailed
  cases join command with
  | error fault => simp [bind, Except.bind]
  | ok line => simp [bind, Except.bind, pure, Except.pure, eq_comm]

theorem executeErrorResponse_eq_ok_iff :
    executeErrorResponse command client = .ok after ↔
      (∃ line, join command = .ok line) ∧ after = client := executeConnectFailed_eq_ok_iff

/-- A say that fits is logged. -/
theorem handle_say (said : delivery.kind = some .say) (fits : FitsJoin delivery.args)
    (room : client.messageCount < maxMsgs) :
    handleCliSideCmd client delivery =
      .ok (client.log room ([blank].intercalate delivery.args)) := by
  rw [handleCliSideCmd, executeServerCommand, delivery.ofCode_kind, said]
  refine sayExec_eq_ok_iff.mpr ⟨_, join_eq_ok_iff.mpr ?_, room, rfl⟩
  rw [delivery.leading_command]
  exact ⟨fits, rfl⟩

/-- A handler runs without a fault if and only if the datagram is within the bounds. -/
theorem handle_ok_iff :
    (∃ after, handleCliSideCmd client delivery = .ok after) ↔ delivery.Within client := by
  have joins : (∃ line, join delivery.command = .ok line) ↔ FitsJoin delivery.args := by
    rw [← delivery.leading_command]
    exact ⟨fun ⟨_, done⟩ => (join_eq_ok_iff.mp done).1,
      fun fits => ⟨_, join_eq_ok_iff.mpr ⟨fits, rfl⟩⟩⟩
  rw [handleCliSideCmd, executeServerCommand, delivery.ofCode_kind, Delivery.Within, ← joins]
  cases delivery.kind with
  | none => simp [pure, Except.pure]
  | some kind =>
      cases kind with
      | say => simpa [sayExec_eq_ok_iff] using and_comm
      | connFailed => simp [executeConnectFailed_eq_ok_iff]
      | error => simp [executeErrorResponse_eq_ok_iff]
      | conn | connSuccess | sayto | mute | unmute | rename | disconn | disconnResponse | kick
      | ping | retping | unknown => simp [pure, Except.pure]

/-- A handler changes the number of lines as its datagram says. -/
theorem handle_messageCount (handled : handleCliSideCmd client delivery = .ok after) :
    after.messageCount = delivery.lines client.messageCount := by
  rw [handleCliSideCmd, executeServerCommand, delivery.ofCode_kind] at handled
  rw [Delivery.lines]
  cases handledAs : delivery.kind with
  | none =>
      rw [handledAs] at handled
      cases handled
      rfl
  | some kind =>
      rw [handledAs] at handled
      cases kind with
      | say =>
          obtain ⟨line, -, room, rfl⟩ := sayExec_eq_ok_iff.mp handled
          rfl
      | connFailed =>
          obtain ⟨-, rfl⟩ := executeConnectFailed_eq_ok_iff.mp handled
          rfl
      | error =>
          obtain ⟨-, rfl⟩ := executeErrorResponse_eq_ok_iff.mp handled
          rfl
      | disconnResponse =>
          cases handled
          rfl
      | connSuccess | mute | unmute | rename =>
          simp only [pure, Except.pure, Except.ok.injEq] at handled
          subst handled
          dsimp only [muteExec, unmuteExec, renameExec, executeConnectResponse]
      | conn | sayto | disconn | kick | ping | retping | unknown =>
          cases handled
          rfl

/-- Every handler of a run keeps to the arrays: it runs without a fault, and there are at
most `MAX_MSGS` lines after it. -/
def InBounds (client : ClientState) (deliveries : List Delivery) : Prop :=
  ∀ earlier, earlier <+: deliveries →
    ∃ after, handleAll client earlier = .ok after ∧ after.messageCount ≤ maxMsgs

theorem handleAll_nil (client : ClientState) : handleAll client [] = .ok client := rfl

theorem handleAll_cons (handled : handleCliSideCmd client delivery = .ok after)
    (later : List Delivery) : handleAll client (delivery :: later) = handleAll after later := by
  rw [handleAll, List.foldlM_cons, handled]
  rfl

theorem handleAll_append {before : ClientState} {earlier : List Delivery}
    (handled : handleAll client earlier = .ok before) (later : List Delivery) :
    handleAll client (earlier ++ later) = handleAll before later := by
  rw [handleAll] at handled
  rw [handleAll, List.foldlM_append, handled]
  rfl

theorem handleAll_snoc {before : ClientState} {earlier : List Delivery}
    (handled : handleAll client earlier = .ok before) (delivery : Delivery) :
    handleAll client (earlier ++ [delivery]) = handleCliSideCmd before delivery := by
  rw [handleAll_append handled, handleAll, List.foldlM_cons]
  exact bind_pure _

/-- The log has the lines that the datagrams say. -/
theorem handleAll_messageCount {deliveries : List Delivery}
    (handled : handleAll client deliveries = .ok after) :
    after.messageCount = linesAfter client.messageCount deliveries := by
  induction deliveries using List.reverseRecOn generalizing after with
  | nil =>
      cases handled
      rw [linesAfter_nil]
  | append_singleton earlier delivery ih =>
      cases handledBefore : handleAll client earlier with
      | error fault =>
          rw [handleAll] at handled handledBefore
          rw [List.foldlM_append, handledBefore] at handled
          cases handled
      | ok before =>
          rw [handleAll_snoc handledBefore] at handled
          rw [handle_messageCount handled, ih handledBefore, linesAfter_concat]

/-- **The bounds of the message log.** From any client, a run keeps to the arrays if and only
if every datagram that is handled as a say, a connfailed or an error has arguments that fit
the buffer of `join`, and the lines that are there and the says that follow, counted from the
last disconnresponse, are never more than the log has rows. -/
theorem inBounds_iff (client : ClientState) (deliveries : List Delivery) :
    InBounds client deliveries ↔ AllFit client.messageCount deliveries := by
  constructor
  · intro inBounds
    constructor
    · intro delivery member
      obtain ⟨earlier, later, rfl⟩ := List.append_of_mem member
      obtain ⟨before, handled, -⟩ := inBounds earlier (List.prefix_append _ _)
      obtain ⟨after, done, -⟩ := inBounds (earlier ++ [delivery]) ⟨later, by simp⟩
      rw [handleAll_snoc handled] at done
      exact (handle_ok_iff.mp ⟨after, done⟩).1
    · intro earlier initial
      obtain ⟨after, handled, fine⟩ := inBounds earlier initial
      exact handleAll_messageCount handled ▸ fine
  · rintro ⟨joins, rows⟩ earlier
    induction earlier using List.reverseRecOn with
    | nil =>
        intro initial
        exact ⟨client, handleAll_nil client, linesAfter_nil client.messageCount ▸ rows [] initial⟩
    | append_singleton earlier delivery ih =>
        intro initial
        obtain ⟨before, handled, -⟩ := ih ((List.prefix_append _ _).trans initial)
        have fine := rows _ initial
        rw [linesAfter_concat, ← handleAll_messageCount handled] at fine
        have within : delivery.Within before := by
          refine ⟨joins delivery (initial.subset (by simp)), fun said => ?_⟩
          rw [Delivery.lines, said] at fine
          exact fine
        obtain ⟨after, done⟩ := handle_ok_iff.mpr within
        exact ⟨after, (handleAll_snoc handled delivery).trans done,
          handle_messageCount done ▸ fine⟩

/-- A datagram that says something. -/
def sampleSay : Delivery := ⟨ascii "say$ A: hi" ++ [0], ⟨0, .strncpy _ []⟩⟩

theorem sampleSay_words : sampleSay.words = [ascii "say", ascii "A:", ascii "hi"] := by decide

theorem sampleSay_kind : sampleSay.kind = some .say := by
  rw [Delivery.kind, sampleSay_words]
  rfl

theorem sampleSay_fits : FitsJoin sampleSay.args := by
  rw [Delivery.args, sampleSay_words]
  decide

/-- A client that has just connected. -/
def ClientState.fresh : ClientState := ⟨[], true, .empty, fun _ => [], 0⟩

/-- A datagram that says something, handled so many times, fills as many rows. -/
theorem handleAll_sampleSay (times : ℕ) (few : times ≤ maxMsgs) :
    ∃ after, handleAll .fresh (List.replicate times sampleSay) = .ok after ∧
      after.messageCount = times := by
  induction times with
  | zero => exact ⟨.fresh, rfl, rfl⟩
  | succ times ih =>
      obtain ⟨before, handled, count⟩ := ih (Nat.le_of_succ_le few)
      have room : before.messageCount < maxMsgs := count ▸ few
      refine ⟨before.log room ([blank].intercalate sampleSay.args), ?_, congrArg (· + 1) count⟩
      rw [List.replicate_succ', handleAll_snoc handled]
      exact handle_say sampleSay_kind sampleSay_fits room

/-- The hundred-and-first line is written behind the log. -/
theorem message_log_overflows :
    ClientState.fresh.messageCount ≤ maxMsgs ∧
      ¬ InBounds .fresh (List.replicate 101 sampleSay) := by
  refine ⟨Nat.zero_le _, fun inBounds => ?_⟩
  obtain ⟨before, handled, count⟩ := handleAll_sampleSay 100 le_rfl
  obtain ⟨after, done, -⟩ := inBounds (List.replicate 101 sampleSay) List.prefix_rfl
  rw [List.replicate_succ', handleAll_snoc handled] at done
  have room := (handle_ok_iff.mp ⟨after, done⟩).2 sampleSay_kind
  rw [count] at room
  exact Nat.lt_irrefl _ room

end Runs

end MultithreadedChat
