import Mathlib.Data.List.DropRight
import MultithreadedChat.Server.Sequential

/-! # The chat history

`say` appends to the history only below `MAX_MSGS`, so the history is the first
`MAX_MSGS` broadcasts of a run (`MultithreadedChat.history_of_execution`), and a new
client is sent the last `CHAT_HISTORY_SIZE` of these: the last ones of the run as
long as there were not more than `MAX_MSGS`
(`MultithreadedChat.connect_replays_last_iff`).
-/

namespace MultithreadedChat

open CString LinkedList

/-- The full message that an event broadcasts. -/
def broadcastOf (server : Server) : ServerEvent → Option (List UInt8)
  | .command request _ =>
    if request.command.kind = .say then
      (server.registry.nameAt request.fromAddr).map fun sender =>
        fullMessage sender request.command
    else none
  | .managerPass _ => none

/-- The full messages broadcast in a run, oldest first. -/
def broadcasts (trace : List (Server × ServerEvent)) : List (List UInt8) :=
  trace.filterMap fun visit => broadcastOf visit.1 visit.2

/-- A line of the history on its way to an address. -/
def historyLine (addr : SockAddrIn) (message : List UInt8) : Datagram :=
  ⟨addr, ascii "say$ " ++ message, responseBufferSize⟩

theorem broadcasts_snoc (trace : List (Server × ServerEvent)) (server : Server)
    (event : ServerEvent) :
    broadcasts (trace ++ [(server, event)]) =
      broadcasts trace ++ (broadcastOf server event).toList := by
  rw [broadcasts, List.filterMap_append]
  cases said : broadcastOf server event <;> simp [broadcasts, said]

/-- A full message is short enough to be broadcast and replayed whole. -/
theorem fullMessage_length_lt (sender : Name) (command : Command) :
    (fullMessage sender command).length < maxMessage + maxNameLen + 2 := by
  rw [fullMessage, snprintf, List.length_take]
  simp only [maxMessage, maxNameLen]
  omega

theorem sayResponse_eq {message : List UInt8}
    (short : message.length < maxMessage + maxNameLen + 2) :
    sayResponse message = ascii "say$ " ++ message := by
  apply List.take_of_length_le
  have keyword : (ascii "say$ ").length = 5 := by decide
  rw [List.length_append, keyword]
  simp only [responseBufferSize, maxMessage, maxNameLen] at short ⊢
  omega

/-- The history of a server, as a list of its lines. -/
structure Server.Remembers (server : Server) (lines : List (List UInt8)) : Prop where
  count : server.chatHistoryc = lines.length
  lines : ∀ i, server.chatHistory i = lines[i]?

namespace Server.Remembers

variable {server : Server} {lines : List (List UInt8)} (remembers : server.Remembers lines)
include remembers

/-- Recording a message while there is room appends it. -/
theorem record (message : List UInt8) (full : lines.length ≤ maxMsgs) :
    (server.record message).Remembers ((lines ++ [message]).take maxMsgs) := by
  unfold Server.record
  rw [remembers.count]
  by_cases room : lines.length < maxMsgs
  · have whole : (lines ++ [message]).take maxMsgs = lines ++ [message] := by
      apply List.take_of_length_le
      rw [List.length_append, List.length_singleton]
      exact Nat.succ_le_of_lt room
    rw [if_pos room, whole]
    refine ⟨by simp, ?_⟩
    intro i
    simp only [Function.update_apply, remembers.lines, List.getElem?_append]
    rcases Nat.lt_trichotomy i lines.length with below | same | beyond
    · rw [if_neg (Nat.ne_of_lt below), if_pos below]
    · simp [same]
    · have past : ¬ i < lines.length := Nat.not_lt.mpr (Nat.le_of_lt beyond)
      have behind : i - lines.length ≠ 0 := Nat.sub_ne_zero_of_lt beyond
      rw [if_neg (Nat.ne_of_gt beyond), if_neg past]
      simp [behind, Nat.le_of_lt beyond]
  · have same : lines.length = maxMsgs := Nat.le_antisymm full (Nat.le_of_not_lt room)
    rw [if_neg room, List.take_append_of_le_length (Nat.le_of_eq same.symm), ← same,
      List.take_length]
    exact remembers

/-- The replay is the last lines of the history, oldest first. -/
theorem replay_eq (short : ∀ line ∈ lines, line.length < maxMessage + maxNameLen + 2)
    (addr : SockAddrIn) :
    server.replay addr = (lines.rtake chatHistorySize).map (historyLine addr) := by
  have window : ∀ start, (List.range' start (lines.length - start)).filterMap
      (fun i => lines[i]?.map fun line =>
        (⟨addr, sayResponse line, responseBufferSize⟩ : Datagram)) =
      (lines.drop start).map (historyLine addr) := by
    intro start
    induction remaining : lines.length - start generalizing start with
    | zero =>
        have past : lines.length ≤ start := Nat.le_of_sub_eq_zero remaining
        simp [List.drop_of_length_le past]
    | succ remaining' ih =>
        have below : start < lines.length := by omega
        rw [List.range'_succ, List.filterMap_cons, List.getElem?_eq_getElem below,
          List.drop_eq_getElem_cons below, List.map_cons, ih (start + 1) (by omega)]
        simp only [Option.map_some]
        rw [sayResponse_eq (short _ (List.getElem_mem below)), historyLine]
  have start : (if lines.length > chatHistorySize then lines.length - chatHistorySize else 0) =
      lines.length - chatHistorySize := by
    split <;> omega
  unfold Server.replay
  rw [remembers.count, List.rtake, ← window]
  simp only [remembers.lines, start]
  rfl

end Server.Remembers

/-- What an event does to the history. -/
theorem handle_remembers {server server' : Server} (formed : server.clients.WellFormed)
    {event : ServerEvent} {sent : List Datagram}
    (handled : handle server event = .ok (server', sent)) {lines : List (List UInt8)}
    (remembers : server.Remembers lines) (full : lines.length ≤ maxMsgs) :
    server'.Remembers ((lines ++ (broadcastOf server event).toList).take maxMsgs) := by
  have silent : broadcastOf server event = none →
      server' = { server with clients := server'.clients } →
      server'.Remembers ((lines ++ (broadcastOf server event).toList).take maxMsgs) := by
    intro nothing kept
    rw [nothing, Option.toList_none, List.append_nil, List.take_of_length_le full, kept]
    exact ⟨remembers.count, remembers.lines⟩
  cases event with
  | managerPass currentTime =>
      apply silent rfl
      obtain ⟨clients, _, done, -⟩ := connectionManager_spec formed currentTime
      rw [handle, done] at handled
      cases handled
      rfl
  | command request now =>
      by_cases said : request.command.kind = .say
      · cases named : server.registry.nameAt request.fromAddr with
        | none =>
            have absent : request.fromAddr ∉ server.registry.addresses := by
              rw [← Registry.exists_nameAt, named]
              rintro ⟨sender, found⟩
              cases found
            rw [handle, spawn_absent formed request now (by rw [said]; rfl) absent] at handled
            cases handled
        | some sender =>
            obtain ⟨clients, done, -⟩ := spawn_say formed request now said named
            rw [handle, done] at handled
            cases handled
            have heard : broadcastOf server (.command request now) =
                some (fullMessage sender request.command) := by
              rw [broadcastOf, if_pos said, named, Option.map_some]
            rw [heard]
            have remembersThere : ({ server with clients := clients } : Server).Remembers lines :=
              ⟨remembers.count, remembers.lines⟩
            exact remembersThere.record _ full
      · apply silent (if_neg said)
        have safe : request.command.kind.followsSender = true →
            request.fromAddr ∈ server.registry.addresses := by
          intro follows
          by_contra absent
          rw [handle, spawn_absent formed request now follows absent] at handled
          cases handled
        obtain ⟨other, _, done, -, -, kept⟩ := spawn_spec formed request now safe
        rw [handle, done] at handled
        cases handled
        exact kept said

/-- The history is the first `MAX_MSGS` broadcasts. -/
theorem history_of_execution {trace : List (Server × ServerEvent)} {server : Server}
    (execution : serverSystem.Execution trace server) :
    server.Remembers ((broadcasts trace).take maxMsgs) := by
  induction execution with
  | start initial =>
      subst initial
      exact ⟨rfl, fun _ => rfl⟩
  | @step trace before after event execution moved ih =>
      obtain ⟨sent, handled⟩ := moved
      have remembers := handle_remembers (wellFormed_of_reachable ⟨_, execution⟩) handled ih
        (List.length_take_le ..)
      have cut : maxMsgs - (List.take maxMsgs (broadcasts trace)).length =
          maxMsgs - (broadcasts trace).length := by
        rw [List.length_take]
        omega
      rw [List.take_append, List.take_take, Nat.min_self, cut] at remembers
      rwa [broadcasts_snoc, List.take_append]

/-- Every broadcast is a full message of `say`. -/
theorem exists_fullMessage {trace : List (Server × ServerEvent)} {message : List UInt8}
    (said : message ∈ broadcasts trace) :
    ∃ sender command, message = fullMessage sender command := by
  obtain ⟨⟨server, event⟩, -, heard⟩ := List.mem_filterMap.mp said
  cases event with
  | managerPass => cases heard
  | command request now =>
      simp only [broadcastOf] at heard
      split at heard
      · obtain ⟨sender, -, same⟩ := Option.map_eq_some_iff.mp heard
        exact ⟨sender, request.command, same.symm⟩
      · cases heard

theorem broadcasts_short {trace : List (Server × ServerEvent)} {message : List UInt8}
    (said : message ∈ broadcasts trace) : message.length < maxMessage + maxNameLen + 2 := by
  obtain ⟨sender, command, rfl⟩ := exists_fullMessage said
  exact fullMessage_length_lt sender command

/-- What a new client is sent after a run: the confirmation, and the last lines of the
history. -/
theorem connect_sent {trace : List (Server × ServerEvent)} {server : Server}
    (execution : serverSystem.Execution trace server) {request : Request}
    (conn : request.command.kind = .conn) (now : ℤ) :
    ∃ server', spawnExecuteCommandThreads server request now = .ok (server',
      connsuccess request ::
        (((broadcasts trace).take maxMsgs).rtake chatHistorySize).map
          (historyLine request.fromAddr)) := by
  have formed := wellFormed_of_reachable ⟨_, execution⟩
  obtain ⟨clients, done, -⟩ := connectToServer_spec formed request now
  have replayed := (history_of_execution execution).replay_eq
    (fun line member => broadcasts_short (List.mem_of_mem_take member)) request.fromAddr
  refine ⟨{ server with clients := clients }, ?_⟩
  rw [← replayed, ← done, spawnExecuteCommandThreads, markActivity, if_neg (by rw [conn]; simp)]
  simp only [pure_eq_ok, ok_bind, executeCommand, conn]

theorem historyLine_injective (addr : SockAddrIn) : Function.Injective (historyLine addr) := by
  intro one other same
  exact List.append_cancel_left (Datagram.mk.inj same).2.1

/-- After a run, a new client is sent its confirmation and then exactly the last
`CHAT_HISTORY_SIZE` broadcasts, or all of them if there were fewer, oldest first. -/
def ReplaysLast (trace : List (Server × ServerEvent)) (server : Server) (request : Request)
    (now : ℤ) : Prop :=
  ∃ server', spawnExecuteCommandThreads server request now = .ok (server',
    connsuccess request ::
      ((broadcasts trace).rtake chatHistorySize).map (historyLine request.fromAddr))

/-- **The history a new client is sent.** After any run it is the last
`CHAT_HISTORY_SIZE` broadcasts, oldest first, exactly if there were at most `MAX_MSGS`
broadcasts, or the last ones read like those that ended with the `MAX_MSGS`-th. -/
theorem connect_replays_last_iff {trace : List (Server × ServerEvent)} {server : Server}
    (execution : serverSystem.Execution trace server) {request : Request}
    (conn : request.command.kind = .conn) (now : ℤ) :
    ReplaysLast trace server request now ↔
      (broadcasts trace).length ≤ maxMsgs ∨
        (broadcasts trace).rtake chatHistorySize =
          ((broadcasts trace).drop (maxMsgs - chatHistorySize)).take chatHistorySize := by
  obtain ⟨server', done⟩ := connect_sent execution conn now
  have stored : maxMsgs < (broadcasts trace).length →
      ((broadcasts trace).take maxMsgs).rtake chatHistorySize =
        ((broadcasts trace).drop (maxMsgs - chatHistorySize)).take chatHistorySize := by
    intro many
    rw [List.rtake, List.length_take_of_le (Nat.le_of_lt many), List.drop_take]
    rfl
  constructor
  · rintro ⟨other, claimed⟩
    rw [done] at claimed
    have lines := (List.cons.inj (Prod.mk.inj (Except.ok.inj claimed)).2).2
    have alike := List.map_injective_iff.mpr (historyLine_injective _) lines
    by_cases few : (broadcasts trace).length ≤ maxMsgs
    · exact .inl few
    · exact .inr (alike.symm.trans (stored (Nat.lt_of_not_le few)))
  · intro fits
    refine ⟨server', ?_⟩
    have same : (broadcasts trace).rtake chatHistorySize =
        ((broadcasts trace).take maxMsgs).rtake chatHistorySize := by
      by_cases few : (broadcasts trace).length ≤ maxMsgs
      · rw [List.take_of_length_le few]
      · rcases fits with less | alike
        · exact (few less).elim
        · exact alike.trans (stored (Nat.lt_of_not_le few)).symm
    rw [same]
    exact done

/-- Both messages so far are sent to a new client. -/
theorem connect_replays_two_messages :
    ∃ trace server, serverSystem.Execution trace server ∧ (broadcasts trace).length = 2 ∧
      ReplaysLast trace server (sampleRequest .conn 3 "C") 0 := by
  have start : serverSystem.Execution [] Server.start := .start rfl
  have one := start.step (handled_step (.command (sampleRequest .conn 1 "A") 0) rfl)
  have two := one.step (handled_step (.command (sampleRequest .conn 2 "B") 0) rfl)
  have said := two.step (handled_step (.command (sampleRequest .say 1 "x") 0) rfl)
  have both := said.step (handled_step (.command (sampleRequest .say 2 "y") 0) rfl)
  have conn : (sampleRequest .conn 3 "C").command.kind = .conn := rfl
  exact ⟨_, _, both, rfl, (connect_replays_last_iff both conn 0).mpr (.inl (by decide))⟩

/-- A known client can say something any number of times. -/
theorem say_repeatedly {trace : List (Server × ServerEvent)} {server : Server}
    (execution : serverSystem.Execution trace server) {request : Request}
    (said : request.command.kind = .say) {sender : Name}
    (known : server.registry.nameAt request.fromAddr = some sender) (times : ℕ) :
    ∃ trace' server', serverSystem.Execution trace' server' ∧
      server'.registry.nameAt request.fromAddr = some sender ∧
      broadcasts trace' =
        broadcasts trace ++ List.replicate times (fullMessage sender request.command) := by
  induction times with
  | zero => exact ⟨trace, server, execution, known, by simp⟩
  | succ times ih =>
      obtain ⟨trace', server', execution', known', heard⟩ := ih
      have formed := wellFormed_of_reachable ⟨_, execution'⟩
      obtain ⟨clients, done, -, nodes⟩ := spawn_say formed request 0 said known'
      have moved : serverSystem.step server' (.command request 0)
          (({ server' with clients := clients } : Server).record
            (fullMessage sender request.command)) := ⟨_, done⟩
      refine ⟨_, _, execution'.step moved, ?_, ?_⟩
      · rw [Server.registry, Server.record_clients, nodes, Registry.nameAt_mark]
        exact known'
      · have said' : broadcastOf server' (.command request 0) =
            some (fullMessage sender request.command) := by
          rw [broadcastOf, if_pos said, known', Option.map_some]
        rw [broadcasts_snoc, said', heard, List.replicate_succ', List.append_assoc]
        rfl

/-- After a hundred messages and one more, a new client is not sent the last one. -/
theorem history_stops :
    ∃ (trace : List (Server × ServerEvent)) (server : Server) (request : Request),
      serverSystem.Execution trace server ∧ (broadcasts trace).length = 101 ∧
        request.command.kind = .conn ∧
        ¬ ReplaysLast trace server request 0 := by
  let x := sampleRequest .say 1 "x"
  let y := sampleRequest .say 1 "y"
  let newcomer := sampleRequest .conn 2 "B"
  have start : serverSystem.Execution [] Server.start := .start rfl
  have connected := start.step (handled_step (.command (sampleRequest .conn 1 "A") 0) rfl)
  obtain ⟨trace, server, talked, known, heard⟩ := say_repeatedly connected
    (show x.command.kind = .say from rfl) rfl 100
  obtain ⟨trace', server', ended, -, heard'⟩ := say_repeatedly talked
    (show y.command.kind = .say from rfl) known 1
  refine ⟨trace', server', newcomer, ended, ?_, rfl, ?_⟩
  · rw [heard', heard]
    rfl
  · rintro ⟨other, claimed⟩
    obtain ⟨final, done⟩ := connect_sent ended (show newcomer.command.kind = .conn from rfl) 0
    rw [done, heard', heard] at claimed
    have lines := List.map_injective_iff.mpr (historyLine_injective _)
      (List.cons.inj (Prod.mk.inj (Except.ok.inj claimed)).2).2
    revert lines
    decide

end MultithreadedChat
