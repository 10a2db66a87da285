import Mathlib.Data.Set.Insert
import MultithreadedChat.Client.MessageLog
import MultithreadedChat.Client.Sections
import MultithreadedChat.Foundation.Commutation

/-! # The order of the responses

The queue manager of the client starts a detached handler for every response it pops,
and the sections of the handlers interleave (`MultithreadedChat.responseSystem`).
Nothing makes a handler wait for an earlier one. What a client keeps is the same as if
the responses had been handled one at a time, as long as no section overtakes one that
it conflicts with (`MultithreadedChat.sections_in_order`).

Here a section is a single step, a change of the parts of the client
(`MultithreadedChat.Change`); two changes conflict if their order can be seen in one of the
parts. The handlers share the buffer of `join`, and those that print an error join without a
mutex. `MultithreadedChat.Client.JoinBuffer` says when a section is a single step all the
same.
-/

namespace MultithreadedChat

open Commutation CString

/-! ## Views of the client and their changes -/

/-- What a client keeps, without the layout of its tables. -/
structure ClientView where
  name : List UInt8
  connected : Bool
  muted : Set (List UInt8)
  log : List (List UInt8)

/-- The lines of the message log. -/
def ClientState.lines (client : ClientState) : List (List UInt8) :=
  (List.ofFn client.messages).take client.messageCount

/-- The view of a client. -/
def ClientState.view (client : ClientState) : ClientView where
  name := client.name
  connected := client.connected
  muted := {username | client.muteTable.contains username = true}
  log := client.lines

/-- What happens to the message log; what is joined may not fit. -/
inductive LogChange
  | keep
  | check (text : Except ClientFault (List UInt8))
  | append (line : Except ClientFault (List UInt8))
  | clear

/-- What happens to a client: a name, a connection flag, a name muted or unmuted, and
what happens to the log. -/
structure Change where
  name : Option (List UInt8)
  connected : Option Bool
  mute : Option (Bool × List UInt8)
  log : LogChange

/-- The change of a section. -/
def Section.change : Section → Change
  | .say command => ⟨none, none, none, .append (join command)⟩
  | .mute command => ⟨none, none, some (true, command.arg 0), .keep⟩
  | .unmute command => ⟨none, none, some (false, command.arg 0), .keep⟩
  | .rename command => ⟨some (command.arg 0), none, none, .keep⟩
  | .connect command => ⟨some (command.arg 0), some true, none, .keep⟩
  | .connectRedraw => ⟨none, none, none, .keep⟩
  | .disconnect => ⟨none, some false, none, .keep⟩
  | .disconnectClear => ⟨none, none, none, .clear⟩
  | .error command => ⟨none, none, none, .check (join command)⟩

/-- A log after a change. -/
def LogChange.apply : LogChange → List (List UInt8) → Option (List (List UInt8))
  | .keep, log | .check (.ok _), log => some log
  | .append (.ok line), log => if log.length < maxMsgs then some (log ++ [line]) else none
  | .check (.error _), _ | .append (.error _), _ => none
  | .clear, _ => some []

/-- The muted names after a change. -/
def applyMute : Option (Bool × List UInt8) → Set (List UInt8) → Set (List UInt8)
  | none, muted => muted
  | some (true, username), muted => insert username muted
  | some (false, username), muted => muted \ {username}

/-- A view after a change. -/
def Change.apply (change : Change) (view : ClientView) : Option ClientView :=
  (change.log.apply view.log).map fun log =>
    ⟨change.name.getD view.name, change.connected.getD view.connected,
      applyMute change.mute view.muted, log⟩

/-- The order of two changes of the log can be seen. -/
def LogChange.Conflicts : LogChange → LogChange → Prop
  | .append first, .append second => first ≠ second
  | .append _, .clear | .clear, .append _ => True
  | _, _ => False

/-- The order of two changes can be seen: in the name, the flag, a muted name or the log. -/
def Change.Conflicts (first second : Change) : Prop :=
  (∃ name ∈ first.name, ∃ other ∈ second.name, name ≠ other) ∨
    (∃ flag ∈ first.connected, ∃ other ∈ second.connected, flag ≠ other) ∨
    (∃ mute ∈ first.mute, ∃ other ∈ second.mute, mute.2 = other.2 ∧ mute.1 ≠ other.1) ∨
    first.log.Conflicts second.log

/-- Overwriting with equal values, or only once, in either order. -/
theorem getD_swap {α : Type*} {first second : Option α}
    (agree : ¬ ∃ value ∈ first, ∃ other ∈ second, value ≠ other) (old : α) :
    second.getD (first.getD old) = first.getD (second.getD old) := by
  cases first with
  | none => rfl
  | some value =>
      cases second with
      | none => rfl
      | some other =>
          by_contra different
          exact agree ⟨value, rfl, other, rfl, fun same => different same.symm⟩

theorem applyMute_swap {first second : Option (Bool × List UInt8)}
    (agree : ¬ ∃ mute ∈ first, ∃ other ∈ second, mute.2 = other.2 ∧ mute.1 ≠ other.1)
    (muted : Set (List UInt8)) :
    applyMute second (applyMute first muted) = applyMute first (applyMute second muted) := by
  rcases first with _ | ⟨_ | _, username⟩
  · rfl
  all_goals rcases second with _ | ⟨_ | _, other⟩
  · rfl
  · exact Set.sdiff_sdiff_comm
  · have apart : other ≠ username := fun same => agree ⟨_, rfl, _, rfl, same.symm, by simp⟩
    exact Set.insert_sdiff_singleton_comm apart _
  · rfl
  · have apart : username ≠ other := fun same => agree ⟨_, rfl, _, rfl, same, by simp⟩
    exact (Set.insert_sdiff_singleton_comm apart _).symm
  · exact Set.insert_comm ..

namespace LogChange

variable {first second : LogChange} {log result : List (List UInt8)}

/-- A change that only looks at what is joined. -/
theorem apply_eq_some_of_looks (looks : first = .keep ∨ ∃ text, first = .check text)
    (done : first.apply log = some result) : first.apply = some ∧ result = log := by
  obtain rfl | ⟨text, rfl⟩ := looks
  · exact ⟨rfl, (Option.some.inj done).symm⟩
  · cases text with
    | error => cases done
    | ok => exact ⟨rfl, (Option.some.inj done).symm⟩

/-- Changes of the log without a conflict can be made in either order. -/
theorem swap (agree : ¬ first.Conflicts second)
    (done : (first.apply log).bind second.apply = some result) :
    (second.apply log).bind first.apply = some result := by
  obtain ⟨middle, ran, ran'⟩ := Option.bind_eq_some_iff.mp done
  have first_looks (looks : first = .keep ∨ ∃ text, first = .check text) :
      (second.apply log).bind first.apply = some result := by
    obtain ⟨looking, rfl⟩ := apply_eq_some_of_looks looks ran
    rw [looking, ran']
    rfl
  have second_looks (looks : second = .keep ∨ ∃ text, second = .check text) :
      (second.apply log).bind first.apply = some result := by
    obtain ⟨looking, rfl⟩ := apply_eq_some_of_looks looks ran'
    rw [looking]
    exact ran
  cases first with
  | keep => exact first_looks (.inl rfl)
  | check text => exact first_looks (.inr ⟨text, rfl⟩)
  | append line =>
      cases second with
      | keep => exact second_looks (.inl rfl)
      | check text => exact second_looks (.inr ⟨text, rfl⟩)
      | append other =>
          have same : line = other := not_not.mp agree
          subst same
          exact done
      | clear => exact absurd trivial agree
  | clear =>
      cases second with
      | keep => exact second_looks (.inl rfl)
      | check text => exact second_looks (.inr ⟨text, rfl⟩)
      | append other => exact absurd trivial agree
      | clear => exact done

end LogChange

/-- Changes without a conflict can be made in either order. -/
theorem Change.swaps {first second : Change} (agree : ¬ first.Conflicts second)
    {view result : ClientView} (done : (first.apply view).bind second.apply = some result) :
    (second.apply view).bind first.apply = some result := by
  obtain ⟨names, agree⟩ := not_or.mp agree
  obtain ⟨flags, agree⟩ := not_or.mp agree
  obtain ⟨mutes, logs⟩ := not_or.mp agree
  obtain ⟨middle, ran, ran'⟩ := Option.bind_eq_some_iff.mp done
  obtain ⟨log, logged, rfl⟩ := Option.map_eq_some_iff.mp ran
  obtain ⟨log', logged', rfl⟩ := Option.map_eq_some_iff.mp ran'
  obtain ⟨other, other_first, other_second⟩ := Option.bind_eq_some_iff.mp
    (LogChange.swap logs (Option.bind_eq_some_iff.mpr ⟨log, logged, logged'⟩))
  rw [Change.apply, other_first, Option.map_some, Option.bind_some, Change.apply, other_second,
    Option.map_some]
  dsimp only
  rw [getD_swap names, getD_swap flags, applyMute_swap mutes]

/-- A line is logged behind the lines there are. -/
theorem lines_log (client : ClientState) (room : client.messageCount < maxMsgs)
    (line : List UInt8) : (client.log room line).lines = client.lines ++ [line] := by
  have inside : client.messageCount <
      (List.ofFn (client.log room line).messages).length := by rwa [List.length_ofFn]
  have stored : (client.log room line).messages ⟨client.messageCount, room⟩ = line :=
    Function.update_self ..
  have kept : (List.ofFn (client.log room line).messages).take client.messageCount =
      client.lines := by
    apply List.ext_getElem
    · rw [ClientState.lines, List.length_take, List.length_take, List.length_ofFn, List.length_ofFn]
    · intro i before after
      have earlier : i < client.messageCount := by
        rw [List.length_take] at before
        omega
      have elsewhere : (⟨i, earlier.trans room⟩ : Fin maxMsgs) ≠ ⟨client.messageCount, room⟩ := by
        rw [ne_eq, Fin.mk.injEq]
        omega
      have same : (client.log room line).messages ⟨i, earlier.trans room⟩ =
          client.messages ⟨i, earlier.trans room⟩ := Function.update_of_ne elsewhere ..
      simpa only [ClientState.lines, List.getElem_take, List.getElem_ofFn] using same
  rw [ClientState.lines]
  refine (List.take_succ_eq_append_getElem inside).trans ?_
  rw [kept, List.getElem_ofFn, stored]

theorem length_log_lt_iff (client : ClientState) :
    client.view.log.length < maxMsgs ↔ client.messageCount < maxMsgs := by
  rw [ClientState.view, ClientState.lines, List.length_take, List.length_ofFn]
  omega

/-- A section changes the view of the client as its change says. -/
theorem Section.view_run (part : Section) (client : ClientState) :
    ((part.run client).toOption).map ClientState.view = part.change.apply client.view := by
  cases part with
  | say command =>
      rw [Section.run, Section.change, Change.apply]
      cases joins : join command with
      | error fault =>
          rw [sayExec, joins]
          rfl
      | ok line =>
          rw [LogChange.apply]
          by_cases room : client.messageCount < maxMsgs
          · rw [sayExec_eq_ok_iff.mpr ⟨line, joins, room, rfl⟩,
              if_pos ((length_log_lt_iff client).mpr room)]
            exact congrArg (fun log => some (ClientView.mk _ _ _ log)) (lines_log client room line)
          · rw [if_neg fun shorter => room ((length_log_lt_iff client).mp shorter), sayExec, joins]
            simp only [bind, Except.bind, dif_neg room]
            rfl
  | error command =>
      rw [Section.run, Section.change, Change.apply]
      cases join command with
      | error fault => rfl
      | ok text => rfl
  | mute command =>
      have muted : {username | (client.muteTable.insert (command.arg 0)).contains username = true} =
          insert (command.arg 0) {username | client.muteTable.contains username = true} :=
        Set.ext fun username => ChainedSet.contains_insert
      exact congrArg (fun muted => some (ClientView.mk client.name client.connected muted _)) muted
  | unmute command =>
      have kept :
          {username | (client.muteTable.removeKey (command.arg 0)).contains username = true} =
          {username | client.muteTable.contains username = true} \ {command.arg 0} :=
        Set.ext fun username => ChainedSet.contains_erase.trans and_comm
      exact congrArg (fun muted => some (ClientView.mk client.name client.connected muted _)) kept
  | rename | connect | connectRedraw | disconnect => rfl
  | disconnectClear =>
      rfl

/-! ## The handlers of the responses -/

/-- The order of two sections can be seen in the client. -/
def Section.Conflicts (first second : Section) : Prop := first.change.Conflicts second.change

theorem Section.swaps {first second : Section} (agree : ¬ first.Conflicts second) :
    Swaps (fun part : Section => part.change.apply) first second :=
  fun _ _ => Change.swaps agree

/-- `cli_queue_manager` starts a handler for every response it pops; the sections of the
handlers interleave. -/
def responseSystem (client : ClientState) :
    TransitionSystem (Pool Section ClientState) (Label CommandMemory) :=
  Commutation.system sections (fun part client => (part.run client).toOption) client

/-- Responses handled one at a time. -/
def executeAll (client : ClientState) (commands : List CommandMemory) :
    Except ClientFault ClientState :=
  commands.foldlM (fun client command => executeServerCommand command client) client

theorem executeAll_eq (client : ClientState) (commands : List CommandMemory) :
    executeAll client commands = runSections client (commands.flatMap sections) := by
  induction commands generalizing client with
  | nil => rfl
  | cons command commands ih =>
      rw [executeAll, List.foldlM_cons, executeServerCommand_eq, List.flatMap_cons, runSections,
        runSections, List.foldlM_append]
      exact congrArg _ (funext fun client => ih client)

/-- Sections that succeed on the view succeed. -/
theorem exists_runSections {client : ClientState} {parts : List Section} {view : ClientView}
    (done : applyAll (fun part => part.change.apply) parts client.view = some view) :
    ∃ after, runSections client parts = .ok after ∧ after.view = view := by
  induction parts generalizing client with
  | nil => exact ⟨client, rfl, Option.some.inj done⟩
  | cons part parts ih =>
      rw [applyAll_cons] at done
      obtain ⟨next, changed, done⟩ := Option.bind_eq_some_iff.mp done
      rw [← part.view_run] at changed
      cases ran : part.run client with
      | error fault =>
          rw [ran] at changed
          cases changed
      | ok middle =>
          rw [ran] at changed
          have shown : middle.view = next := Option.some.inj changed
          subst shown
          obtain ⟨after, rest, same⟩ := ih done
          refine ⟨after, ?_, same⟩
          rw [runSections, List.foldlM_cons, ran]
          exact rest

/-- If no section of a handler is executed while the handler of an earlier response still has
a section that it conflicts with, then once all handlers have finished, what the client keeps
has changed as by the sections of one response after the other. -/
theorem sections_in_order {client : ClientState}
    {trace : List (Pool Section ClientState × Label CommandMemory)}
    {pool : Pool Section ClientState} (execution : (responseSystem client).Execution trace pool)
    (orderly : ∀ visit ∈ trace,
      visit.1.Orderly (fun part earlier => ¬ part.Conflicts earlier) visit.2)
    (finished : ∀ handler ∈ pool.remaining, handler = []) :
    applyAll (fun part => part.change.apply) ((started trace).flatMap sections) client.view =
      some pool.state.view := by
  refine orderly_result (fun part client next ran => ?_)
    (fun _ _ => Section.swaps) execution orderly finished
  rw [← part.view_run, ran, Option.map_some]

/-! ## Responses to try -/

/-- A response with one argument. -/
def sampleResponse (kind : CommandKind) (argument : String) : CommandMemory :=
  ⟨kind.code, .strncpy _ (ascii argument)⟩

/-- A client that has muted nobody. -/
def sampleClient : ClientState := ⟨ascii "ann", true, .empty, fun _ => [], 0⟩

/-- A muted name is muted. -/
theorem mem_muted_muteExec (command : CommandMemory) (client : ClientState) :
    command.arg 0 ∈ (muteExec command client).view.muted := by
  have present : (client.muteTable.insert (command.arg 0)).contains (command.arg 0) = true :=
    ChainedSet.contains_insert.mpr (.inl rfl)
  exact present

theorem notMem_muted_unmuteExec (command : CommandMemory) (client : ClientState) :
    command.arg 0 ∉ (unmuteExec command client).view.muted := by
  intro present
  have kept : (client.muteTable.removeKey (command.arg 0)).contains (command.arg 0) = true :=
    present
  exact (ChainedSet.contains_erase.mp kept).1 rfl

end MultithreadedChat
