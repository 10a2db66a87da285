import MultithreadedChat.Client.JoinBuffer

/-! # Handlers that overtake each other

The handlers of the client with the buffer of `join` that they share
(`MultithreadedChat.bufferSystem`). As long as they access it apart, and no section ends ahead
of one of an earlier handler that it conflicts with, the client keeps what handling the
responses one at a time leaves (`MultithreadedChat.responses_in_order`). An unmute that
overtakes the mute before it leaves the name muted
(`MultithreadedChat.unmute_overtakes_mute`).
-/

namespace MultithreadedChat

open Commutation CString

/-- The response that a handler is started for. -/
def BufferLabel.response : BufferLabel → Option CommandMemory
  | .start command => some command
  | .enter _ | .access _ | .leave _ | .whole _ => none

/-- The responses that have been popped in a run, in order. -/
def responses (trace : List (BufferPool × BufferLabel)) : List CommandMemory :=
  trace.filterMap fun visit => visit.2.response

/-- The handlers access the buffer apart, and no section ends ahead of one of an earlier handler
that it conflicts with. -/
def BufferPool.Orderly (pool : BufferPool) (label : BufferLabel) : Prop :=
  pool.Apart label ∧ ∀ event ∈ label.seen,
    pool.atomic.Orderly (fun part earlier => ¬ part.Conflicts earlier) event

/-- What is seen of a run are the responses that have been popped. -/
theorem started_eq_responses {trace : List (BufferPool × BufferLabel)}
    {trace' : List (Pool Section ClientState × Label CommandMemory)}
    (labels : trace'.map Prod.snd = trace.filterMap fun visit => visit.2.seen) :
    started trace' = responses trace := by
  rw [started_eq_requests, labels, List.filterMap_filterMap, responses]
  refine List.filterMap_congr fun visit _ => ?_
  obtain ⟨pool, label⟩ := visit
  cases label <;> rfl

/-- What the client keeps has changed as by the sections of one response after the other. -/
theorem applyAll_of_orderly {client : ClientState} {trace : List (BufferPool × BufferLabel)}
    {pool : BufferPool} (execution : (bufferSystem client).Execution trace pool)
    (orderly : ∀ visit ∈ trace, visit.1.Orderly visit.2)
    (finished : ∀ handler ∈ pool.handlers, handler.left = []) :
    applyAll (fun part => part.change.apply) ((responses trace).flatMap sections) client.view =
      some pool.client.view := by
  obtain ⟨trace', _, execution', ⟨-, rfl⟩, labels, visited⟩ := (bufferSimulation client).visits
    (execution.restrict fun visit member => (orderly visit member).1)
  rw [← started_eq_responses labels]
  refine sections_in_order execution' ?_ ?_
  · intro visit' member
    obtain ⟨visit, earlier, ⟨-, same⟩, seen⟩ := visited visit' member
    rw [same]
    exact (orderly visit earlier).2 _ seen
  · intro left member
    obtain ⟨handler, among, rfl⟩ := List.mem_map.mp member
    exact finished handler among

/-- **Responses in order.** In every interleaving of the handlers of a client in which no
handler accesses the buffer of `join` while another one depends on it, unless both hold
`messages_mutex`, and no section ends while the handler of an earlier response still has a
section that it conflicts with, once all handlers have finished, the name, the connection
flag, the muted names and the message log are those of the responses handled one at a time in
the order they were popped. -/
theorem responses_in_order {client : ClientState} {trace : List (BufferPool × BufferLabel)}
    {pool : BufferPool} (execution : (bufferSystem client).Execution trace pool)
    (orderly : ∀ visit ∈ trace, visit.1.Orderly visit.2)
    (finished : ∀ handler ∈ pool.handlers, handler.left = []) :
    ∃ after, executeAll client (responses trace) = .ok after ∧
      after.view = pool.client.view := by
  rw [executeAll_eq]
  exact exists_runSections (applyAll_of_orderly execution orderly finished)

/-! ## Runs -/

/-- A handler accesses the buffer apart if no other one depends on it. -/
theorem apart_of_alone {pool : BufferPool} {index : ℕ}
    (alone : ∀ other ∈ pool.handlers.eraseIdx index, other.midway = false) :
    pool.Apart (.access index) := by
  intro handler _ place other elsewhere there late
  rw [alone other (List.mem_eraseIdx_iff_getElem?.mpr ⟨place, elsewhere, there⟩)] at late
  cases late

theorem orderly_start {pool : BufferPool} (command : CommandMemory) :
    pool.Orderly (.start command) := by
  refine ⟨trivial, ?_⟩
  rintro event ⟨⟩
  trivial

theorem orderly_enter {pool : BufferPool} (index : ℕ) : pool.Orderly (.enter index) :=
  ⟨trivial, fun _ unseen => by cases unseen⟩

theorem orderly_access {pool : BufferPool} {index : ℕ}
    (alone : ∀ other ∈ pool.handlers.eraseIdx index, other.midway = false) :
    pool.Orderly (.access index) :=
  ⟨apart_of_alone alone, fun _ unseen => by cases unseen⟩

/-- A section of the first handler overtakes nothing. -/
theorem orderly_of_first {pool : BufferPool} {label : BufferLabel} (apart : pool.Apart label)
    (first : label.seen = some (.execute 0)) : pool.Orderly label := by
  refine ⟨apart, fun event seen => ?_⟩
  obtain rfl := Option.some.inj (first.symm.trans seen)
  intro part rest here earlier ahead
  cases ahead

/-- A response to say something is popped, then a rename, whose handler is done before the one
of the first begins. -/
theorem responses_in_order_rename :
    ∃ trace pool after, (bufferSystem sampleClient).Execution trace pool ∧
      responses trace = [sampleResponse .say "hi", sampleResponse .rename "eve"] ∧
      executeAll sampleClient (responses trace) = .ok after ∧ after.view = pool.client.view ∧
      pool.client.lines = [ascii "hi"] := by
  have start : (bufferSystem sampleClient).Execution [] ⟨sampleClient, [], []⟩ := .start ⟨rfl, rfl⟩
  have popped := (start.step (.start (sampleResponse .say "hi"))).step
    (.start (sampleResponse .rename "eve"))
  have renamed := popped.step (.whole 1 rfl rfl (fun _ => by
    simp [BufferPool.Free, Handler.locks]) rfl)
  have entered := renamed.step (.enter 0 rfl rfl fun _ => by
    simp [BufferPool.Free, Handler.locks])
  have joined := (((entered.step (.access 0 rfl rfl)).step (.access 0 rfl rfl)).step
    (.access 0 rfl rfl)).step (.access 0 rfl rfl)
  have said := joined.step (.leave 0 rfl rfl)
  have apart : ¬ (Section.rename (sampleResponse .rename "eve")).Conflicts
      (.say (sampleResponse .say "hi")) := by
    simp [Section.Conflicts, Change.Conflicts, LogChange.Conflicts, Section.change]
  obtain ⟨after, handled, same⟩ := responses_in_order said (by
    simp only [List.nil_append, List.cons_append, List.mem_cons, List.not_mem_nil, or_false]
    rintro visit (rfl | rfl | rfl | rfl | rfl | rfl | rfl | rfl | rfl)
    · exact orderly_start _
    · exact orderly_start _
    · refine ⟨trivial, ?_⟩
      rintro event ⟨⟩ part rest here earlier ahead other listed
      obtain rfl := List.mem_singleton.mp ahead
      obtain rfl := List.mem_singleton.mp listed
      cases here
      exact apart
    · exact orderly_enter 0
    · exact orderly_access fun other among => List.mem_singleton.mp among ▸ rfl
    · exact orderly_access fun other among => List.mem_singleton.mp among ▸ rfl
    · exact orderly_access fun other among => List.mem_singleton.mp among ▸ rfl
    · exact orderly_access fun other among => List.mem_singleton.mp among ▸ rfl
    · exact orderly_of_first trivial rfl) (by simp)
  exact ⟨_, _, after, said, rfl, handled, same, rfl⟩

/-- An unmute overtakes the mute before it, and the name stays muted. -/
theorem unmute_overtakes_mute :
    ∃ trace pool after, (bufferSystem sampleClient).Execution trace pool ∧
      (∀ handler ∈ pool.handlers, handler.left = []) ∧
      responses trace = [sampleResponse .mute "bob", sampleResponse .unmute "bob"] ∧
      executeAll sampleClient (responses trace) = .ok after ∧ after.view ≠ pool.client.view := by
  have start : (bufferSystem sampleClient).Execution [] ⟨sampleClient, [], []⟩ := .start ⟨rfl, rfl⟩
  have popped := (start.step (.start (sampleResponse .mute "bob"))).step
    (.start (sampleResponse .unmute "bob"))
  have overtaken := popped.step (.whole 1 rfl rfl (fun _ => by
    simp [BufferPool.Free, Handler.locks]) rfl)
  have muted := overtaken.step (.whole 0 rfl rfl (fun _ => by
    simp [BufferPool.Free, Handler.locks]) rfl)
  refine ⟨_, _, _, muted, by simp, rfl, rfl, fun same => ?_⟩
  have present := mem_muted_muteExec (sampleResponse .mute "bob")
    (unmuteExec (sampleResponse .unmute "bob") sampleClient)
  have absent := notMem_muted_unmuteExec (sampleResponse .unmute "bob")
    (muteExec (sampleResponse .mute "bob") sampleClient)
  exact absent ((Set.ext_iff.mp (congrArg ClientView.muted same) _).mpr present)

end MultithreadedChat
