import MultithreadedChat.Foundation.TransitionSystem
import MultithreadedChat.Server.Handlers

/-! # The history under concurrent says

The lines of `say` that record a message, with the test of `*chat_historyc`, its reading
for the slot, the store and the two halves of the increment as steps of their own. The
workers hold no lock there. The history stays intact as long as no worker makes its test
while another one is between its test and the end of its increment
(`MultithreadedChat.history_intact`). Workers that overlap can store into one slot
(`MultithreadedChat.history_overwritten`) or behind the last one
(`MultithreadedChat.history_overrun`).
-/

namespace MultithreadedChat

/-- `chat_history` and `*chat_historyc`. -/
structure ChatHistory where
  chatHistory : ℕ → Option (List UInt8)
  chatHistoryc : ℕ

/-- Where a worker is: at the test, the reading of the index, the store, the read or the
write of the increment, or behind it. The index may be read before `strdup` or behind it. -/
inductive RecordLoc
  | test (fullMessage : List UInt8)
  | index (fullMessage : List UInt8)
  | store (slot : ℕ) (fullMessage : List UInt8)
  | read
  | write (value : ℕ)
  | done
  deriving DecidableEq

namespace RecordLoc

/-- A step of a worker. -/
def step (history : ChatHistory) : RecordLoc → ChatHistory × RecordLoc
  | .test fullMessage =>
    (history, if history.chatHistoryc < maxMsgs then .index fullMessage else .done)
  | .index fullMessage => (history, .store history.chatHistoryc fullMessage)
  | .store slot fullMessage =>
    ({ history with
        chatHistory := Function.update history.chatHistory slot (some fullMessage) }, .read)
  | .read => (history, .write history.chatHistoryc)
  | .write value => ({ history with chatHistoryc := value + 1 }, .done)
  | .done => (history, .done)

/-- The slot a step stores into, with the message. -/
def stores : RecordLoc → List (ℕ × List UInt8)
  | .store slot fullMessage => [(slot, fullMessage)]
  | _ => []

/-- Whether a worker is at its test. -/
def tests : RecordLoc → Bool
  | .test _ => true
  | _ => false

/-- Whether a worker is between its test and the end of its increment. -/
def recording : RecordLoc → Bool
  | .index _ | .store .. | .read | .write _ => true
  | .test _ | .done => false

/-- Whether a worker has stored and not counted its message yet. -/
def uncounted : RecordLoc → Bool
  | .read | .write _ => true
  | .test _ | .index _ | .store .. | .done => false

/-- What a worker has read off the counter. -/
def readings : RecordLoc → List ℕ
  | .store slot _ => [slot]
  | .write value => [value]
  | .test _ | .index _ | .read | .done => []

/-- So many steps of a worker that is not interrupted. -/
def run : ℕ → ChatHistory → RecordLoc → ChatHistory × RecordLoc
  | 0, history, loc => (history, loc)
  | steps + 1, history, loc => run steps (loc.step history).1 (loc.step history).2

end RecordLoc

/-- A worker that is not interrupted records the message as `Server.record` does. -/
theorem record_eq_run (server : Server) (fullMessage : List UInt8) :
    RecordLoc.run 5 ⟨server.chatHistory, server.chatHistoryc⟩ (.test fullMessage) =
      (⟨(server.record fullMessage).chatHistory, (server.record fullMessage).chatHistoryc⟩,
        .done) := by
  rw [RecordLoc.run, RecordLoc.step, Server.record]
  dsimp only
  by_cases room : server.chatHistoryc < maxMsgs
  · rw [if_pos room, if_pos room]
    rfl
  · rw [if_neg room, if_neg room]
    rfl

/-- The history, the workers of all say commands so far, and the stores they have made. -/
structure RecordState where
  history : ChatHistory
  workers : List RecordLoc
  stored : List (ℕ × List UInt8)

/-- A say command is served, or a worker takes a step. -/
inductive RecordLabel
  | serve (fullMessage : List UInt8)
  | step (worker : ℕ)

/-- The workers take their steps in any order. -/
inductive RecordStep : RecordState → RecordLabel → RecordState → Prop
  | serve {state : RecordState} (fullMessage : List UInt8) :
      RecordStep state (.serve fullMessage)
        { state with workers := state.workers ++ [.test fullMessage] }
  | step {state : RecordState} {worker : ℕ} {loc : RecordLoc} :
      state.workers[worker]? = some loc → loc ≠ .done →
        RecordStep state (.step worker)
          ⟨(loc.step state.history).1, state.workers.set worker (loc.step state.history).2,
            state.stored ++ loc.stores⟩

/-- All runs from the empty history. -/
def recordSystem : TransitionSystem RecordState RecordLabel where
  initial state := state = ⟨⟨fun _ => none, 0⟩, [], []⟩
  step := RecordStep

/-- The workers of all commands are done. -/
def RecordState.Ended (state : RecordState) : Prop := ∀ loc ∈ state.workers, loc = .done

/-- The counter and the slots of the stores are within the array, and once all workers are
done no slot has been stored into twice and every slot below the counter is filled. -/
structure RecordState.Intact (state : RecordState) : Prop where
  counter : state.history.chatHistoryc ≤ maxMsgs
  slots : ∀ entry ∈ state.stored, entry.1 < maxMsgs
  kept : state.Ended → (state.stored.map Prod.fst).Nodup
  filled : state.Ended → ∀ slot < state.history.chatHistoryc,
    (state.history.chatHistory slot).isSome = true

/-- If the step is a test, no other worker is between its test and the end of its increment. -/
def RecordState.Alone (state : RecordState) : RecordLabel → Prop
  | .serve _ => True
  | .step worker => state.workers[worker]?.any RecordLoc.tests = true →
      ∀ loc ∈ state.workers, loc.recording = false

/-! ## One worker at a time -/

/-- At most one worker is recording, with room and what the counter says; the stores have
gone to one slot after the other. -/
structure RecordState.Serial (state : RecordState) : Prop where
  one : state.workers.countP RecordLoc.recording ≤ 1
  room : ∀ loc ∈ state.workers, loc.recording = true → state.history.chatHistoryc < maxMsgs
  read : ∀ loc ∈ state.workers, ∀ value ∈ loc.readings, value = state.history.chatHistoryc
  slots : state.stored.map Prod.fst =
    List.range (state.history.chatHistoryc + state.workers.countP RecordLoc.uncounted)
  counter : state.history.chatHistoryc ≤ maxMsgs
  filled : ∀ entry ∈ state.stored, (state.history.chatHistory entry.1).isSome = true

theorem RecordLoc.recording_of_uncounted {loc : RecordLoc} (uncounted : loc.uncounted = true) :
    loc.recording = true := by
  cases loc <;> first | rfl | cases uncounted

theorem RecordLoc.recording_of_readings {loc : RecordLoc} {value : ℕ}
    (read : value ∈ loc.readings) : loc.recording = true := by
  cases loc <;> first | rfl | cases read

namespace RecordState

variable {state before after : RecordState} {label : RecordLabel}

/-- What has not been counted is being recorded, and there is room for it. -/
theorem Serial.uncounted_le (serial : state.Serial) :
    state.history.chatHistoryc + state.workers.countP RecordLoc.uncounted ≤ maxMsgs := by
  have fewer : state.workers.countP RecordLoc.uncounted ≤
      state.workers.countP RecordLoc.recording :=
    List.countP_mono_left fun _ _ => RecordLoc.recording_of_uncounted
  have one := serial.one
  by_cases nobody : state.workers.countP RecordLoc.recording = 0
  · have counter := serial.counter
    omega
  · obtain ⟨loc, member, recording⟩ := List.countP_pos_iff.mp (Nat.pos_of_ne_zero nobody)
    have room := serial.room loc member recording
    omega

/-- A serial history is intact. -/
theorem Serial.intact (serial : state.Serial) : state.Intact where
  counter := serial.counter
  slots := by
    intro entry member
    have listed : entry.1 ∈ state.stored.map Prod.fst := List.mem_map_of_mem member
    rw [serial.slots, List.mem_range] at listed
    exact listed.trans_le serial.uncounted_le
  kept _ := by
    rw [serial.slots]
    exact List.nodup_range
  filled ended slot below := by
    have listed : slot ∈ state.stored.map Prod.fst := by
      rw [serial.slots, List.mem_range]
      exact below.trans_le (Nat.le_add_right ..)
    obtain ⟨entry, member, rfl⟩ := List.mem_map.mp listed
    exact serial.filled entry member

/-- The empty history. -/
theorem serial_start : Serial ⟨⟨fun _ => none, 0⟩, [], []⟩ := by
  constructor
  · exact Nat.zero_le _
  · exact fun _ member => absurd member List.not_mem_nil
  · exact fun _ member => absurd member List.not_mem_nil
  · rfl
  · exact Nat.zero_le _
  · exact fun _ member => absurd member List.not_mem_nil

/-- A worker is counted at its own location. -/
theorem countP_set (p : RecordLoc → Bool) {workers : List RecordLoc} {worker : ℕ}
    {loc : RecordLoc} (here : workers[worker]? = some loc) (next : RecordLoc) :
    (workers.set worker next).countP p + (if p loc then 1 else 0) =
      workers.countP p + (if p next then 1 else 0) := by
  obtain ⟨inside, rfl⟩ := List.getElem?_eq_some_iff.mp here
  have listed : p workers[worker] = true → 0 < workers.countP p := fun counted =>
    List.countP_pos_iff.mpr ⟨_, List.getElem_mem inside, counted⟩
  rw [List.countP_set inside]
  by_cases counted : p workers[worker] = true
  · have positive := listed counted
    rw [if_pos counted]
    omega
  · rw [if_neg counted]
    omega

/-- A step that leaves the counter and the stores. -/
theorem Serial.goes (serial : before.Serial) {worker : ℕ} {loc next : RecordLoc}
    (here : before.workers[worker]? = some loc)
    (one : (before.workers.set worker next).countP RecordLoc.recording ≤ 1)
    (room : next.recording = true → before.history.chatHistoryc < maxMsgs)
    (read : ∀ value ∈ next.readings, value = before.history.chatHistoryc)
    (same : next.uncounted = loc.uncounted) :
    Serial ⟨before.history, before.workers.set worker next, before.stored ++ []⟩ := by
  have count := countP_set RecordLoc.uncounted here next
  rw [same, Nat.add_right_cancel_iff] at count
  constructor
  · exact one
  · intro other member
    rcases List.mem_or_eq_of_mem_set member with old | rfl
    · exact serial.room other old
    · exact room
  · intro other member
    rcases List.mem_or_eq_of_mem_set member with old | rfl
    · exact serial.read other old
    · exact read
  · rw [List.append_nil, count]
    exact serial.slots
  · exact serial.counter
  · rw [List.append_nil]
    exact serial.filled

/-- The step of a worker that is recording and goes on doing so. -/
theorem Serial.goes_on (serial : before.Serial) {worker : ℕ} {loc next : RecordLoc}
    (here : before.workers[worker]? = some loc) (was : loc.recording = true)
    (stays : next.recording = true)
    (read : ∀ value ∈ next.readings, value = before.history.chatHistoryc)
    (same : next.uncounted = loc.uncounted) :
    Serial ⟨before.history, before.workers.set worker next, before.stored ++ []⟩ := by
  have count := countP_set RecordLoc.recording here next
  rw [was, stays, Nat.add_right_cancel_iff] at count
  refine serial.goes here (count ▸ serial.one) (fun _ => ?_) read same
  exact serial.room loc (List.mem_of_getElem? here) was

/-- While one worker is recording, what is uncounted is its own. -/
theorem Serial.uncounted_eq (serial : before.Serial) {worker : ℕ} {loc : RecordLoc}
    (here : before.workers[worker]? = some loc) (recording : loc.recording = true) :
    before.workers.countP RecordLoc.uncounted = if loc.uncounted then 1 else 0 := by
  have one := serial.one
  have removed : (before.workers.set worker .done).countP RecordLoc.recording + 1 =
      before.workers.countP RecordLoc.recording := by
    have count := countP_set RecordLoc.recording here .done
    rw [if_pos recording] at count
    exact count
  have counted : (before.workers.set worker .done).countP RecordLoc.uncounted +
      (if loc.uncounted then 1 else 0) = before.workers.countP RecordLoc.uncounted :=
    countP_set RecordLoc.uncounted here .done
  have fewer : (before.workers.set worker .done).countP RecordLoc.uncounted ≤
      (before.workers.set worker .done).countP RecordLoc.recording :=
    List.countP_mono_left fun _ _ => RecordLoc.recording_of_uncounted
  omega

/-- A store into the slot that the counter says. -/
theorem Serial.store (serial : before.Serial) {worker slot : ℕ} {fullMessage : List UInt8}
    (here : before.workers[worker]? = some (.store slot fullMessage)) :
    Serial ⟨((RecordLoc.store slot fullMessage).step before.history).1,
      before.workers.set worker .read, before.stored ++ [(slot, fullMessage)]⟩ := by
  have member := List.mem_of_getElem? here
  obtain rfl := serial.read _ member slot (List.mem_singleton_self _)
  have nobody := serial.uncounted_eq here rfl
  have counted := countP_set RecordLoc.uncounted here .read
  have recording := countP_set RecordLoc.recording here .read
  simp only [RecordLoc.uncounted, RecordLoc.recording, Bool.false_eq_true, ↓reduceIte,
    Nat.add_right_cancel_iff] at nobody counted recording
  have slots := serial.slots
  rw [nobody, Nat.add_zero] at slots
  constructor
  · exact recording ▸ serial.one
  · intro other found
    rcases List.mem_or_eq_of_mem_set found with old | rfl
    · exact serial.room other old
    · exact fun _ => serial.room _ member rfl
  · intro other found
    rcases List.mem_or_eq_of_mem_set found with old | rfl
    · exact serial.read other old
    · exact fun value nothing => absurd nothing List.not_mem_nil
  · dsimp only
    rw [List.map_append, slots, counted, nobody, RecordLoc.step, List.range_succ]
    rfl
  · exact serial.counter
  · intro entry found
    change (Function.update before.history.chatHistory before.history.chatHistoryc
      (some fullMessage) entry.1).isSome = true
    by_cases same : entry.1 = before.history.chatHistoryc
    · rw [same, Function.update_self]
      rfl
    · rw [Function.update_of_ne same]
      rcases List.mem_append.mp found with old | new
      · exact serial.filled entry old
      · rw [List.mem_singleton.mp new] at same
        exact absurd rfl same

/-- The end of an increment. -/
theorem Serial.write (serial : before.Serial) {worker value : ℕ}
    (here : before.workers[worker]? = some (.write value)) :
    Serial ⟨{ before.history with chatHistoryc := value + 1 },
      before.workers.set worker .done, before.stored ++ []⟩ := by
  have member := List.mem_of_getElem? here
  obtain rfl := serial.read _ member value (List.mem_singleton_self _)
  have single := serial.uncounted_eq here rfl
  have one := serial.one
  have counted := countP_set RecordLoc.uncounted here .done
  have recording := countP_set RecordLoc.recording here .done
  simp only [RecordLoc.uncounted, RecordLoc.recording, Bool.false_eq_true, ↓reduceIte]
    at single counted recording
  have slots := serial.slots
  have nobody : (before.workers.set worker .done).countP RecordLoc.recording = 0 := by omega
  have idle := List.countP_eq_zero.mp nobody
  constructor
  · exact nobody.le.trans (Nat.zero_le 1)
  · intro other found busy
    exact absurd busy (idle other found)
  · intro other found value read
    exact absurd (RecordLoc.recording_of_readings read) (idle other found)
  · rw [List.append_nil, slots]
    congr 1
    dsimp only
    omega
  · exact serial.room _ member rfl
  · rw [List.append_nil]
    exact serial.filled

/-- Every step keeps a serial history, if tests are made alone. -/
theorem Serial.step (serial : before.Serial) (alone : before.Alone label)
    (moved : RecordStep before label after) : after.Serial := by
  cases moved with
  | serve fullMessage =>
      have count : ∀ p : RecordLoc → Bool, p (.test fullMessage) = false →
          (before.workers ++ [RecordLoc.test fullMessage]).countP p = before.workers.countP p := by
        intro p absent
        simp [List.countP_append, absent]
      constructor
      · rw [count RecordLoc.recording rfl]
        exact serial.one
      · intro other member
        rcases List.mem_append.mp member with old | new
        · exact serial.room other old
        · rw [List.mem_singleton.mp new]
          exact fun never => by cases never
      · intro other member
        rcases List.mem_append.mp member with old | new
        · exact serial.read other old
        · rw [List.mem_singleton.mp new]
          exact fun value nothing => absurd nothing List.not_mem_nil
      · rw [count RecordLoc.uncounted rfl]
        exact serial.slots
      · exact serial.counter
      · exact serial.filled
  | @step worker loc here running =>
      cases loc with
      | test fullMessage =>
          have idle := alone (by rw [here]; rfl)
          have nobody : before.workers.countP RecordLoc.recording = 0 :=
            List.countP_eq_zero.mpr fun loc member => by simp [idle loc member]
          dsimp only [RecordLoc.step, RecordLoc.stores]
          by_cases room : before.history.chatHistoryc < maxMsgs
          · rw [if_pos room]
            have count := countP_set RecordLoc.recording here (.index fullMessage)
            rw [nobody] at count
            exact serial.goes here count.le (fun _ => room)
              (fun value nothing => absurd nothing List.not_mem_nil) rfl
          · rw [if_neg room]
            have count := countP_set RecordLoc.recording here .done
            rw [nobody] at count
            exact serial.goes here (count.le.trans (Nat.zero_le 1)) (fun never => by cases never)
              (fun value nothing => absurd nothing List.not_mem_nil) rfl
      | index fullMessage =>
          exact serial.goes_on here rfl rfl (fun value => List.mem_singleton.mp) rfl
      | store slot fullMessage => exact serial.store here
      | read => exact serial.goes_on here rfl rfl (fun value => List.mem_singleton.mp) rfl
      | write value => exact serial.write here
      | done => exact absurd rfl running

end RecordState

/-- A run in which tests are made alone is serial. -/
theorem serial_of_alone {trace : List (RecordState × RecordLabel)} {state : RecordState}
    (execution : recordSystem.Execution trace state)
    (alone : ∀ visit ∈ trace, visit.1.Alone visit.2) : state.Serial := by
  refine execution.guarded_invariant (G := RecordState.Alone) ?_
    (fun _ _ _ serial alone moved => serial.step alone moved) alone
  rintro state rfl
  exact RecordState.serial_start

/-- **The history under concurrent says.** If no worker of a run makes its test while another
one is between its test and the end of its increment, the history is intact in every state
of the run. -/
theorem history_intact {trace : List (RecordState × RecordLabel)} {state : RecordState}
    (execution : recordSystem.Execution trace state)
    (alone : ∀ visit ∈ trace, visit.1.Alone visit.2) :
    (∀ visit ∈ trace, visit.1.Intact) ∧ state.Intact := by
  refine ⟨fun visit member => ?_, (serial_of_alone execution alone).intact⟩
  obtain ⟨earlier, initialPart, reached⟩ := execution.visited member
  exact (serial_of_alone reached fun other old => alone other (initialPart.subset old)).intact

/-! ## Workers one after the other, and workers that overlap -/

/-- A worker takes a step. -/
theorem record_step {trace : List (RecordState × RecordLabel)} {state : RecordState}
    (execution : recordSystem.Execution trace state) (worker : ℕ) {loc : RecordLoc}
    (here : state.workers[worker]? = some loc) (running : loc ≠ .done) :
    recordSystem.Execution (trace ++ [(state, .step worker)])
      ⟨(loc.step state.history).1, state.workers.set worker (loc.step state.history).2,
        state.stored ++ loc.stores⟩ :=
  execution.step (.step here running)

/-- Two says, the second of which is recorded when the first has been. -/
theorem history_intact_twice :
    ∃ trace state, recordSystem.Execution trace state ∧ state.history.chatHistoryc = 2 ∧
      state.Intact := by
  have start : recordSystem.Execution [] _ := .start rfl
  have served := (start.step (.serve (CString.ascii "ann: hello"))).step
    (.serve (CString.ascii "bob: hello"))
  have tested := record_step (record_step served 0 rfl (by decide)) 0 rfl (by decide)
  have stored := record_step (record_step tested 0 rfl (by decide)) 0 rfl (by decide)
  have first := record_step stored 0 rfl (by decide)
  have tested' := record_step (record_step first 1 rfl (by decide)) 1 rfl (by decide)
  have stored' := record_step (record_step tested' 1 rfl (by decide)) 1 rfl (by decide)
  have second := record_step stored' 1 rfl (by decide)
  refine ⟨_, _, second, rfl, (history_intact second ?_).2⟩
  simp only [List.nil_append, List.cons_append, List.mem_cons, List.not_mem_nil, or_false]
  rintro visit (rfl | rfl | rfl | rfl | rfl | rfl | rfl | rfl | rfl | rfl | rfl | rfl)
  all_goals first | trivial | exact fun _ => by decide | exact fun testing => by cases testing

/-- Two workers store before either of them has counted its message. -/
theorem history_overwritten :
    ∃ state, recordSystem.Reachable state ∧ state.Ended ∧ ¬ state.Intact := by
  have start : recordSystem.Execution [] _ := .start rfl
  have served := (start.step (.serve (CString.ascii "ann: hello"))).step
    (.serve (CString.ascii "bob: hello"))
  have tested := record_step (record_step served 0 rfl (by decide)) 1 rfl (by decide)
  have indexed := record_step (record_step tested 0 rfl (by decide)) 1 rfl (by decide)
  have stored := record_step (record_step indexed 0 rfl (by decide)) 1 rfl (by decide)
  have read := record_step (record_step stored 0 rfl (by decide)) 1 rfl (by decide)
  have written := record_step (record_step read 0 rfl (by decide)) 1 rfl (by decide)
  have ended : ∀ loc ∈ [RecordLoc.done, .done], loc = .done := by decide
  exact ⟨_, ⟨_, written⟩, ended, fun intact => absurd (intact.kept ended) (by decide)⟩

/-- A worker among others takes a step. -/
theorem reachable_step {history : ChatHistory} {others rest : List RecordLoc} {loc : RecordLoc}
    {stored : List (ℕ × List UInt8)}
    (reachable : recordSystem.Reachable ⟨history, others ++ loc :: rest, stored⟩)
    (running : loc ≠ .done) :
    recordSystem.Reachable ⟨(loc.step history).1, others ++ (loc.step history).2 :: rest,
      stored ++ loc.stores⟩ := by
  have here : (others ++ loc :: rest)[others.length]? = some loc := by simp
  have moved := reachable.step (RecordStep.step here running)
  have advanced : (others ++ loc :: rest).set others.length (loc.step history).2 =
      others ++ (loc.step history).2 :: rest := by simp
  rwa [advanced] at moved

/-- A worker past its test records its message, with the counter as it is. -/
theorem reachable_recorded {history : ChatHistory} {others rest : List RecordLoc}
    {fullMessage : List UInt8} {stored : List (ℕ × List UInt8)}
    (reachable : recordSystem.Reachable ⟨history, others ++ .index fullMessage :: rest, stored⟩) :
    ∃ after stored', recordSystem.Reachable ⟨after, others ++ .done :: rest, stored'⟩ ∧
      after.chatHistoryc = history.chatHistoryc + 1 := by
  have indexed := reachable_step reachable fun done => by cases done
  have stored := reachable_step indexed fun done => by cases done
  have read := reachable_step stored fun done => by cases done
  have written := reachable_step read fun done => by cases done
  exact ⟨_, _, written, rfl⟩

/-- A worker passes its test. -/
theorem reachable_tested {history : ChatHistory} {others rest : List RecordLoc}
    {fullMessage : List UInt8} {stored : List (ℕ × List UInt8)}
    (room : history.chatHistoryc < maxMsgs)
    (reachable : recordSystem.Reachable ⟨history, others ++ .test fullMessage :: rest, stored⟩) :
    recordSystem.Reachable ⟨history, others ++ .index fullMessage :: rest, stored⟩ := by
  have tested := reachable_step reachable fun done => by cases done
  have nothing : RecordLoc.stores (.test fullMessage) = [] := rfl
  rwa [RecordLoc.step, if_pos room, nothing, List.append_nil] at tested

/-- Any number of messages up to the size of the array can be recorded. -/
theorem exists_recorded {count : ℕ} (few : count ≤ maxMsgs) :
    ∃ state, recordSystem.Reachable state ∧ state.history.chatHistoryc = count := by
  induction count with
  | zero => exact ⟨_, .start rfl, rfl⟩
  | succ count ih =>
      obtain ⟨state, reachable, counted⟩ := ih (by omega)
      have served := reachable.step (.serve (CString.ascii "ann: hello"))
      obtain ⟨after, stored, recorded, counted'⟩ := reachable_recorded
        (reachable_tested (by omega) served)
      exact ⟨_, recorded, by rw [counted', counted]⟩

/-- Two workers pass the test for the last slot, and the second one stores behind it. -/
theorem history_overrun :
    ∃ state, recordSystem.Reachable state ∧ maxMsgs < state.history.chatHistoryc := by
  obtain ⟨⟨history, workers, stored⟩, reachable, counted⟩ :=
    exists_recorded (show 99 ≤ maxMsgs by decide)
  dsimp only at counted
  have room : history.chatHistoryc < maxMsgs := by
    rw [counted]
    decide
  have served := (reachable.step (.serve (CString.ascii "ann: hello"))).step
    (.serve (CString.ascii "bob: hello"))
  dsimp only at served
  have second := reachable_tested room served
  rw [List.append_assoc] at second
  obtain ⟨after, stored', recorded, counted'⟩ :=
    reachable_recorded (reachable_tested room second)
  rw [← List.singleton_append, ← List.append_assoc] at recorded
  obtain ⟨last, _, overrun, counted''⟩ := reachable_recorded recorded
  refine ⟨_, overrun, ?_⟩
  dsimp only
  rw [counted'', counted', counted]
  decide

end MultithreadedChat
