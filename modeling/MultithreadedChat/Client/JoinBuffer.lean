import MultithreadedChat.Client.ResponseOrder

/-! # The buffer of `join`

`join` builds its text in a static buffer, which the handlers share. `say_exec` joins and
copies under `messages_mutex`, but the handlers that print an error join without it. With
`join` cut at its accesses to the buffer, the sections of the handlers are still single steps
as long as no error is printed (`MultithreadedChat.says_atomic`), and more generally as long
as no handler accesses the buffer while another one depends on it
(`MultithreadedChat.joins_atomic`). An error in between is logged in place of the message
(`MultithreadedChat.error_overlaps_say`).
-/

namespace MultithreadedChat

open Commutation CString

/-! ## `join`, access by access -/

/-- Where a handler is in `join`: before the buffer is emptied, at the test of the loop, at the
look at the next argument, or behind the loop. A call of `strcat` is one access. -/
inductive JoinLoc
  | start (args : List (List UInt8))
  | word (args : List (List UInt8))
  | blank (args : List (List UInt8))
  | joined

namespace JoinLoc

/-- The next access, with what it leaves in the buffer; behind the loop there is none. -/
def step (result : List UInt8) : JoinLoc → Except ClientFault (JoinLoc × List UInt8)
  | .start args => .ok (.word args, [])
  | .word [] | .blank [] => .error .argsOverrun
  | .word (arg :: rest) =>
    if arg = [] then .ok (.joined, result)
    else (strcat joinSize result arg).map fun result => (.blank rest, result)
  | .blank (next :: rest) =>
    if next ≠ [] then
      (strcat joinSize result (ascii " ")).map fun result => (.word (next :: rest), result)
    else .ok (.word (next :: rest), result)
  | .joined => .ok (.joined, result)

/-- What the handler gets in the end if nobody else writes into the buffer. -/
def outcome (result : List UInt8) : JoinLoc → Except ClientFault (List UInt8)
  | .start args => joinLoop args []
  | .word args => joinLoop args result
  | .blank [] => .error .argsOverrun
  | .blank (next :: rest) => do
    let result ← if next ≠ [] then strcat joinSize result (ascii " ") else .ok result
    joinLoop (next :: rest) result
  | .joined => .ok result

/-- Whether what the handler gets depends on the buffer. -/
def midway : JoinLoc → Bool
  | .start _ => false
  | _ => true

/-- An access leaves the outcome. -/
theorem outcome_step {loc loc' : JoinLoc} {result result' : List UInt8}
    (moved : loc.step result = .ok (loc', result')) :
    loc'.outcome result' = loc.outcome result := by
  cases loc with
  | start args =>
      cases moved
      rfl
  | joined =>
      cases moved
      rfl
  | word args =>
      cases args with
      | nil => cases moved
      | cons arg rest =>
          by_cases ended : arg = []
          · rw [step, if_pos ended] at moved
            cases moved
            rw [outcome, outcome, joinLoop, if_pos ended]
          · rw [step, if_neg ended] at moved
            rw [outcome, joinLoop, if_neg ended]
            cases added : strcat joinSize result arg with
            | error =>
                rw [added] at moved
                cases moved
            | ok text =>
                rw [added] at moved
                cases moved
                cases rest <;> rfl
  | blank args =>
      cases args with
      | nil => cases moved
      | cons next rest =>
          rw [step] at moved
          by_cases more : next ≠ []
          · rw [if_pos more] at moved
            cases added : strcat joinSize result (ascii " ") with
            | error =>
                rw [added] at moved
                cases moved
            | ok text =>
                rw [added] at moved
                cases moved
                rw [outcome, outcome, if_pos more, added]
                rfl
          · rw [if_neg more] at moved
            cases moved
            rw [outcome, outcome, if_neg more]
            rfl

/-- Nobody else's writes matter before the buffer has been emptied. -/
theorem outcome_congr {loc : JoinLoc} (before : loc.midway = false) (result result' : List UInt8) :
    loc.outcome result = loc.outcome result' := by
  cases loc with
  | start => rfl
  | word | blank | joined => cases before

end JoinLoc

/-! ## The sections that join -/

/-- The command that a section joins. -/
def Section.joins : Section → Option CommandMemory
  | .say command | .error command => some command
  | _ => none

/-- What a section does once `join` has returned: `say_exec` copies the buffer. -/
def Section.finish (client : ClientState) (result : List UInt8) :
    Section → Except ClientFault ClientState
  | .say _ =>
    if room : client.messageCount < maxMsgs then .ok (client.log room result)
    else .error (.rowOutOfBounds client.messageCount)
  | _ => .ok client

/-- A section that joins is `join` and what comes then. -/
theorem Section.run_eq_finish {part : Section} {command : CommandMemory}
    (joining : part.joins = some command) (client : ClientState) :
    part.run client = (join command).bind fun result => part.finish client result := by
  cases part with
  | say other | error other =>
      cases joining
      rfl
  | _ => cases joining

/-! ## Handlers that share the buffer -/

/-- A handler: where it is in `join`, if it has begun a section that joins, and the sections
that are left. -/
structure Handler where
  joining : Option JoinLoc
  left : List Section

/-- `say_exec` joins under `messages_mutex`. -/
def Handler.locks : Handler → Bool
  | ⟨some _, .say _ :: _⟩ => true
  | _ => false

/-- What the handler gets depends on the buffer. -/
def Handler.midway (handler : Handler) : Bool := handler.joining.any JoinLoc.midway

/-- The client, the buffer of `join`, and the handlers in the order they were started. -/
structure BufferPool where
  client : ClientState
  result : List UInt8
  handlers : List Handler

namespace BufferPool

/-- No handler holds `messages_mutex`. -/
def Free (pool : BufferPool) : Prop := ∀ handler ∈ pool.handlers, handler.locks = false

/-- The handlers without the buffer: sections that have begun are still left. -/
def atomic (pool : BufferPool) : Pool Section ClientState :=
  ⟨pool.client, pool.handlers.map Handler.left⟩

end BufferPool

/-- A handler is started, goes into `join`, makes its next access to the buffer, does what
comes after `join`, or executes a section that does not join. -/
inductive BufferLabel
  | start (command : CommandMemory)
  | enter (index : ℕ)
  | access (index : ℕ)
  | leave (index : ℕ)
  | whole (index : ℕ)

/-- The step of the handlers as they are taken to be: a section is executed when it ends. -/
def BufferLabel.seen : BufferLabel → Option (Label CommandMemory)
  | .start command => some (.start command)
  | .leave index | .whole index => some (.execute index)
  | .enter _ | .access _ => none

/-- The steps of the handlers. A section that takes `messages_mutex` waits until no other
handler holds it. -/
inductive BufferStep : BufferPool → BufferLabel → BufferPool → Prop
  | start {pool : BufferPool} (command : CommandMemory) :
      BufferStep pool (.start command)
        { pool with handlers := pool.handlers ++ [⟨none, sections command⟩] }
  | enter {pool : BufferPool} (index : ℕ) {part : Section} {rest : List Section}
      {command : CommandMemory} : pool.handlers[index]? = some ⟨none, part :: rest⟩ →
      part.joins = some command → (part.signals = true → pool.Free) →
        BufferStep pool (.enter index) { pool with
          handlers := pool.handlers.set index
            ⟨some (.start (List.ofFn command.arg)), part :: rest⟩ }
  | access {pool : BufferPool} (index : ℕ) {loc loc' : JoinLoc} {left : List Section}
      {result : List UInt8} : pool.handlers[index]? = some ⟨some loc, left⟩ →
      loc.step pool.result = .ok (loc', result) →
        BufferStep pool (.access index)
          { pool with result, handlers := pool.handlers.set index ⟨some loc', left⟩ }
  | leave {pool : BufferPool} (index : ℕ) {part : Section} {rest : List Section}
      {client : ClientState} : pool.handlers[index]? = some ⟨some .joined, part :: rest⟩ →
      part.finish pool.client pool.result = .ok client →
        BufferStep pool (.leave index)
          { pool with client, handlers := pool.handlers.set index ⟨none, rest⟩ }
  | whole {pool : BufferPool} (index : ℕ) {part : Section} {rest : List Section}
      {client : ClientState} : pool.handlers[index]? = some ⟨none, part :: rest⟩ →
      part.joins = none → (part.signals = true → pool.Free) → part.run pool.client = .ok client →
        BufferStep pool (.whole index)
          { pool with client, handlers := pool.handlers.set index ⟨none, rest⟩ }

/-- The handlers of the responses with the buffer they share; nothing is known of what it
holds at first. -/
def bufferSystem (client : ClientState) : TransitionSystem BufferPool BufferLabel where
  initial pool := pool.client = client ∧ pool.handlers = []
  step := BufferStep

namespace BufferPool

/-- The buffer is accessed while no other handler depends on it, or both hold the mutex. -/
def Apart (pool : BufferPool) : BufferLabel → Prop
  | .access index => ∀ handler, pool.handlers[index]? = some handler → ∀ place other,
      place ≠ index → pool.handlers[place]? = some other → other.midway = true →
        handler.locks = true ∧ other.locks = true
  | _ => True

/-- At most one handler holds the mutex, and a handler in `join` gets in the end what its
section joins. -/
structure Sound (pool : BufferPool) : Prop where
  exclusive : ∀ (place place' : ℕ) (handler handler' : Handler),
    pool.handlers[place]? = some handler → pool.handlers[place']? = some handler' →
      handler.locks = true → handler'.locks = true → place = place'
  joins : ∀ (place : ℕ) (loc : JoinLoc) (left : List Section),
    pool.handlers[place]? = some ⟨some loc, left⟩ →
      ∃ (part : Section) (rest : List Section) (command : CommandMemory), left = part :: rest ∧
        part.joins = some command ∧ loc.outcome pool.result = join command

end BufferPool

/-- The handlers after one of them has changed. -/
theorem handler_set {handlers : List Handler} {index place : ℕ} {changed other : Handler}
    (there : (handlers.set index changed)[place]? = some other) :
    place = index ∧ other = changed ∨ place ≠ index ∧ handlers[place]? = some other := by
  rw [List.getElem?_set] at there
  by_cases same : index = place
  · rw [if_pos same] at there
    split at there
    · exact .inl ⟨same.symm, (Option.some.inj there).symm⟩
    · cases there
  · rw [if_neg same] at there
    exact .inr ⟨Ne.symm same, there⟩

namespace BufferPool.Sound

variable {pool : BufferPool}

/-- One handler changes; it takes the mutex only if the mutex is free. -/
theorem exclusive_set (sound : pool.Sound) {index : ℕ} {handler changed : Handler}
    (here : pool.handlers[index]? = some handler)
    (taken : changed.locks = true → handler.locks = true ∨ pool.Free)
    {place place' : ℕ} {one other : Handler}
    (there : (pool.handlers.set index changed)[place]? = some one)
    (there' : (pool.handlers.set index changed)[place']? = some other)
    (locked : one.locks = true) (locked' : other.locks = true) : place = place' := by
  have alone : ∀ {position : ℕ} {third : Handler}, pool.handlers[position]? = some third →
      third.locks = true → changed.locks = true → position = index := by
    intro position third present held took
    rcases taken took with before | free
    · exact sound.exclusive _ _ _ _ present here held before
    · exact absurd held (by rw [free third (List.mem_of_getElem? present)]; decide)
  rcases handler_set there with ⟨rfl, rfl⟩ | ⟨-, present⟩
  · rcases handler_set there' with ⟨rfl, rfl⟩ | ⟨-, present'⟩
    · rfl
    · exact (alone present' locked' locked).symm
  · rcases handler_set there' with ⟨rfl, rfl⟩ | ⟨-, present'⟩
    · exact alone present locked locked'
    · exact sound.exclusive _ _ _ _ present present' locked locked'

/-- Nobody is in `join` at first. -/
theorem start (none : pool.handlers = []) : pool.Sound := by
  constructor
  · intro place place' handler handler' there
    rw [none] at there
    cases there
  · intro place loc left there
    rw [none] at there
    cases there

/-- A section ends; its handler is not in `join` any more. -/
theorem end_section (sound : pool.Sound) {index : ℕ} {handler : Handler}
    (here : pool.handlers[index]? = some handler) (client : ClientState) (left : List Section) :
    BufferPool.Sound { pool with client, handlers := pool.handlers.set index ⟨none, left⟩ } where
  exclusive place place' one other there there' locked locked' :=
    sound.exclusive_set here (fun took => absurd took (by simp [Handler.locks])) there there'
      locked locked'
  joins place loc others there := by
    rcases handler_set there with ⟨-, changed⟩ | ⟨-, present⟩
    · cases changed
    · exact sound.joins place loc others present

/-- A handler is started; it is not in `join` yet. -/
theorem start_handler (sound : pool.Sound) (left : List Section) :
    BufferPool.Sound { pool with handlers := pool.handlers ++ [⟨none, left⟩] } := by
  have started : ∀ {place : ℕ} {handler : Handler},
      (pool.handlers ++ [⟨none, left⟩])[place]? = some handler →
        pool.handlers[place]? = some handler ∨ handler = ⟨none, left⟩ := by
    intro place handler there
    rw [List.getElem?_append] at there
    split at there
    · exact .inl there
    · exact .inr (List.mem_singleton.mp (List.mem_of_getElem? there))
  constructor
  · intro place place' one other there there' locked locked'
    rcases started there with old | rfl
    · rcases started there' with old' | rfl
      · exact sound.exclusive _ _ _ _ old old' locked locked'
      · cases locked'
    · cases locked
  · intro place loc others there
    rcases started there with old | new
    · exact sound.joins place loc others old
    · cases new

/-- A handler goes into `join`, with the mutex if it is in `say_exec`. -/
theorem enter_join (sound : pool.Sound) {index : ℕ} {part : Section} {rest : List Section}
    {command : CommandMemory} (here : pool.handlers[index]? = some ⟨none, part :: rest⟩)
    (joining : part.joins = some command) (free : part.signals = true → pool.Free) :
    BufferPool.Sound { pool with
      handlers := pool.handlers.set index
        ⟨some (.start (List.ofFn command.arg)), part :: rest⟩ } := by
  constructor
  · intro place place' one other
    refine sound.exclusive_set here fun took => .inr (free ?_)
    cases part with
    | say => rfl
    | _ => cases took
  · intro place loc left there
    rcases handler_set there with ⟨-, changed⟩ | ⟨-, present⟩
    · cases changed
      exact ⟨part, rest, command, rfl, joining, rfl⟩
    · exact sound.joins place loc left present

/-- A handler accesses the buffer while the other handlers do not depend on it. -/
theorem access_buffer (sound : pool.Sound) {index : ℕ} {loc loc' : JoinLoc} {left : List Section}
    {result : List UInt8} (apart : pool.Apart (.access index))
    (here : pool.handlers[index]? = some ⟨some loc, left⟩)
    (moved : loc.step pool.result = .ok (loc', result)) :
    BufferPool.Sound { pool with
      result, handlers := pool.handlers.set index ⟨some loc', left⟩ } := by
  constructor
  · intro place place' one other
    refine sound.exclusive_set here fun took => .inl ?_
    cases left with
    | nil => cases took
    | cons part rest =>
        cases part with
        | say => rfl
        | _ => cases took
  · intro place other others there
    rcases handler_set there with ⟨-, changed⟩ | ⟨elsewhere, present⟩
    · cases changed
      obtain ⟨part, rest, command, opened, joining, same⟩ := sound.joins index loc left here
      exact ⟨part, rest, command, opened, joining, (loc.outcome_step moved).trans same⟩
    · obtain ⟨part, rest, command, opened, joining, same⟩ :=
        sound.joins place other others present
      refine ⟨part, rest, command, opened, joining, Eq.trans ?_ same⟩
      -- who holds the mutex is alone in `say_exec`, so the other one has not begun to join
      have early : other.midway = false := by
        by_contra late
        obtain ⟨locked, locked'⟩ := apart _ here place _ elsewhere present
          (Bool.eq_true_of_not_eq_false late)
        exact elsewhere (sound.exclusive _ _ _ _ present here locked' locked)
      exact JoinLoc.outcome_congr early result pool.result

/-- A step that keeps apart from the other handlers keeps the pool sound. -/
theorem step (sound : pool.Sound) {label : BufferLabel} {after : BufferPool}
    (apart : pool.Apart label) (moved : BufferStep pool label after) : after.Sound := by
  cases moved with
  | start command => exact sound.start_handler (sections command)
  | enter _ here joining free => exact sound.enter_join here joining free
  | access _ here accessed => exact sound.access_buffer apart here accessed
  | leave _ here => exact sound.end_section here _ _
  | whole _ here => exact sound.end_section here _ _

end BufferPool.Sound

/-! ## Atomic sections -/

/-- In `join` nothing is seen of a handler. -/
theorem left_set_self {handlers : List Handler} {index : ℕ} {before joining : Option JoinLoc}
    {left : List Section} (here : handlers[index]? = some ⟨before, left⟩) :
    (handlers.set index ⟨joining, left⟩).map Handler.left = handlers.map Handler.left := by
  rw [List.map_set]
  refine List.ext_getElem? fun place => ?_
  rw [List.getElem?_set]
  split
  next same =>
    subst same
    rw [List.getElem?_map, here]
    simp [(List.getElem?_eq_some_iff.mp here).1]
  next => rfl

/-- As long as the handlers keep apart, their sections are atomic. -/
def bufferSimulation (client : ClientState) :
    ((bufferSystem client).restrict BufferPool.Apart).StutteringSimulation
      (responseSystem client) where
  states pool atomic := pool.Sound ∧ atomic = pool.atomic
  visible _ label := label.seen
  initially pool initial := by
    refine ⟨pool.atomic, ?_, .start initial.2, rfl⟩
    have opened : pool.atomic = ⟨client, []⟩ := by
      rw [BufferPool.atomic, initial.1, initial.2]
      rfl
    exact opened
  hidden before label after atomic related moved unseen := by
    obtain ⟨sound, rfl⟩ := related
    obtain ⟨apart, moved⟩ := moved
    refine ⟨sound.step apart moved, ?_⟩
    cases moved with
    | enter _ here => rw [BufferPool.atomic, BufferPool.atomic, left_set_self here]
    | access _ here => rw [BufferPool.atomic, BufferPool.atomic, left_set_self here]
    | start | leave | whole => cases unseen
  matched before label after atomic event related moved seen := by
    obtain ⟨sound, rfl⟩ := related
    obtain ⟨apart, moved⟩ := moved
    refine ⟨after.atomic, ?_, sound.step apart moved, rfl⟩
    cases moved with
    | start command =>
        cases seen
        rw [BufferPool.atomic, BufferPool.atomic, List.map_append]
        exact .start command
    | @leave index part rest after here done =>
        cases seen
        obtain ⟨_, _, command, opened, joining, same⟩ := sound.joins index .joined _ here
        cases opened
        have ran : part.run before.client = .ok after := by
          rw [Section.run_eq_finish joining, ← same]
          exact done
        rw [BufferPool.atomic, BufferPool.atomic, List.map_set]
        refine .execute ?_ (congrArg Except.toOption ran)
        rw [List.getElem?_map, here]
        rfl
    | @whole index part rest after here uncut free ran =>
        cases seen
        rw [BufferPool.atomic, BufferPool.atomic, List.map_set]
        refine .execute ?_ (congrArg Except.toOption ran)
        rw [List.getElem?_map, here]
        rfl
    | enter | access => cases seen

/-- As long as no handler accesses the buffer of `join` while another one depends on it, unless
both hold the mutex, what the handlers do is what they do if every section is a single step,
taken when the section ends. -/
theorem joins_atomic {client : ClientState} {trace : List (BufferPool × BufferLabel)}
    {pool : BufferPool} (execution : (bufferSystem client).Execution trace pool)
    (apart : ∀ visit ∈ trace, visit.1.Apart visit.2) :
    ∃ trace', (responseSystem client).Execution trace' pool.atomic ∧
      trace'.map Prod.snd = trace.filterMap fun visit => visit.2.seen := by
  obtain ⟨trace', atomic, execution', ⟨-, rfl⟩, labels⟩ :=
    (bufferSimulation client).execution (execution.restrict apart)
  exact ⟨trace', execution', labels⟩

/-! ## Without errors -/

/-- A response whose handler joins under `messages_mutex` only. -/
def CommandMemory.Guarded (command : CommandMemory) : Prop :=
  ∀ part ∈ sections command, part.joins ≠ none → part.signals = true

/-- All that is left of the handlers joins under `messages_mutex` only. -/
def BufferPool.Guarded (pool : BufferPool) : Prop :=
  ∀ handler ∈ pool.handlers, ∀ part ∈ handler.left, part.joins ≠ none → part.signals = true

namespace BufferPool.Guarded

variable {pool : BufferPool}

/-- A handler goes on, with nothing new left to do. -/
theorem set (guarded : pool.Guarded) {index : ℕ} {handler changed : Handler}
    (here : pool.handlers[index]? = some handler)
    (less : ∀ part ∈ changed.left, part ∈ handler.left) :
    ∀ other ∈ pool.handlers.set index changed, ∀ part ∈ other.left,
      part.joins ≠ none → part.signals = true := by
  intro other member part among
  rcases List.mem_or_eq_of_mem_set member with old | rfl
  · exact guarded other old part among
  · exact guarded handler (List.mem_of_getElem? here) part (less part among)

theorem step (guarded : pool.Guarded) {label : BufferLabel} {after : BufferPool}
    (moved : BufferStep pool label after)
    (started : ∀ command, label = .start command → command.Guarded) : after.Guarded := by
  cases moved with
  | start command =>
      intro handler member
      rcases List.mem_append.mp member with old | new
      · exact guarded handler old
      · obtain rfl := List.mem_singleton.mp new
        exact started command rfl
  | enter _ here => exact guarded.set here fun _ among => among
  | access _ here => exact guarded.set here fun _ among => among
  | leave _ here => exact guarded.set here fun _ among => List.mem_cons_of_mem _ among
  | whole _ here => exact guarded.set here fun _ among => List.mem_cons_of_mem _ among

/-- Whoever is in `join` holds the mutex. -/
theorem locks (guarded : pool.Guarded) (sound : pool.Sound) {place : ℕ} {loc : JoinLoc}
    {left : List Section} (here : pool.handlers[place]? = some ⟨some loc, left⟩) :
    Handler.locks ⟨some loc, left⟩ = true := by
  obtain ⟨part, rest, command, rfl, joining, -⟩ := sound.joins place loc left here
  have signals := guarded _ (List.mem_of_getElem? here) part List.mem_cons_self
    (by rw [joining]; exact Option.some_ne_none _)
  cases part with
  | say => rfl
  | error => cases signals
  | _ => cases joining

/-- The mutex keeps the handlers apart. -/
theorem apart (guarded : pool.Guarded) (sound : pool.Sound) {label : BufferLabel}
    {after : BufferPool} (moved : BufferStep pool label after) : pool.Apart label := by
  cases moved with
  | @access index loc loc' left result here moved =>
      intro handler there place other _ present late
      rw [here] at there
      cases there
      refine ⟨guarded.locks sound here, ?_⟩
      obtain ⟨_ | loc, others⟩ := other
      · cases late
      · exact guarded.locks sound present
  | start | enter | leave | whole => trivial

end BufferPool.Guarded

/-- **Says are atomic.** If no response makes a handler print an error, then whatever the
interleaving, what the handlers do with the buffer they share is what they do if every section
is a single step, taken when the section ends. -/
theorem says_atomic {client : ClientState} {trace : List (BufferPool × BufferLabel)}
    {pool : BufferPool} (execution : (bufferSystem client).Execution trace pool)
    (guarded : ∀ visit ∈ trace, ∀ command, visit.2 = .start command → command.Guarded) :
    ∃ trace', (responseSystem client).Execution trace' pool.atomic ∧
      trace'.map Prod.snd = trace.filterMap fun visit => visit.2.seen := by
  have kept : (pool.Sound ∧ pool.Guarded) ∧ ∀ visit ∈ trace, visit.1.Apart visit.2 := by
    induction execution with
    | start initial =>
        have none := initial.2
        refine ⟨⟨.start none, ?_⟩, List.forall_mem_nil _⟩
        rw [BufferPool.Guarded, none]
        exact List.forall_mem_nil _
    | @step trace before after label _ moved ih =>
        obtain ⟨⟨sound, quiet⟩, earlier⟩ :=
          ih fun visit member => guarded visit (List.mem_append_left _ member)
        have now := quiet.apart sound moved
        refine ⟨⟨sound.step now moved, quiet.step moved ?_⟩, List.forall_mem_append.mpr
          ⟨earlier, List.forall_mem_singleton.mpr now⟩⟩
        exact guarded _ (List.mem_append_right _ (List.mem_singleton.mpr rfl))
  exact joins_atomic execution kept.2

/-! ## Runs of handlers -/

/-- The handler of one `say`, access by access. -/
theorem say_execution :
    ∃ trace pool, (bufferSystem sampleClient).Execution trace pool ∧
      trace.map Prod.snd = [.start (sampleResponse .say "hi"), .enter 0, .access 0, .access 0,
        .access 0, .access 0, .leave 0] ∧
      pool.client.lines = [ascii "hi"] := by
  have start : (bufferSystem sampleClient).Execution [] ⟨sampleClient, [], []⟩ := .start ⟨rfl, rfl⟩
  have entered := (start.step (.start (sampleResponse .say "hi"))).step
    (.enter 0 rfl rfl fun _ => by simp [BufferPool.Free, Handler.locks])
  have joined := (((entered.step (.access 0 rfl rfl)).step (.access 0 rfl rfl)).step
    (.access 0 rfl rfl)).step (.access 0 rfl rfl)
  exact ⟨_, _, joined.step (.leave 0 rfl rfl), rfl, rfl⟩

/-- One `say` is a single step. -/
theorem says_atomic_hi :
    ∃ trace pool trace', (bufferSystem sampleClient).Execution trace pool ∧
      (responseSystem sampleClient).Execution trace' pool.atomic ∧
      trace'.map Prod.snd = [.start (sampleResponse .say "hi"), .execute 0] ∧
      pool.client.lines = [ascii "hi"] := by
  obtain ⟨trace, pool, execution, labels, logged⟩ := say_execution
  have guarded : ∀ visit ∈ trace, ∀ command, visit.2 = .start command → command.Guarded := by
    intro visit member command started
    have among := List.mem_map_of_mem (f := Prod.snd) member
    rw [labels, started] at among
    obtain rfl : command = sampleResponse .say "hi" := by simpa using among
    intro part listed _
    obtain rfl := List.mem_singleton.mp listed
    rfl
  obtain ⟨trace', execution', seen⟩ := says_atomic execution guarded
  refine ⟨trace, pool, trace', execution, execution', seen.trans ?_, logged⟩
  have same := List.filterMap_map (f := Prod.snd) (g := BufferLabel.seen) (l := trace)
  rw [labels] at same
  exact same.symm

/-- An error that is joined while `say_exec` joins is logged in place of the message. -/
theorem error_overlaps_say :
    ∃ trace pool, (bufferSystem sampleClient).Execution trace pool ∧
      (trace.filterMap fun visit => visit.2.seen) =
        [.start (sampleResponse .say "hi"), .start (sampleResponse .error "no"), .execute 0] ∧
      join (sampleResponse .say "hi") = .ok (ascii "hi") ∧
      pool.client.lines = [ascii "no"] := by
  have start : (bufferSystem sampleClient).Execution [] ⟨sampleClient, [], []⟩ := .start ⟨rfl, rfl⟩
  have started := (start.step (.start (sampleResponse .say "hi"))).step
    (.start (sampleResponse .error "no"))
  have entered := (started.step (.enter 0 rfl rfl fun _ => by
    simp [BufferPool.Free, Handler.locks])).step (.enter 1 rfl rfl fun signals => by cases signals)
  have said := (entered.step (.access 0 rfl rfl)).step (.access 0 rfl rfl)
  have overwritten := (said.step (.access 1 rfl rfl)).step (.access 1 rfl rfl)
  have joined := (overwritten.step (.access 0 rfl rfl)).step (.access 0 rfl rfl)
  exact ⟨_, _, joined.step (.leave 0 rfl rfl), rfl, rfl, rfl⟩

end MultithreadedChat
