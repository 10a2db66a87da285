import MultithreadedChat.Foundation.ConditionVariable
import MultithreadedChat.Listener
import MultithreadedChat.Server.Handlers

/-! # The input threads of the client

`user_input_pre_connection` and `user_input` read the same standard input and take
turns on one condition variable, the one while the client is unconnected, the other
while it is connected; the handlers of responses change the flag and signal once.
A sleeper is never the wrong one (`MultithreadedChat.input_sleeps`), so the
single signal suffices.

Only `user_input_pre_connection` tests the flag again when `fgets` has returned.
A line that `user_input` was already waiting for is sent even if the client has been
disconnected in the meantime (`MultithreadedChat.sent_while_unconnected`).
-/

namespace MultithreadedChat

open ConditionVariable CString

abbrev maxLen : ℕ := 1024

/-- The flag of `client_t` behind `connection_mutex`. -/
structure Connection where
  connected : Bool
  deriving DecidableEq, Repr

/-- The condition variable `connection_cond`. -/
inductive ConnectionCond
  | connection
  deriving DecidableEq, Repr

/-- The threads: the two that read lines, and those that handle responses. -/
inductive InputThread (ι : Type*)
  | preConnection
  | postConnection
  | handler (thread : ι)
  deriving DecidableEq

/-- Where a thread is: in `user_input_pre_connection`, in `user_input`, after `exit`, or
between and in the handlers of responses. A line is held without its newline. -/
inductive InputLoc
  | preTest
  | preDoubleCheck
  | preReading
  | preRecheck (input : List UInt8)
  | preForward (input : List UInt8)
  | preCommand (input : List UInt8)
  | test
  | doubleCheck
  | reading
  | command (input : List UInt8)
  | exited
  | idle
  | connectResponse
  | disconnectResponse
  deriving DecidableEq

/-- `input[strcspn(input, "\n")] = 0`. -/
def removeNewline (input : CString maxLen) : List UInt8 :=
  input.bytes.takeWhile (· ≠ UInt8.ofNat '\n'.toNat)

/-- `send_connect_request`. -/
def sendConnectRequest (username : List UInt8) : List UInt8 :=
  snprintf bufferSize (ascii "conn$ " ++ username)

/-- The branch of `user_input_pre_connection` for a command while unconnected. -/
def preConnectionSends (input : List UInt8) : List (List UInt8) :=
  if input.take 6 = ascii "conn$ " then
    let username := input.drop 6
    if username.length > 0 then [sendConnectRequest username] else []
  else []

/-- The commands of `user_input`, from the line on. -/
def userInputSends (input : List UInt8) : List (List UInt8) :=
  if input = ascii ":q" then [ascii "disconn$"]
  else if input = ascii "disconn$" then [input]
  else if input.length > 0 then [input]
  else []

namespace InputLoc

/-- The line a thread has read and not done with. -/
def line : InputLoc → Option (List UInt8)
  | .preRecheck input | .preForward input | .preCommand input | .command input => some input
  | _ => none

/-- What a thread sends to the server on its way out of a location. -/
def sends : InputLoc → List (List UInt8)
  | .preForward input => if input.length > 0 then [input] else []
  | .preCommand input => preConnectionSends input
  | .command input => userInputSends input
  | _ => []

/-- Whether a thread is in `fgets`. -/
def reads : InputLoc → Bool
  | .preReading | .reading => true
  | _ => false

end InputLoc

/-- The moves without `connection_mutex`: `fgets` returns a line or nothing, a line is
done with, and a response arrives. -/
inductive InputMove : InputLoc → InputLoc → Prop
  | preNothing : InputMove .preReading .preTest
  | preQuit (input : CString maxLen) : removeNewline input = ascii ":q" →
      InputMove .preReading .exited
  | preLine (input : CString maxLen) : removeNewline input ≠ ascii ":q" →
      InputMove .preReading (.preRecheck (removeNewline input))
  | preForwarded (input : List UInt8) : InputMove (.preForward input) .preTest
  | preDone (input : List UInt8) : InputMove (.preCommand input) .preTest
  | nothing : InputMove .reading .test
  | line (input : CString maxLen) : InputMove .reading (.command (removeNewline input))
  | quit : InputMove (.command (ascii ":q")) .exited
  | done (input : List UInt8) : input ≠ ascii ":q" → InputMove (.command input) .test
  | connSuccess : InputMove .idle .connectResponse
  | disconnResponse : InputMove .idle .disconnectResponse

/-- The outcomes of the sections. -/
abbrev InputOutcome := Outcome Connection ConnectionCond InputLoc

/-- A section that reads the flag and branches on it. -/
def branch (connection : Connection) (connected unconnected : InputLoc) : InputOutcome :=
  .leave connection (if connection.connected then connected else unconnected) none

/-- The section of the handler of a response. -/
def respond (connected : Bool) : InputOutcome :=
  .leave ⟨connected⟩ .idle (some (.signal .connection))

/-- The input threads and the handlers, cut at their sections on `connection_mutex`. -/
def inputProgram : Program Connection ConnectionCond InputLoc where
  move := InputMove
  critical
    | .preTest, client =>
      if client.connected = true then some (.wait client .connection .preTest)
      else some (.leave client .preDoubleCheck none)
    | .preDoubleCheck, client => some (branch client .preTest .preReading)
    | .preRecheck input, client => some (branch client (.preForward input) (.preCommand input))
    | .test, client =>
      if client.connected = false then some (.wait client .connection .test)
      else some (.leave client .doubleCheck none)
    | .doubleCheck, client => some (branch client .reading .test)
    | .connectResponse, _ => some (respond true)
    | .disconnectResponse, _ => some (respond false)
    | .preReading, _ | .preForward _, _ | .preCommand _, _ | .reading, _ | .command _, _
    | .exited, _ | .idle, _ => none

/-- Where a thread starts. -/
def InputThread.start {ι : Type*} : InputThread ι → InputLoc
  | .preConnection => .preTest
  | .postConnection => .test
  | .handler _ => .idle

variable {ι : Type*}

abbrev InputState (ι : Type*) := State (InputThread ι) Connection ConnectionCond InputLoc

/-- `setup_client`, and the threads `main` starts. -/
def InputState.start : InputState ι := ⟨⟨false⟩, fun thread => .awake thread.start⟩

variable [DecidableEq ι]

/-- All runs of the input threads and any number of handlers. -/
def inputSystem : TransitionSystem (InputState ι) (InputThread ι × Action) :=
  inputProgram.system fun state => state = InputState.start

/-! ## The sleepers -/

/-- Which thread a location belongs to; `exit` belongs to both input threads. -/
def InputLoc.BelongsTo (loc : InputLoc) (thread : InputThread ι) : Prop :=
  match loc with
  | .preTest | .preDoubleCheck | .preReading | .preRecheck _ | .preForward _ | .preCommand _ =>
    thread = .preConnection
  | .test | .doubleCheck | .reading | .command _ => thread = .postConnection
  | .exited => thread = .preConnection ∨ thread = .postConnection
  | .idle | .connectResponse | .disconnectResponse => ∃ handler, thread = .handler handler

omit [DecidableEq ι] in
theorem InputMove.belongsTo {loc next : InputLoc} (move : InputMove loc next)
    {thread : InputThread ι} (own : loc.BelongsTo thread) : next.BelongsTo thread := by
  cases move with
  | preQuit => exact .inl own
  | quit => exact .inr own
  | preNothing | preLine | preForwarded | preDone | nothing | line | done | connSuccess
  | disconnResponse => exact own

omit [DecidableEq ι] in
/-- What a section does: wait for the flag to change, branch on it, or change it. -/
theorem inputProgram_cases {loc : InputLoc} {client : Connection} {outcome : InputOutcome}
    (ran : inputProgram.critical loc client = some outcome) :
    (loc = .preTest ∧ client.connected = true ∧ outcome = .wait client .connection loc) ∨
      (loc = .test ∧ client.connected = false ∧ outcome = .wait client .connection loc) ∨
      (∃ next, outcome = .leave client next none ∧
        (∀ thread : InputThread ι, loc.BelongsTo thread → next.BelongsTo thread) ∧
        (∀ input, next = .preForward input → client.connected = true) ∧
        ∀ input, next ≠ .command input) ∨
      ∃ connected, outcome = respond connected ∧
        (loc = .connectResponse ∨ loc = .disconnectResponse) := by
  cases loc with
  | preReading | preForward | preCommand | reading | command | exited | idle => cases ran
  | preTest =>
      by_cases on : client.connected = true
      · exact .inl ⟨rfl, on, (Option.some.inj ((if_pos on).symm.trans ran)).symm⟩
      · refine .inr (.inr (.inl ⟨.preDoubleCheck, ?_, fun _ own => own, ?_, ?_⟩))
        · exact (Option.some.inj ((if_neg on).symm.trans ran)).symm
        · intro input same
          cases same
        · intro input same
          cases same
  | test =>
      by_cases off : client.connected = false
      · exact .inr (.inl ⟨rfl, off, (Option.some.inj ((if_pos off).symm.trans ran)).symm⟩)
      · refine .inr (.inr (.inl ⟨.doubleCheck, ?_, fun _ own => own, ?_, ?_⟩))
        · exact (Option.some.inj ((if_neg off).symm.trans ran)).symm
        · intro input same
          cases same
        · intro input same
          cases same
  | preDoubleCheck | preRecheck | doubleCheck =>
      obtain rfl := Option.some.inj ran
      refine .inr (.inr (.inl ⟨_, rfl, ?_⟩))
      cases client.connected <;> simp [InputLoc.BelongsTo]
  | connectResponse =>
      obtain rfl := Option.some.inj ran
      exact .inr (.inr (.inr ⟨true, rfl, .inl rfl⟩))
  | disconnectResponse =>
      obtain rfl := Option.some.inj ran
      exact .inr (.inr (.inr ⟨false, rfl, .inr rfl⟩))

/-- Every location belongs to the thread that is there. -/
theorem belongsTo_of_reachable {state : InputState ι} (reachable : inputSystem.Reachable state)
    (thread : InputThread ι) : (state.locs thread).BelongsTo thread := by
  refine reachable.invariant
    (I := fun state => ∀ thread, (state.locs thread).BelongsTo thread) ?_ ?_ thread
  · rintro state rfl thread
    cases thread with
    | preConnection | postConnection => exact rfl
    | handler thread => exact ⟨thread, rfl⟩
  · intro before label after own moved
    have updated : ∀ (locs : InputThread ι → InputLoc) (mover : InputThread ι) (next : InputLoc),
        (∀ thread, (locs thread).BelongsTo thread) → next.BelongsTo mover →
          ∀ thread, (Function.update locs mover next thread).BelongsTo thread := by
      intro locs mover next own there thread
      by_cases same : thread = mover
      · subst same
        rwa [Function.update_self]
      · rw [Function.update_of_ne same]
        exact own thread
    refine moved.locs_invariant (I := fun _ locs => ∀ thread, (locs thread).BelongsTo thread)
      ?_ ?_ own
    · intro _ locs mover next allowed own
      exact updated locs mover next own (InputMove.belongsTo allowed (own mover))
    · intro _ locs mover outcome ran own
      refine updated locs mover _ own ?_
      have here := own mover
      rcases inputProgram_cases (ι := ι) ran with ⟨-, -, rfl⟩ | ⟨-, -, rfl⟩ |
        ⟨next, rfl, kept, -⟩ | ⟨connected, rfl, there | there⟩
      · exact here
      · exact here
      · exact kept mover here
      · rw [there] at here
        exact here
      · rw [there] at here
        exact here

/-- Whoever sleeps waits for a change that has not happened. -/
def Expectant (state : InputState ι) : Prop :=
  ∀ thread cond loc, state.threads thread = .asleep cond loc →
    loc = .preTest ∧ state.shared.connected = true ∨ loc = .test ∧ state.shared.connected = false

omit [DecidableEq ι] in
/-- At most one thread sleeps. -/
theorem Expectant.unique {state : InputState ι} (expectant : Expectant state)
    (own : ∀ thread, (state.locs thread).BelongsTo thread) {first second : InputThread ι}
    {cond cond' : ConnectionCond} {loc loc' : InputLoc}
    (sleeping : state.threads first = .asleep cond loc)
    (sleeping' : state.threads second = .asleep cond' loc') : first = second := by
  have here := own first
  have there := own second
  rw [State.locs, sleeping, Thread.loc_asleep] at here
  rw [State.locs, sleeping', Thread.loc_asleep] at there
  rcases expectant first cond loc sleeping with ⟨rfl, on⟩ | ⟨rfl, off⟩ <;>
    rcases expectant second cond' loc' sleeping' with ⟨rfl, on'⟩ | ⟨rfl, off'⟩
  · exact Eq.trans here there.symm
  · cases on.symm.trans off'
  · cases off.symm.trans on'
  · exact Eq.trans here there.symm

/-- A change of the flag wakes the thread that waits for it, so nobody is left asleep. -/
theorem Expectant.step {before after : InputState ι} {label : InputThread ι × Action}
    (expectant : Expectant before) (own : ∀ thread, (before.locs thread).BelongsTo thread)
    (moved : Step inputProgram before label after) : Expectant after := by
  cases moved with
  | move thread running allowed =>
      intro sleeper cond loc sleeping
      exact expectant sleeper cond loc (asleep_of_update_awake sleeping)
  | spurious thread asleep =>
      intro sleeper cond loc sleeping
      exact expectant sleeper cond loc (asleep_of_update_awake sleeping)
  | @wait thread loc shared cond resume running ran =>
      intro sleeper other at_loc sleeping
      rcases inputProgram_cases (ι := ι) ran with ⟨rfl, on, same⟩ | ⟨rfl, off, same⟩ |
        ⟨_, same, -⟩ | ⟨_, same, -⟩
      all_goals cases same
      · rcases asleep_of_update sleeping with itself | asleep
        · cases itself
          exact .inl ⟨rfl, on⟩
        · exact expectant sleeper other at_loc asleep
      · rcases asleep_of_update sleeping with itself | asleep
        · cases itself
          exact .inr ⟨rfl, off⟩
        · exact expectant sleeper other at_loc asleep
  | @leave thread loc shared next wake threads running ran woken =>
      intro sleeper cond resume sleeping
      have slept := woken.asleep_before sleeping
      have asleep := asleep_of_update_awake slept
      rcases inputProgram_cases (ι := ι) ran with ⟨-, -, same⟩ | ⟨-, -, same⟩ |
        ⟨_, same, -⟩ | ⟨connected, same, -⟩
      all_goals cases same
      · exact expectant sleeper cond resume asleep
      · obtain ⟨chosen, at_loc, chosenSlept, awake⟩ := woken.signal_wakes slept
        have same := expectant.unique own asleep (asleep_of_update_awake chosenSlept)
        subst same
        cases sleeping.symm.trans awake

theorem expectant_of_reachable {state : InputState ι} (reachable : inputSystem.Reachable state) :
    Expectant state := by
  obtain ⟨trace, execution⟩ := reachable
  induction execution with
  | start initial =>
      subst initial
      intro thread cond loc asleep
      cases asleep
  | step execution moved ih =>
      exact ih.step (belongsTo_of_reachable ⟨_, execution⟩) moved

/-- **No input thread sleeps through its change.** While `user_input_pre_connection`
sleeps the client is connected; while `user_input` sleeps it is not. -/
theorem input_sleeps {state : InputState ι} (reachable : inputSystem.Reachable state) :
    (∀ cond loc, state.threads .preConnection = .asleep cond loc →
        state.shared.connected = true) ∧
      ∀ cond loc, state.threads .postConnection = .asleep cond loc →
        state.shared.connected = false := by
  have own := belongsTo_of_reachable reachable
  have expectant := expectant_of_reachable reachable
  constructor
  · intro cond loc sleeping
    rcases expectant _ cond loc sleeping with ⟨-, on⟩ | ⟨rfl, -⟩
    · exact on
    · have here := own .preConnection
      rw [State.locs, sleeping] at here
      cases here
  · intro cond loc sleeping
    rcases expectant _ cond loc sleeping with ⟨rfl, -⟩ | ⟨-, off⟩
    · have here := own .postConnection
      rw [State.locs, sleeping] at here
      cases here
    · exact off

/-- Connected before it started to read, `user_input_pre_connection` sleeps. -/
theorem input_sleeps_connected :
    ∃ state : InputState Unit, state.threads .preConnection = .asleep .connection .preTest ∧
      state.shared.connected = true := by
  have start : (inputSystem (ι := Unit)).Reachable InputState.start := .start rfl
  have arrived := start.step (.move (InputThread.handler ()) rfl InputMove.connSuccess)
  have connected := arrived.step (.leave (InputThread.handler ()) rfl rfl (.lost
    fun thread loc asleep => by
      cases asleep_of_update_awake (asleep_of_update_awake asleep)))
  have asleep := connected.step (.wait InputThread.preConnection rfl rfl)
  exact ⟨_, rfl, (input_sleeps asleep).1 .connection .preTest rfl⟩

/-! ## What is sent while unconnected -/

/-- A line that asks for a connection under a name. -/
def AsksToConnect (input : List UInt8) : Prop :=
  ∃ username, username ≠ [] ∧ input = ascii "conn$ " ++ username

/-- The threads, and of each whether the client has been unconnected ever since its
`fgets` returned last. The latter is not in the source. -/
structure InputRun (ι : Type*) where
  state : InputState ι
  unconnected : InputThread ι → Bool

/-- A step of a thread, with the line that it holds then. -/
structure InputLabel (ι : Type*) where
  thread : InputThread ι
  action : Action
  line : Option (List UInt8)

/-- A step of a thread that remembers how long the client has been unconnected. -/
structure InputStep (before : InputRun ι) (label : InputLabel ι) (after : InputRun ι) : Prop where
  moved : Step inputProgram before.state (label.thread, label.action) after.state
  line : label.line = (after.state.locs label.thread).line
  unconnected : ∀ thread, after.unconnected thread =
    (!after.state.shared.connected &&
      (before.unconnected thread ||
        decide (thread = label.thread) && (before.state.locs thread).reads))

/-- All runs of the input threads and the handlers, with what they remember. -/
def inputRuns : TransitionSystem (InputRun ι) (InputLabel ι) where
  initial run := run = ⟨InputState.start, fun _ => false⟩
  step := InputStep

/-- For a line during which the client was unconnected all the time, a step sends
nothing unless the line asks for a connection. -/
def InputRun.OnlyConn (run : InputRun ι) (label : InputLabel ι) : Prop :=
  ∀ input, (run.state.locs label.thread).line = some input → label.action = .move →
    run.unconnected label.thread = true → (run.state.locs label.thread).sends ≠ [] →
      AsksToConnect input

/-- If the step is `fgets` of `user_input` returning a line while the client is
unconnected, the line is empty or asks for a connection. -/
def InputRun.ReadsConnected (run : InputRun ι) (label : InputLabel ι) : Prop :=
  run.state.locs label.thread = .reading → run.state.shared.connected = false →
    ∀ input, label.line = some input → input = [] ∨ AsksToConnect input

theorem asksToConnect_of_preConnectionSends {input : List UInt8}
    (sends : preConnectionSends input ≠ []) : AsksToConnect input := by
  rw [preConnectionSends] at sends
  by_cases keyword : input.take 6 = ascii "conn$ "
  · refine ⟨input.drop 6, ?_, ?_⟩
    · intro nameless
      simp [nameless] at sends
    · rw [← keyword, List.take_append_drop]
  · rw [if_neg keyword] at sends
    exact absurd rfl sends

/-- What a thread at a location may still send: nothing forwarded while unconnected, and
no command of `user_input` but a request for a connection. -/
def InputLoc.Cautious (unconnected : Bool) : InputLoc → Prop
  | .preForward _ => unconnected = false
  | .command input => unconnected = true → input = [] ∨ AsksToConnect input
  | _ => True

theorem InputLoc.Cautious.mono {loc : InputLoc} {before after : Bool}
    (cautious : loc.Cautious before) (kept : after = true → before = true) :
    loc.Cautious after := by
  cases loc with
  | preForward =>
      have connected : before = false := cautious
      cases after with
      | false => rfl
      | true => cases connected.symm.trans (kept rfl)
  | command => exact fun unconnected => cautious (kept unconnected)
  | preTest | preDoubleCheck | preReading | preRecheck | preCommand | test | doubleCheck | reading
  | exited | idle | connectResponse | disconnectResponse => trivial

/-- No thread is about to send what it should not. -/
def Cautious (run : InputRun ι) : Prop :=
  ∀ thread, (run.state.locs thread).Cautious (run.unconnected thread)

omit [DecidableEq ι] in
/-- A cautious run sends only requests for a connection while unconnected. -/
theorem Cautious.onlyConn {run : InputRun ι} (cautious : Cautious run) (label : InputLabel ι) :
    run.OnlyConn label := by
  intro input line _ unconnected sends
  have allowed := cautious label.thread
  cases here : run.state.locs label.thread with
  | preForward =>
      rw [here] at allowed
      cases unconnected.symm.trans allowed
  | preCommand held =>
      rw [here] at line sends
      cases line
      exact asksToConnect_of_preConnectionSends sends
  | command held =>
      rw [here] at line sends allowed
      cases line
      refine (allowed unconnected).resolve_left ?_
      rintro rfl
      exact sends rfl
  | preTest | preDoubleCheck | preReading | preRecheck | test | doubleCheck | reading | exited
  | idle | connectResponse | disconnectResponse =>
      rw [here] at sends
      exact absurd rfl sends

namespace InputStep

variable {before after : InputRun ι} {label : InputLabel ι}

/-- Whom a step remembers as unconnected: the client is unconnected now, and the thread
was remembered so before or its `fgets` returns. -/
theorem unconnected_iff (moved : InputStep before label after) (thread : InputThread ι) :
    after.unconnected thread = true ↔ after.state.shared.connected = false ∧
      (before.unconnected thread = true ∨
        thread = label.thread ∧ (before.state.locs thread).reads = true) := by
  rw [moved.unconnected]
  simp

/-- A thread that stays where it is stays cautious. -/
theorem cautious_of_stays (moved : InputStep before label after) (cautious : Cautious before)
    {thread : InputThread ι} (stays : after.state.locs thread = before.state.locs thread)
    (waits : thread = label.thread → (before.state.locs thread).reads = true →
      (before.state.locs thread).Cautious true) :
    (after.state.locs thread).Cautious (after.unconnected thread) := by
  rw [stays]
  by_cases returns : thread = label.thread ∧ (before.state.locs thread).reads = true
  · exact (waits returns.1 returns.2).mono fun _ => rfl
  · refine (cautious thread).mono fun unconnected => ?_
    exact ((moved.unconnected_iff thread).mp unconnected).2.resolve_right returns

end InputStep

/-- Every step keeps a run cautious in which `fgets` of `user_input` is guarded. -/
theorem Cautious.step {before after : InputRun ι} {label : InputLabel ι}
    (cautious : Cautious before) (guarded : before.ReadsConnected label)
    (moved : InputStep before label after) : Cautious after := by
  have reading : ∀ {loc : InputLoc}, loc.reads = true → loc.Cautious true := by
    intro loc reads
    cases loc with
    | preReading | reading => trivial
    | preTest | preDoubleCheck | preRecheck | preForward | preCommand | test | doubleCheck | command
    | exited | idle | connectResponse | disconnectResponse => cases reads
  have off := fun unconnected => ((moved.unconnected_iff label.thread).mp unconnected).1
  intro thread
  by_cases same : thread = label.thread
  · subst same
    rcases moved.moved.locs_cases with ⟨next, -, -, allowed, shared, locs⟩ |
      ⟨outcome, -, -, ran, shared, locs⟩ | ⟨-, shared, locs⟩
    · have here : after.state.locs label.thread = next := by rw [locs, Function.update_self]
      have line := moved.line
      rw [here] at line ⊢
      generalize at_loc : before.state.locs label.thread = loc at allowed
      cases allowed with
      | line input =>
          intro unconnected
          have idle : before.state.shared.connected = false := shared ▸ off unconnected
          exact guarded at_loc idle _ line
      | preNothing | preQuit | preLine | preForwarded | preDone | nothing | quit | done
      | connSuccess | disconnResponse => trivial
    · have here : after.state.locs label.thread = outcome.next := by
        rw [locs, Function.update_self]
      rw [here]
      rcases inputProgram_cases (ι := ι) ran with ⟨there, -, rfl⟩ | ⟨there, -, rfl⟩ |
        ⟨next, rfl, -, forwards, commands⟩ | ⟨connected, rfl, -⟩
      · rw [there]
        trivial
      · rw [there]
        trivial
      · cases next with
        | preForward input =>
            have on : after.state.shared.connected = true := by
              rw [shared]
              exact forwards input rfl
            change after.unconnected label.thread = false
            by_contra unconnected
            rw [Bool.not_eq_false] at unconnected
            cases on.symm.trans (off unconnected)
        | command input => exact absurd rfl (commands input)
        | preTest | preDoubleCheck | preReading | preRecheck | preCommand | test | doubleCheck
        | reading | exited | idle | connectResponse | disconnectResponse => trivial
      · trivial
    · exact moved.cautious_of_stays cautious (congrFun locs _) fun _ => reading
  · refine moved.cautious_of_stays cautious ?_ fun itself => absurd itself same
    rcases moved.moved.locs_cases with ⟨next, -, -, -, -, locs⟩ | ⟨outcome, -, -, -, -, locs⟩ |
      ⟨-, -, locs⟩
    · rw [locs, Function.update_of_ne same]
    · rw [locs, Function.update_of_ne same]
    · rw [locs]

/-- **Only `conn$` before the connection.** In a run in which every line that `fgets`
returns to `user_input` while the client is unconnected is empty or asks for a
connection, nothing but such requests is sent for a line during which the client was
unconnected all the time. -/
theorem only_conn_sent {trace : List (InputRun ι × InputLabel ι)} {run : InputRun ι}
    (execution : inputRuns.Execution trace run)
    (guarded : ∀ visit ∈ trace, visit.1.ReadsConnected visit.2) :
    ∀ visit ∈ trace, visit.1.OnlyConn visit.2 := by
  intro visit member
  obtain ⟨earlier, initialPart, reached⟩ := execution.visited member
  have cautious : Cautious visit.1 := by
    refine reached.guarded_invariant (G := InputRun.ReadsConnected) ?_
      (fun _ _ _ cautious guarded moved => cautious.step guarded moved)
      fun other old => guarded other (initialPart.subset old)
    rintro run rfl thread
    cases thread <;> trivial
  exact cautious.onlyConn visit.2

/-! ## A line typed before the client is disconnected, and one typed after -/

/-- What a step of a thread leaves. -/
def InputRun.next (run : InputRun ι) (thread : InputThread ι) (state : InputState ι) :
    InputRun ι where
  state := state
  unconnected other := !state.shared.connected &&
    (run.unconnected other || decide (other = thread) && (run.state.locs other).reads)

/-- `fgets` returns while the client is unconnected. -/
theorem InputRun.next_unconnected {run : InputRun ι} {thread : InputThread ι} {state : InputState ι}
    (off : state.shared.connected = false) (reads : (run.state.locs thread).reads = true) :
    (run.next thread state).unconnected thread = true := by
  simp [InputRun.next, off, reads]

/-- An execution goes on with a step of a thread. -/
theorem InputRun.extend {trace : List (InputRun ι × InputLabel ι)} {run : InputRun ι}
    (execution : inputRuns.Execution trace run) {thread : InputThread ι} {action : Action}
    {state state' : InputState ι} (moved : Step inputProgram run.state (thread, action) state)
    (result : state = state') :
    inputRuns.Execution (trace ++ [(run, ⟨thread, action, (state'.locs thread).line⟩)])
      (run.next thread state') := by
  subst result
  exact execution.step ⟨moved, rfl, fun _ => rfl⟩

/-- Connected, with `user_input` waiting for a line. -/
def InputState.awaiting : InputState Unit where
  shared := ⟨true⟩
  threads
    | .preConnection => .awake .preTest
    | .postConnection => .awake .reading
    | .handler () => .awake .idle

theorem exists_awaiting :
    ∃ trace unconnected, inputRuns.Execution trace ⟨InputState.awaiting, unconnected⟩ ∧
      ∀ visit ∈ trace, visit.1.ReadsConnected visit.2 := by
  have start : (inputRuns (ι := Unit)).Execution [] _ := .start rfl
  have arrived := InputRun.extend start
    (.move (InputThread.handler ()) rfl InputMove.connSuccess) rfl
  have connected := InputRun.extend arrived (.leave (InputThread.handler ()) rfl rfl (.lost
    fun thread loc asleep => by
      cases asleep_of_update_awake (asleep_of_update_awake asleep))) rfl
  have tested := InputRun.extend connected (.leave .postConnection rfl rfl (.none _)) rfl
  have reading : inputRuns.Execution _ (InputRun.next _ _ .awaiting) := InputRun.extend tested
    (.leave .postConnection rfl rfl (.none _))
    (congrArg (State.mk _) (funext fun thread => by rcases thread with _ | _ | _ <;> rfl))
  refine ⟨_, _, reading, ?_⟩
  · intro visit member at_reading
    simp only [List.nil_append, List.cons_append, List.mem_cons, List.not_mem_nil, or_false]
      at member
    rcases member with rfl | rfl | rfl | rfl <;> cases at_reading

/-- A line typed at the prompt. -/
def typedLine : CString maxLen := ⟨ascii "say$ hi", by decide, by decide⟩

/-- Nobody sleeps beside the waiting `user_input`. -/
theorem InputState.awaiting_awake (thread : InputThread Unit) (cond : ConnectionCond)
    (loc : InputLoc) : InputState.awaiting.threads thread ≠ .asleep cond loc := by
  intro asleep
  rcases thread with _ | _ | _ <;> cases asleep

/-- A line typed before a disconnection is sent after it. -/
theorem only_conn_sent_typed :
    ∃ trace run, (inputRuns (ι := Unit)).Execution trace run ∧
      (∃ visit ∈ trace, visit.1.state.shared.connected = false ∧
        (visit.1.state.locs visit.2.thread).sends = [ascii "say$ hi"]) ∧
      ∀ visit ∈ trace, visit.1.OnlyConn visit.2 := by
  obtain ⟨trace, unconnected, awaiting, guarded⟩ := exists_awaiting
  have typed := InputRun.extend awaiting
    (.move InputThread.postConnection rfl (InputMove.line typedLine)) rfl
  have arrived := InputRun.extend typed
    (.move (InputThread.handler ()) rfl InputMove.disconnResponse) rfl
  have disconnected := InputRun.extend arrived (.leave (InputThread.handler ()) rfl rfl (.lost
    fun thread loc asleep => InputState.awaiting_awake _ _ _ (asleep_of_update_awake
      (asleep_of_update_awake (asleep_of_update_awake asleep))))) rfl
  have sent := InputRun.extend disconnected
    (.move InputThread.postConnection rfl (InputMove.done (ascii "say$ hi") (by decide))) rfl
  refine ⟨_, _, sent, ⟨_, List.mem_append_right _ (List.mem_singleton_self _), rfl, rfl⟩,
    only_conn_sent sent ?_⟩
  intro visit member
  simp only [List.append_assoc, List.mem_append, List.mem_singleton] at member
  rcases member with old | rfl | rfl | rfl | rfl
  · exact guarded visit old
  · intro _ off
    cases off
  · intro here
    cases here
  · intro here
    cases here
  · intro here
    cases here

/-- A line typed after a disconnection, at the prompt `user_input` was already waiting at. -/
theorem sent_while_unconnected :
    ∃ trace run, (inputRuns (ι := Unit)).Execution trace run ∧
      ∃ visit ∈ trace, (visit.1.state.locs visit.2.thread).sends = [ascii "say$ hi"] ∧
        ¬ visit.1.OnlyConn visit.2 := by
  obtain ⟨trace, unconnected, awaiting, -⟩ := exists_awaiting
  have arrived := InputRun.extend awaiting
    (.move (InputThread.handler ()) rfl InputMove.disconnResponse) rfl
  have disconnected := InputRun.extend arrived (.leave (InputThread.handler ()) rfl rfl (.lost
    fun thread loc asleep => InputState.awaiting_awake _ _ _ (asleep_of_update_awake
      (asleep_of_update_awake asleep)))) rfl
  have typed := InputRun.extend disconnected
    (.move InputThread.postConnection rfl (InputMove.line typedLine)) rfl
  have sent := InputRun.extend typed
    (.move InputThread.postConnection rfl (InputMove.done (ascii "say$ hi") (by decide))) rfl
  refine ⟨_, _, sent, _, List.mem_append_right _ (List.mem_singleton_self _), rfl, fun only => ?_⟩
  obtain ⟨username, -, same⟩ := only (ascii "say$ hi") rfl rfl
    (InputRun.next_unconnected rfl rfl) (List.cons_ne_nil (ascii "say$ hi") [])
  have first : some (UInt8.ofNat 's'.toNat) = some (UInt8.ofNat 'c'.toNat) :=
    congrArg List.head? same
  exact absurd first (by decide)

end MultithreadedChat
