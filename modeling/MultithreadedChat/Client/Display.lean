import MultithreadedChat.Client.ResponseOrder
import MultithreadedChat.Foundation.ConditionVariable

/-! # The display of the client

`chat_display` draws the screen whenever it is woken, and the handlers of responses
signal it after each change. The wait has no predicate, so a signal that finds the
display on its way back to the wait is lost, and the change behind it stays off the
screen (`MultithreadedChat.muted_off_screen`). If every signal finds the display asleep
or woken and not yet drawing, the screen is never stale
(`MultithreadedChat.display_fresh`).
-/

namespace MultithreadedChat

open ConditionVariable CString

/-- The condition variable `messages_cond`. -/
inductive DisplayCond
  | messages
  deriving DecidableEq, Repr

/-- The display, and the threads that handle responses. -/
inductive DisplayThread (ι : Type*)
  | display
  | handler (thread : ι)
  deriving DecidableEq

/-- Where a thread is: before the first screen, about to wait, about to draw, between
responses, or in a handler with so many sections left. -/
inductive DisplayLoc
  | starting
  | waiting
  | redraw
  | idle
  | handling (parts : List Section)

/-- The client, and what of it the display drew last. The latter is not in the source. -/
structure Screen where
  client : ClientState
  drawn : ClientView

/-- The first screen has the prompt and no lines; the table of muted names is not read. -/
def ClientState.firstScreen (client : ClientState) : ClientView :=
  ⟨client.name, client.connected, ∅, []⟩

/-- A response arrives, or its handler returns. -/
inductive DisplayMove : DisplayLoc → DisplayLoc → Prop
  | respond (command : CommandMemory) : DisplayMove .idle (.handling (sections command))
  | finish : DisplayMove (.handling []) .idle

/-- `chat_display` and the handlers, cut at their sections. -/
def displayProgram : Program Screen DisplayCond DisplayLoc where
  move := DisplayMove
  critical
    | .starting, screen =>
      some (.leave { screen with drawn := screen.client.firstScreen } .waiting none)
    | .waiting, screen => some (.wait screen .messages .redraw)
    | .redraw, screen => some (.leave { screen with drawn := screen.client.view } .waiting none)
    | .handling (part :: rest), screen =>
      match part.run screen.client with
      | .ok client => some (.leave { screen with client } (.handling rest)
          (if part.signals then some (.signal .messages) else none))
      | .error _ => none
    | .handling [], _ | .idle, _ => none

variable {ι : Type*}

abbrev DisplayState (ι : Type*) := State (DisplayThread ι) Screen DisplayCond DisplayLoc

/-- `main` before the first response, with whatever the memory held for the name and the
messages; nothing has been drawn. -/
def DisplayState.start (name : List UInt8) (messages : Fin maxMsgs → List UInt8)
    (drawn : ClientView) : DisplayState ι where
  shared := ⟨⟨name, false, .empty, messages, 0⟩, drawn⟩
  threads
    | .display => .awake .starting
    | .handler _ => .awake .idle

variable [DecidableEq ι]

/-- All runs of the display and any number of handlers. -/
def displaySystem : TransitionSystem (DisplayState ι) (DisplayThread ι × Action) :=
  displayProgram.system fun state =>
    ∃ name messages drawn, state = DisplayState.start name messages drawn

omit [DecidableEq ι] in
/-- If the display sleeps and no handler is in progress, the screen shows the client. -/
def Fresh (state : DisplayState ι) : Prop :=
  (∃ cond loc, state.threads .display = .asleep cond loc) →
    (∀ thread, state.locs (.handler thread) = .idle) →
      state.shared.client.view = state.shared.drawn

/-- If the step is a section of a handler that signals, the display sleeps or has been
woken and has not drawn yet. -/
def Heard (state : DisplayState ι) (label : DisplayThread ι × Action) : Prop :=
  ∀ thread part rest, label = (.handler thread, .critical) →
    state.locs (.handler thread) = .handling (part :: rest) → part.signals = true →
      (∃ cond loc, state.threads .display = .asleep cond loc) ∨
        state.threads .display = .awake .redraw

/-! ## Sections and what they announce -/

namespace Section

/-- A section that does not signal leaves the muted names and the log. -/
theorem kept_of_silent {part : Section} {client after : ClientState}
    (silent : part.signals = false) (ran : part.run client = .ok after) :
    after.view.muted = client.view.muted ∧ after.view.log = client.view.log := by
  cases part with
  | connect | disconnect =>
      cases ran
      exact ⟨rfl, rfl⟩
  | error command =>
      obtain ⟨-, rfl⟩ := executeErrorResponse_eq_ok_iff.mp ran
      exact ⟨rfl, rfl⟩
  | say | mute | unmute | rename | connectRedraw | disconnectClear => cases silent

/-- Sections of which every one that changes the client without a signal is followed by
one that signals. -/
def Announced : List Section → Prop
  | [] => True
  | part :: rest => (part.signals = true ∨ (∃ command, part = .error command) ∨
      ∃ later ∈ rest, later.signals = true) ∧ Announced rest

end Section

/-- Every handler announces what it changes. -/
theorem announced_sections (command : CommandMemory) : Section.Announced (sections command) := by
  rw [sections]
  cases CommandKind.ofCode command.kind with
  | none => trivial
  | some kind =>
      cases kind with
      | connSuccess => exact ⟨.inr (.inr ⟨_, List.mem_cons_self, rfl⟩), .inl rfl, trivial⟩
      | disconnResponse => exact ⟨.inr (.inr ⟨_, List.mem_cons_self, rfl⟩), .inl rfl, trivial⟩
      | connFailed | error => exact ⟨.inr (.inl ⟨_, rfl⟩), trivial⟩
      | say | mute | unmute | rename => exact ⟨.inl rfl, trivial⟩
      | conn | sayto | disconn | kick | ping | retping | unknown => trivial

/-- What a section does: draw, go to sleep, or run a section of a handler. -/
theorem displayProgram_cases {loc : DisplayLoc} {screen : Screen}
    {outcome : Outcome Screen DisplayCond DisplayLoc}
    (ran : displayProgram.critical loc screen = some outcome) :
    (loc = .starting ∧
        outcome = .leave { screen with drawn := screen.client.firstScreen } .waiting none) ∨
      (loc = .waiting ∧ outcome = .wait screen .messages .redraw) ∨
      (loc = .redraw ∧
        outcome = .leave { screen with drawn := screen.client.view } .waiting none) ∨
      ∃ part rest client, loc = .handling (part :: rest) ∧ part.run screen.client = .ok client ∧
        outcome = .leave { screen with client } (.handling rest)
          (if part.signals then some (.signal .messages) else none) := by
  cases loc with
  | starting => exact .inl ⟨rfl, (Option.some.inj ran).symm⟩
  | waiting => exact .inr (.inl ⟨rfl, (Option.some.inj ran).symm⟩)
  | redraw => exact .inr (.inr (.inl ⟨rfl, (Option.some.inj ran).symm⟩))
  | idle => cases ran
  | handling parts =>
      cases parts with
      | nil => cases ran
      | cons part rest =>
          cases done : part.run screen.client with
          | error fault =>
              simp [displayProgram, done] at ran
          | ok client =>
              refine .inr (.inr (.inr ⟨part, rest, client, rfl, done, ?_⟩))
              simp only [displayProgram, done, Option.some.injEq] at ran
              exact ran.symm

/-! ## What the screen shows -/

/-- A handler that is going to signal. -/
def DisplayLoc.Announces (loc : DisplayLoc) : Prop :=
  ∃ parts, loc = .handling parts ∧ ∃ part ∈ parts, part.signals = true

/-- A location of the display, with what the first screen relies on. -/
def DisplayLoc.Shows (client : ClientView) : DisplayLoc → Prop
  | .starting => client.muted = ∅ ∧ client.log = []
  | .waiting | .redraw => True
  | .idle | .handling _ => False

/-- A location of a handler, which announces what it changes. -/
def DisplayLoc.Handles : DisplayLoc → Prop
  | .idle => True
  | .handling parts => Section.Announced parts
  | .starting | .waiting | .redraw => False

/-- Only the display sleeps, and while it sleeps or is about to, the screen shows the
client or a handler is going to signal. -/
structure Shown (screen : Screen) (threads : DisplayThread ι → Thread DisplayCond DisplayLoc) :
    Prop where
  display : (threads .display).loc.Shows screen.client.view
  handlers : ∀ thread, (threads (.handler thread)).loc.Handles
  awake : ∀ thread cond loc, threads (.handler thread) ≠ .asleep cond loc
  sleeps : ∀ cond loc, threads .display = .asleep cond loc → loc = .redraw
  shown : (∃ cond loc, threads .display = .asleep cond loc) ∨ threads .display = .awake .waiting →
    screen.client.view = screen.drawn ∨ ∃ thread, (threads (.handler thread)).loc.Announces

namespace Shown

variable {screen : Screen} {threads : DisplayThread ι → Thread DisplayCond DisplayLoc}

omit [DecidableEq ι] in
/-- A thread at a location of the display is the display. -/
theorem eq_display (shown : Shown screen threads) {thread : DisplayThread ι} {loc : DisplayLoc}
    (running : threads thread = .awake loc) (there : ¬ loc.Handles) : thread = .display := by
  cases thread with
  | display => rfl
  | handler thread =>
      have here := shown.handlers thread
      rw [running] at here
      exact absurd here there

omit [DecidableEq ι] in
/-- A thread at a location of a handler is a handler. -/
theorem eq_handler (shown : Shown screen threads) {thread : DisplayThread ι} {loc : DisplayLoc}
    (running : threads thread = .awake loc) (there : ¬ loc.Shows screen.client.view) :
    ∃ handler, thread = .handler handler := by
  cases thread with
  | handler thread => exact ⟨thread, rfl⟩
  | display =>
      have here := shown.display
      rw [running] at here
      exact absurd here there

/-- The display goes on. -/
theorem display_goes (shown : Shown screen threads) {next : Thread DisplayCond DisplayLoc}
    {drawn : ClientView} (there : next.loc.Shows screen.client.view)
    (sleeps : ∀ cond loc, next = .asleep cond loc → loc = .redraw)
    (now : (∃ cond loc, next = .asleep cond loc) ∨ next = .awake .waiting →
      screen.client.view = drawn ∨ ∃ thread, (threads (.handler thread)).loc.Announces) :
    Shown { screen with drawn } (Function.update threads .display next) := by
  have others : ∀ thread, Function.update threads .display next (.handler thread) =
      threads (.handler thread) := fun thread => Function.update_of_ne (by simp) ..
  constructor
  · rwa [Function.update_self]
  · intro thread
    rw [others]
    exact shown.handlers thread
  · intro thread
    rw [others]
    exact shown.awake thread
  · rwa [Function.update_self]
  · simp only [Function.update_self, others]
    exact now

/-- A handler goes on. -/
theorem handler_goes (shown : Shown screen threads) {thread : ι} {next : DisplayLoc}
    {client : ClientState} (there : next.Handles)
    (display : (threads .display).loc.Shows client.view)
    (now : (∃ cond loc, threads .display = .asleep cond loc) ∨
        threads .display = .awake .waiting →
      client.view = screen.drawn ∨ next.Announces ∨
        ∃ other, other ≠ thread ∧ (threads (.handler other)).loc.Announces) :
    Shown { screen with client }
      (Function.update threads (.handler thread) (.awake next)) := by
  have same : Function.update threads (.handler thread) (.awake next) .display =
      threads .display := Function.update_of_ne (by simp) ..
  have others : ∀ other, other ≠ thread →
      Function.update threads (.handler thread) (.awake next) (.handler other) =
        threads (.handler other) :=
    fun other apart => Function.update_of_ne (by simpa using apart) ..
  constructor
  · rwa [same]
  · intro other
    by_cases itself : other = thread
    · rwa [itself, Function.update_self]
    · rw [others other itself]
      exact shown.handlers other
  · intro other cond loc asleep
    exact shown.awake other cond loc (asleep_of_update_awake asleep)
  · rw [same]
    exact shown.sleeps
  · rw [same]
    intro settled
    rcases now settled with drawn | announces | ⟨other, apart, announces⟩
    · exact .inl drawn
    · refine .inr ⟨thread, ?_⟩
      rwa [Function.update_self]
    · refine .inr ⟨other, ?_⟩
      rwa [others other apart]

/-- A response arrives, or a handler returns. -/
theorem move (shown : Shown screen threads) {thread : DisplayThread ι} {loc next : DisplayLoc}
    (running : threads thread = .awake loc) (allowed : DisplayMove loc next) :
    Shown screen (Function.update threads thread (.awake next)) := by
  have client : ¬ loc.Shows screen.client.view := by
    cases allowed <;> exact not_false
  obtain ⟨handler, rfl⟩ := shown.eq_handler running client
  have kept : ∀ other, (threads (.handler other)).loc.Announces → other ≠ handler := by
    rintro other ⟨parts, here, part, member, -⟩ rfl
    rw [running, Thread.loc_awake] at here
    subst here
    cases allowed
    cases member
  refine shown.handler_goes ?_ shown.display fun settled => ?_
  · cases allowed with
    | respond command => exact announced_sections command
    | finish => trivial
  · rcases shown.shown settled with drawn | ⟨other, announces⟩
    · exact .inl drawn
    · exact .inr (.inr ⟨other, kept other announces, announces⟩)

/-- A section that does not signal is followed by one that does, or changes nothing. -/
theorem silent (shown : Shown screen threads) {thread : ι} {part : Section} {rest : List Section}
    {client : ClientState} (running : threads (.handler thread) = .awake (.handling (part :: rest)))
    (quiet : part.signals = false) (ran : part.run screen.client = .ok client) :
    Shown { screen with client }
      (Function.update threads (.handler thread) (.awake (.handling rest))) := by
  have announced : Section.Announced (part :: rest) := by
    have here := shown.handlers thread
    rwa [running] at here
  obtain ⟨muted, log⟩ := part.kept_of_silent quiet ran
  refine shown.handler_goes announced.2 ?_ fun settled => ?_
  · have here := shown.display
    cases there : (threads .display).loc with
    | starting =>
        rw [there] at here
        exact ⟨muted.trans here.1, log.trans here.2⟩
    | waiting | redraw => trivial
    | idle | handling =>
        rw [there] at here
        exact here
  · rcases announced.1 with loud | ⟨command, rfl⟩ | ⟨later, member, loud⟩
    · cases quiet.symm.trans loud
    · obtain ⟨-, rfl⟩ := executeErrorResponse_eq_ok_iff.mp ran
      rcases shown.shown settled with drawn | ⟨other, announces⟩
      · exact .inl drawn
      · by_cases same : other = thread
        · subst same
          obtain ⟨parts, here, part, member, loud⟩ := announces
          rw [running] at here
          cases here
          rcases List.mem_cons.mp member with rfl | member
          · cases loud
          · exact .inr (.inl ⟨rest, rfl, part, member, loud⟩)
        · exact .inr (.inr ⟨other, same, announces⟩)
    · exact .inr (.inl ⟨rest, rfl, later, member, loud⟩)

/-- A section that signals is heard: the display is going to draw. -/
theorem signalled (shown : Shown screen threads) {thread : ι} {part : Section}
    {rest : List Section} {client : ClientState}
    {woken : DisplayThread ι → Thread DisplayCond DisplayLoc}
    (running : threads (.handler thread) = .awake (.handling (part :: rest)))
    (heard : (∃ cond loc, threads .display = .asleep cond loc) ∨
      threads .display = .awake .redraw)
    (wakes : Woken (some (.signal .messages))
      (Function.update threads (.handler thread) (.awake (.handling rest))) woken) :
    Shown { screen with client } woken := by
  have same : Function.update threads (.handler thread) (.awake (.handling rest)) .display =
      threads .display := Function.update_of_ne (by simp) ..
  have drawing : woken .display = .awake .redraw := by
    rcases heard with ⟨⟨⟩, loc, asleep⟩ | awake
    · obtain ⟨chosen, there, slept, woke⟩ := wakes.signal_wakes (same.trans asleep)
      cases chosen with
      | handler other => exact absurd (asleep_of_update_awake slept) (shown.awake other _ _)
      | display =>
          have sleeping := same.symm.trans slept
          rwa [shown.sleeps _ _ sleeping] at woke
    · have loc := wakes.loc_eq .display
      rw [same, awake] at loc
      cases now : woken .display with
      | awake there =>
          rw [now] at loc
          exact congrArg Thread.awake loc
      | asleep cond there =>
          have slept := same.symm.trans (wakes.asleep_before now)
          cases awake.symm.trans slept
  constructor
  · rw [drawing]
    trivial
  · intro other
    rw [wakes.loc_eq]
    by_cases itself : other = thread
    · have here := shown.handlers thread
      rw [running] at here
      rw [itself, Function.update_self]
      exact here.2
    · rw [Function.update_of_ne (by simpa using itself)]
      exact shown.handlers other
  · intro other cond loc asleep
    exact shown.awake other cond loc (asleep_of_update_awake (wakes.asleep_before asleep))
  · intro cond loc asleep
    cases drawing.symm.trans asleep
  · rintro (⟨cond, loc, asleep⟩ | waiting)
    · cases drawing.symm.trans asleep
    · cases drawing.symm.trans waiting

/-- Every step keeps the screen shown, if signals are heard. -/
theorem step {before after : DisplayState ι} {label : DisplayThread ι × Action}
    (shown : Shown before.shared before.threads) (heard : Heard before label)
    (moved : Step displayProgram before label after) : Shown after.shared after.threads := by
  cases moved with
  | move thread running allowed => exact shown.move running allowed
  | @wait thread loc screen cond resume running ran =>
      rcases displayProgram_cases ran with ⟨-, same⟩ | ⟨rfl, same⟩ | ⟨-, same⟩ |
        ⟨_, _, _, -, -, same⟩
      all_goals cases same
      obtain rfl := shown.eq_display running not_false
      refine shown.display_goes trivial ?_ fun _ => shown.shown (.inr running)
      intro cond loc asleep
      cases asleep
      rfl
  | @leave thread loc screen next wake threads running ran woken =>
      rcases displayProgram_cases ran with ⟨rfl, same⟩ | ⟨rfl, same⟩ | ⟨rfl, same⟩ |
        ⟨part, rest, client, rfl, done, same⟩
      · cases same
        cases woken
        obtain rfl := shown.eq_display running not_false
        have first := shown.display
        rw [running] at first
        refine shown.display_goes trivial (fun _ _ asleep => by cases asleep) fun _ => .inl ?_
        have blank : before.shared.client.firstScreen =
            ⟨before.shared.client.view.name, before.shared.client.view.connected, ∅, []⟩ := rfl
        rw [blank, ← first.1, ← first.2]
      · cases same
      · cases same
        cases woken
        obtain rfl := shown.eq_display running not_false
        exact shown.display_goes trivial (fun _ _ asleep => by cases asleep) fun _ => .inl rfl
      · obtain ⟨handler, rfl⟩ := shown.eq_handler running not_false
        have here : before.locs (.handler handler) = .handling (part :: rest) := by
          rw [State.locs, running, Thread.loc_awake]
        cases loud : part.signals with
        | true =>
            rw [loud] at same
            cases same
            exact shown.signalled running (heard handler part rest rfl here loud) woken
        | false =>
            rw [loud] at same
            cases same
            cases woken
            exact shown.silent running loud done
  | @spurious thread cond loc asleep =>
      cases thread with
      | handler thread => exact absurd asleep (shown.awake thread cond loc)
      | display =>
          obtain rfl := shown.sleeps cond loc asleep
          refine shown.display_goes trivial (fun _ _ asleep => by cases asleep) fun settled => ?_
          rcases settled with ⟨_, _, asleep⟩ | waiting
          · cases asleep
          · cases waiting

end Shown

/-- The screen at the end of a run in which signals are heard. -/
theorem shown_of_heard {trace : List (DisplayState ι × (DisplayThread ι × Action))}
    {state : DisplayState ι} (execution : displaySystem.Execution trace state)
    (heard : ∀ visit ∈ trace, Heard visit.1 visit.2) : Shown state.shared state.threads := by
  refine execution.guarded_invariant (I := fun state => Shown state.shared state.threads)
    (G := Heard) ?_ (fun _ _ _ shown heard moved => shown.step heard moved) heard
  rintro state ⟨name, messages, drawn, rfl⟩
  constructor
  · exact ⟨Set.eq_empty_of_forall_notMem fun _ present => Bool.false_ne_true present, rfl⟩
  · intro thread
    trivial
  · intro thread cond loc asleep
    cases asleep
  · intro cond loc asleep
    cases asleep
  · rintro (⟨cond, loc, asleep⟩ | waiting)
    · cases asleep
    · cases waiting

omit [DecidableEq ι] in
theorem Shown.fresh {state : DisplayState ι} (shown : Shown state.shared state.threads) :
    Fresh state := by
  intro asleep idle
  rcases shown.shown (.inl asleep) with drawn | ⟨thread, parts, here, -⟩
  · exact drawn
  · cases (idle thread).symm.trans here

/-- **A fresh screen.** In a run in which every section that signals finds the display
asleep or woken and not yet drawing, whenever the display sleeps and no handler is in
progress, the screen shows the messages, the muted names, the name and the connection flag
of the client. -/
theorem display_fresh {trace : List (DisplayState ι × (DisplayThread ι × Action))}
    {state : DisplayState ι} (execution : displaySystem.Execution trace state)
    (heard : ∀ visit ∈ trace, Heard visit.1 visit.2) :
    (∀ visit ∈ trace, Fresh visit.1) ∧ Fresh state := by
  refine ⟨fun visit member => ?_, (shown_of_heard execution heard).fresh⟩
  obtain ⟨earlier, initialPart, reached⟩ := execution.visited member
  exact (shown_of_heard reached fun other old => heard other (initialPart.subset old)).fresh

/-! ## A response while the display sleeps, and one before -/

/-- The section of a mute. -/
theorem mute_critical (command : CommandMemory) (screen : Screen) :
    displayProgram.critical (.handling [.mute command]) screen =
      some (.leave { screen with client := muteExec command screen.client } (.handling [])
        (some (.signal .messages))) := rfl

/-- A mute while the display sleeps. -/
theorem display_fresh_mute :
    ∃ (trace : List (DisplayState Unit × (DisplayThread Unit × Action)))
        (state : DisplayState Unit),
      displaySystem.Execution trace state ∧
      (∃ cond loc, state.threads .display = .asleep cond loc) ∧
      (∀ thread, state.locs (.handler thread) = .idle) ∧
      state.shared.client.view = state.shared.drawn := by
  have start : (displaySystem (ι := Unit)).Execution []
      (.start (ascii "ann") (fun _ => []) ⟨[], false, ∅, []⟩) := .start ⟨_, _, _, rfl⟩
  have first := start.step (.leave DisplayThread.display rfl rfl (.none _))
  have asleep := first.step (.wait DisplayThread.display rfl rfl)
  have arrived := asleep.step (.move (DisplayThread.handler ()) rfl
    (DisplayMove.respond (sampleResponse .mute "bob")))
  have muted := arrived.step (.leave (DisplayThread.handler ()) rfl (mute_critical _ _)
    (.one .display rfl))
  have returned := muted.step (.move (DisplayThread.handler ()) rfl DisplayMove.finish)
  have drawn := returned.step (.leave DisplayThread.display rfl rfl (.none _))
  have again := drawn.step (.wait DisplayThread.display rfl rfl)
  refine ⟨_, _, again, ⟨_, _, rfl⟩, fun _ => rfl, ?_⟩
  refine (display_fresh again ?_).2 ⟨_, _, rfl⟩ fun _ => rfl
  intro visit member
  simp only [List.nil_append, List.cons_append, List.mem_cons, List.not_mem_nil, or_false] at member
  intro thread part rest label here loud
  rcases member with rfl | rfl | rfl | rfl | rfl | rfl | rfl
  · cases label
  · cases label
  · cases label
  · exact .inl ⟨_, _, rfl⟩
  · cases label
  · cases label
  · cases label

/-- A mute while the display is on its way to the wait. -/
theorem muted_off_screen :
    ∃ state : DisplayState Unit, displaySystem.Reachable state ∧ ¬ Fresh state := by
  have start : (displaySystem (ι := Unit)).Reachable
      (.start (ascii "ann") (fun _ => []) ⟨[], false, ∅, []⟩) := .start ⟨_, _, _, rfl⟩
  have first := start.step (.leave DisplayThread.display rfl rfl (.none _))
  have arrived := first.step (.move (DisplayThread.handler ()) rfl
    (DisplayMove.respond (sampleResponse .mute "bob")))
  have muted := arrived.step (.leave (DisplayThread.handler ()) rfl (mute_critical _ _)
    (.lost fun thread loc asleep => by
      have slept := asleep_of_update_awake (asleep_of_update_awake (asleep_of_update_awake asleep))
      rcases thread with _ | _ <;> cases slept))
  have returned := muted.step (.move (DisplayThread.handler ()) rfl DisplayMove.finish)
  have asleep := returned.step (.wait DisplayThread.display rfl rfl)
  refine ⟨_, asleep, fun fresh => ?_⟩
  have sets := congrArg ClientView.muted (fresh ⟨_, _, rfl⟩ fun _ => rfl)
  have drawn := Set.ext_iff.mp sets ((sampleResponse .mute "bob").arg 0)
  exact drawn.mp (mem_muted_muteExec _ _)

end MultithreadedChat
