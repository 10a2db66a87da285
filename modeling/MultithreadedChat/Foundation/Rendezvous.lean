import MultithreadedChat.Foundation.TransitionSystem

/-! # Systems that meet

Two systems side by side, each with steps of its own and with steps that they only take
together, at a meeting (`Rendezvous.system`). What each does in a run of both is a run of it
(`Rendezvous.execution_first`, `Rendezvous.execution_second`), and what one of them hands over
at the meetings is what the other one is given, in order (`Rendezvous.exchanged`).
-/

namespace Rendezvous

variable {State State' Label Label' Meeting : Type*}

/-- The parts that two systems take in a meeting, and the steps that each takes only there. -/
structure Meetings (Meeting Label Label' : Type*) where
  first : Meeting → Label
  second : Meeting → Label'
  firstOnly : Label → Prop
  secondOnly : Label' → Prop

/-- One of the systems takes a step, or both do, at a meeting. -/
inductive Event (Meeting Label Label' : Type*)
  | first (label : Label)
  | both (meeting : Meeting)
  | second (label : Label')

variable (one : TransitionSystem State Label) (two : TransitionSystem State' Label')
  (meetings : Meetings Meeting Label Label')

inductive Step : State × State' → Event Meeting Label Label' → State × State' → Prop
  | first {before after : State} {other : State'} {label : Label} :
      one.step before label after → ¬ meetings.firstOnly label →
        Step (before, other) (.first label) (after, other)
  | both {before after : State} {before' after' : State'} {meeting : Meeting} :
      one.step before (meetings.first meeting) after →
      two.step before' (meetings.second meeting) after' →
        Step (before, before') (.both meeting) (after, after')
  | second {other : State} {before after : State'} {label : Label'} :
      two.step before label after → ¬ meetings.secondOnly label →
        Step (other, before) (.second label) (other, after)

/-- All runs of the two systems side by side. -/
def system : TransitionSystem (State × State') (Event Meeting Label Label') where
  initial pair := one.initial pair.1 ∧ two.initial pair.2
  step := Step one two meetings

/-- What the first system does in an event. -/
def Meetings.firstLabel : Event Meeting Label Label' → Option Label
  | .first label => some label
  | .both meeting => some (meetings.first meeting)
  | .second _ => none

/-- What the second system does in an event. -/
def Meetings.secondLabel : Event Meeting Label Label' → Option Label'
  | .second label => some label
  | .both meeting => some (meetings.second meeting)
  | .first _ => none

def first : (system one two meetings).Projection one where
  state := Prod.fst
  label := meetings.firstLabel
  initially _ initial := initial.1
  hidden := by
    intro before event after moved unseen
    cases moved with
    | second => rfl
    | first | both => cases unseen
  matched := by
    intro before event after label moved seen
    cases moved with
    | first moved _ | both moved _ =>
        cases seen
        exact moved
    | second => cases seen

def second : (system one two meetings).Projection two where
  state := Prod.snd
  label := meetings.secondLabel
  initially _ initial := initial.2
  hidden := by
    intro before event after moved unseen
    cases moved with
    | first => rfl
    | second | both => cases unseen
  matched := by
    intro before event after label moved seen
    cases moved with
    | second moved _ | both _ moved =>
        cases seen
        exact moved
    | first => cases seen

section Traces

variable (trace : List ((State × State') × Event Meeting Label Label'))

/-- The steps of the first system in a run of both. -/
def Meetings.firsts : List (State × Label) :=
  trace.filterMap fun visit => (meetings.firstLabel visit.2).map (visit.1.1, ·)

/-- The steps of the second system in a run of both. -/
def Meetings.seconds : List (State' × Label') :=
  trace.filterMap fun visit => (meetings.secondLabel visit.2).map (visit.1.2, ·)

theorem Meetings.firsts_append (trace' : List ((State × State') × Event Meeting Label Label')) :
    meetings.firsts (trace ++ trace') = meetings.firsts trace ++ meetings.firsts trace' :=
  List.filterMap_append

end Traces

variable {one two meetings} {trace : List ((State × State') × Event Meeting Label Label')}
  {pair : State × State'} (execution : (system one two meetings).Execution trace pair)
include execution

theorem execution_first : one.Execution (meetings.firsts trace) pair.1 :=
  (first one two meetings).execution execution

theorem execution_second : two.Execution (meetings.seconds trace) pair.2 :=
  (second one two meetings).execution execution

/-- If each system is observed exactly at the meetings, and related things are observed of a
meeting, then related things are observed all along. -/
theorem exchanged {α β : Type*} {observe : State × Label → Option α}
    {observe' : State' × Label' → Option β} {related : α → β → Prop}
    (apart : ∀ state label, ¬ meetings.firstOnly label → observe (state, label) = none)
    (apart' : ∀ state label, ¬ meetings.secondOnly label → observe' (state, label) = none)
    (met : ∀ state state' meeting, ∃ given taken,
      observe (state, meetings.first meeting) = some given ∧
        observe' (state', meetings.second meeting) = some taken ∧ related given taken) :
    List.Forall₂ related ((meetings.firsts trace).filterMap observe)
      ((meetings.seconds trace).filterMap observe') := by
  induction execution with
  | start => exact .nil
  | @step trace before after event _ moved ih =>
      rw [Meetings.firsts, Meetings.seconds, List.filterMap_append, List.filterMap_append,
        List.filterMap_append, List.filterMap_append]
      refine List.rel_append ih ?_
      cases moved with
      | @first before _ _ label _ own =>
          simp [Meetings.firstLabel, Meetings.secondLabel, apart, own]
      | @second _ before _ label _ own =>
          simp [Meetings.firstLabel, Meetings.secondLabel, apart', own]
      | @both before _ before' _ meeting =>
          obtain ⟨given, taken, seen, seen', same⟩ := met before before' meeting
          simp [Meetings.firstLabel, Meetings.secondLabel, seen, seen', same]

end Rendezvous
