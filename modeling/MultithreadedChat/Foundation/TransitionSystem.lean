import Mathlib.Data.List.Forall2

/-! # Labelled transition systems and their executions

An execution is recorded as the list of the steps taken, each with the state it
left and its label (`TransitionSystem.Execution`). A property of every run is an
invariant of `TransitionSystem.Reachable`; a property that holds only while every
step meets a condition on the state before it is a guarded invariant
(`TransitionSystem.Execution.guarded_invariant`). When the condition is also
necessary at each step, it characterizes the executions along which the
property holds everywhere (`TransitionSystem.Execution.along_iff`). Executions of a
system that another one simulates are matched step by step
(`TransitionSystem.Simulation.execution`), or by the steps that can be seen of them
(`TransitionSystem.StutteringSimulation.execution`); what a part of the state does in an
execution is an execution of the part (`TransitionSystem.Projection.execution`).
-/

/-- A labelled transition system: its initial states and its steps. -/
structure TransitionSystem (State Label : Type*) where
  initial : State → Prop
  step : State → Label → State → Prop

namespace TransitionSystem

variable {State Label : Type*} (system : TransitionSystem State Label)

/-- An execution ends in a state and remembers, in order, the state before every
step and the label of that step. -/
inductive Execution : List (State × Label) → State → Prop
  | start {state : State} : system.initial state → Execution [] state
  | step {trace : List (State × Label)} {before after : State} {label : Label} :
      Execution trace before → system.step before label after →
        Execution (trace ++ [(before, label)]) after

/-- A state some execution ends in. -/
def Reachable (state : State) : Prop := ∃ trace, system.Execution trace state

variable {system}

theorem Reachable.start {state : State} (initial : system.initial state) :
    system.Reachable state :=
  ⟨[], .start initial⟩

theorem Reachable.step {before after : State} {label : Label}
    (reachable : system.Reachable before) (moved : system.step before label after) :
    system.Reachable after := by
  obtain ⟨trace, execution⟩ := reachable
  exact ⟨_, execution.step moved⟩

/-- A property that holds initially and is kept by every step allowed by the
guard holds at the end of every execution whose steps the guard allows. -/
theorem Execution.guarded_invariant {I : State → Prop} {G : State → Label → Prop}
    (initially : ∀ state, system.initial state → I state)
    (kept : ∀ before label after, I before → G before label →
      system.step before label after → I after)
    {trace : List (State × Label)} {state : State} (execution : system.Execution trace state)
    (guarded : ∀ visit ∈ trace, G visit.1 visit.2) : I state := by
  induction execution with
  | start initial => exact initially _ initial
  | @step trace before after label _ moved ih =>
      apply kept before label after _ (guarded (before, label) (by simp)) moved
      exact ih fun visit member => guarded visit (List.mem_append_left _ member)

/-- A property that holds initially and is kept by every step holds in every
reachable state. -/
theorem Reachable.invariant {I : State → Prop}
    (initially : ∀ state, system.initial state → I state)
    (kept : ∀ before label after, I before → system.step before label after →
      I after)
    {state : State} (reachable : system.Reachable state) : I state := by
  obtain ⟨trace, execution⟩ := reachable
  exact execution.guarded_invariant (G := fun _ _ => True) initially
    (fun before label after holds _ moved => kept before label after holds moved)
    fun _ _ => trivial

/-- Every step of an execution was taken from a state that the execution up to
that step ends in. -/
theorem Execution.visited {trace : List (State × Label)} {state : State}
    (execution : system.Execution trace state) {visit : State × Label} (member : visit ∈ trace) :
    ∃ earlier, earlier <+: trace ∧ system.Execution earlier visit.1 := by
  induction execution with
  | start => simp at member
  | @step trace before after label execution _ ih =>
      rcases List.mem_append.mp member with old | last
      · obtain ⟨earlier, initialPart, run⟩ := ih old
        exact ⟨earlier, initialPart.trans (List.prefix_append _ _), run⟩
      · obtain rfl := List.mem_singleton.mp last
        exact ⟨trace, List.prefix_append _ _, execution⟩

/-- If the property holds initially and a step out of a state with the property
keeps it exactly when the guard allows the step, then it holds all along an
execution exactly when the guard allowed every step. -/
theorem Execution.along_iff {I : State → Prop} {G : State → Label → Prop}
    (initially : ∀ state, system.initial state → I state)
    (exact_step : ∀ before label after, system.Reachable before → I before →
      system.step before label after → (I after ↔ G before label))
    {trace : List (State × Label)} {state : State} (execution : system.Execution trace state) :
    ((∀ visit ∈ trace, I visit.1) ∧ I state) ↔
      ∀ visit ∈ trace, G visit.1 visit.2 := by
  induction execution with
  | start initial => simp [initially _ initial]
  | @step trace before after label execution moved ih =>
      simp only [List.mem_append, List.mem_singleton]
      constructor
      · rintro ⟨visited, last⟩ visit (old | rfl)
        · have earlier := ih.mp ⟨fun other member => visited other (Or.inl member),
            visited (before, label) (Or.inr rfl)⟩
          exact earlier visit old
        · have holds := visited (before, label) (Or.inr rfl)
          exact (exact_step before label after ⟨_, execution⟩ holds moved).mp last
      · intro guarded
        obtain ⟨visited, holds⟩ := ih.mpr fun visit member => guarded visit (Or.inl member)
        refine ⟨?_, (exact_step before label after ⟨_, execution⟩ holds moved).mpr
          (guarded (before, label) (Or.inr rfl))⟩
        rintro visit (old | rfl)
        · exact visited visit old
        · exact holds

/-- The steps that a guard allows. -/
def restrict (system : TransitionSystem State Label) (guard : State → Label → Prop) :
    TransitionSystem State Label where
  initial := system.initial
  step before label after := guard before label ∧ system.step before label after

theorem Execution.restrict {guard : State → Label → Prop} {trace : List (State × Label)}
    {state : State} (execution : system.Execution trace state)
    (guarded : ∀ visit ∈ trace, guard visit.1 visit.2) :
    (system.restrict guard).Execution trace state := by
  induction execution with
  | start initial => exact .start initial
  | step _ moved ih =>
      have before := ih fun visit member => guarded visit (List.mem_append_left _ member)
      have now := guarded _ (List.mem_append_right _ (List.mem_singleton.mpr rfl))
      exact before.step ⟨now, moved⟩

/-- The runs from a state on whose labels are allowed. -/
def onward (system : TransitionSystem State Label) (state : State) (allowed : Label → Prop) :
    TransitionSystem State Label where
  initial other := other = state
  step before label after := allowed label ∧ system.step before label after

section Onward

variable {allowed : Label → Prop} {trace trace' : List (State × Label)} {state state' : State}

theorem Execution.rest (_ : system.Execution trace state) (allowed : Label → Prop) :
    (system.onward state allowed).Execution [] state :=
  .start rfl

/-- Going on from the end of an execution. -/
theorem Execution.append (execution : system.Execution trace state)
    (run : (system.onward state allowed).Execution trace' state') :
    system.Execution (trace ++ trace') state' := by
  induction run with
  | start initial =>
      cases initial
      rwa [List.append_nil]
  | step _ moved ih =>
      rw [← List.append_assoc]
      exact ih.step moved.2

theorem Execution.allowed_of_onward (run : (system.onward state allowed).Execution trace' state') :
    ∀ visit ∈ trace', allowed visit.2 := by
  induction run with
  | start => exact fun _ member => by cases member
  | step _ moved ih =>
      intro visit member
      rcases List.mem_append.mp member with old | last
      · exact ih visit old
      · obtain rfl := List.mem_singleton.mp last
        exact moved.1

/-- Steps that lower a measure are at most as many as the measure counts. -/
theorem Execution.length_onward_le {measure : State → ℕ}
    (lowers : ∀ before label after, system.Reachable before → allowed label →
      system.step before label after → measure after < measure before)
    (execution : system.Execution trace state)
    (run : (system.onward state allowed).Execution trace' state') :
    trace'.length + measure state' ≤ measure state := by
  induction run with
  | start initial =>
      cases initial
      simp
  | step run moved ih =>
      have lower := lowers _ _ _ ⟨_, execution.append run⟩ moved.1 moved.2
      rw [List.length_append, List.length_singleton]
      omega

/-- Steps that lower a measure can be taken until no more is possible. -/
theorem Execution.exists_standstill {measure : State → ℕ}
    (lowers : ∀ before label after, system.Reachable before → allowed label →
      system.step before label after → measure after < measure before)
    (execution : system.Execution trace state) :
    ∃ (trace' : List (State × Label)) (state' : State),
      (system.onward state allowed).Execution trace' state' ∧
        ∀ label after, allowed label → ¬ system.step state' label after := by
  by_contra never
  have longer : ∀ count : ℕ, ∃ trace' state',
      (system.onward state allowed).Execution trace' state' ∧ trace'.length = count := by
    intro count
    induction count with
    | zero => exact ⟨[], state, execution.rest allowed, rfl⟩
    | succ count ih =>
        obtain ⟨trace', state', run, rfl⟩ := ih
        obtain ⟨label, after, permitted, moved⟩ :
            ∃ label after, allowed label ∧ system.step state' label after := by
          by_contra still
          exact never ⟨trace', state', run, fun label after permitted moved =>
            still ⟨label, after, permitted, moved⟩⟩
        exact ⟨_, after, run.step ⟨permitted, moved⟩, List.length_append⟩
  obtain ⟨trace', state', run, long⟩ := longer (measure state + 1)
  have short := length_onward_le lowers execution run
  omega

end Onward

/-- A forward simulation of one system by another: related states take related steps. -/
structure Simulation (concrete : TransitionSystem State Label) {State' Label' : Type*}
    (abstract : TransitionSystem State' Label') where
  states : State → State' → Prop
  labels : Label → Label' → Prop
  initially : ∀ state, concrete.initial state →
    ∃ state', abstract.initial state' ∧ states state state'
  matched : ∀ before label after before', states before before' →
    concrete.step before label after →
      ∃ label' after', abstract.step before' label' after' ∧ labels label label' ∧
        states after after'

/-- An execution is matched by an abstract execution with related labels. -/
theorem Simulation.execution {concrete : TransitionSystem State Label} {State' Label' : Type*}
    {abstract : TransitionSystem State' Label'} (simulation : concrete.Simulation abstract)
    {trace : List (State × Label)} {state : State} (execution : concrete.Execution trace state) :
    ∃ trace' state', abstract.Execution trace' state' ∧ simulation.states state state' ∧
      List.Forall₂ simulation.labels (trace.map Prod.snd) (trace'.map Prod.snd) := by
  induction execution with
  | start initial =>
      obtain ⟨state', initial', related⟩ := simulation.initially _ initial
      exact ⟨[], state', .start initial', related, .nil⟩
  | step _ moved ih =>
      obtain ⟨trace', before', execution', related, labelled⟩ := ih
      obtain ⟨label', after', moved', same, related'⟩ :=
        simulation.matched _ _ _ _ related moved
      refine ⟨_, after', execution'.step moved', related', ?_⟩
      rw [List.map_append, List.map_append]
      exact List.rel_append labelled (.cons same .nil)

/-- A forward simulation where the other system takes a step only if something can be seen
of a step: the label of its step. -/
structure StutteringSimulation (concrete : TransitionSystem State Label) {State' Label' : Type*}
    (abstract : TransitionSystem State' Label') where
  states : State → State' → Prop
  visible : State → Label → Option Label'
  initially : ∀ state, concrete.initial state →
    ∃ state', abstract.initial state' ∧ states state state'
  hidden : ∀ before label after before', states before before' →
    concrete.step before label after → visible before label = none → states after before'
  matched : ∀ before label after before' label', states before before' →
    concrete.step before label after → visible before label = some label' →
      ∃ after', abstract.step before' label' after' ∧ states after after'

section Stuttering

variable {concrete : TransitionSystem State Label} {State' Label' : Type*}
  {abstract : TransitionSystem State' Label'} (simulation : concrete.StutteringSimulation abstract)
  {trace : List (State × Label)} {state : State} (run : concrete.Execution trace state)
include run

/-- What can be seen of an execution is an execution of the other system, whose steps are taken
from states related to those of the visible steps. -/
theorem StutteringSimulation.visits :
    ∃ trace' state', abstract.Execution trace' state' ∧ simulation.states state state' ∧
      trace'.map Prod.snd = (trace.filterMap fun visit => simulation.visible visit.1 visit.2) ∧
      ∀ visit' ∈ trace', ∃ visit ∈ trace, simulation.states visit.1 visit'.1 ∧
        simulation.visible visit.1 visit.2 = some visit'.2 := by
  induction run with
  | start initial =>
      obtain ⟨state', initial', related⟩ := simulation.initially _ initial
      exact ⟨[], state', .start initial', related, rfl, List.forall_mem_nil _⟩
  | @step trace before after label _ moved ih =>
      obtain ⟨trace', before', execution', related, labelled, visited⟩ := ih
      have old : ∀ visit' ∈ trace', ∃ visit ∈ trace ++ [(before, label)],
          simulation.states visit.1 visit'.1 ∧
            simulation.visible visit.1 visit.2 = some visit'.2 := by
        intro visit' member
        obtain ⟨visit, earlier, same⟩ := visited visit' member
        exact ⟨visit, List.mem_append_left _ earlier, same⟩
      cases seen : simulation.visible before label with
      | none =>
          refine ⟨trace', before', execution', simulation.hidden _ _ _ _ related moved seen, ?_,
            old⟩
          rw [List.filterMap_append, labelled]
          simp [seen]
      | some label' =>
          obtain ⟨after', moved', related'⟩ :=
            simulation.matched _ _ _ _ _ related moved seen
          refine ⟨_, after', execution'.step moved', related', ?_, ?_⟩
          · rw [List.filterMap_append, List.map_append, labelled]
            simp [seen]
          · refine List.forall_mem_append.mpr ⟨old, List.forall_mem_singleton.mpr ?_⟩
            exact ⟨(before, label), List.mem_append_right _ List.mem_cons_self, related, seen⟩

/-- What can be seen of an execution is an execution of the other system. -/
theorem StutteringSimulation.execution :
    ∃ trace' state', abstract.Execution trace' state' ∧ simulation.states state state' ∧
      trace'.map Prod.snd = trace.filterMap fun visit => simulation.visible visit.1 visit.2 := by
  obtain ⟨trace', state', execution', related, labelled, -⟩ := simulation.visits run
  exact ⟨trace', state', execution', related, labelled⟩

end Stuttering

/-- A part of the state with the labels of its steps; all other steps leave it. -/
structure Projection (system : TransitionSystem State Label) {State' Label' : Type*}
    (part : TransitionSystem State' Label') where
  state : State → State'
  label : Label → Option Label'
  initially : ∀ before, system.initial before → part.initial (state before)
  hidden : ∀ before event after, system.step before event after → label event = none →
    state after = state before
  matched : ∀ before event after event', system.step before event after →
    label event = some event' → part.step (state before) event' (state after)

section Projection

variable {State' Label' : Type*} {part : TransitionSystem State' Label'}
  (projection : system.Projection part)

/-- What the part does in an execution. -/
def Projection.trace (trace : List (State × Label)) : List (State' × Label') :=
  trace.filterMap fun visit => (projection.label visit.2).map (projection.state visit.1, ·)

theorem Projection.trace_append (trace trace' : List (State × Label)) :
    projection.trace (trace ++ trace') = projection.trace trace ++ projection.trace trace' :=
  List.filterMap_append

theorem Projection.execution {trace : List (State × Label)} {state : State}
    (execution : system.Execution trace state) :
    part.Execution (projection.trace trace) (projection.state state) := by
  induction execution with
  | start initial => exact .start (projection.initially _ initial)
  | @step trace before after label _ moved ih =>
      rw [projection.trace_append]
      cases seen : projection.label label with
      | none =>
          rw [projection.hidden _ _ _ moved seen]
          simpa [Projection.trace, seen] using ih
      | some label' =>
          have step := ih.step (projection.matched _ _ _ _ moved seen)
          simpa [Projection.trace, seen] using step

end Projection

end TransitionSystem
