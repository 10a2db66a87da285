import Mathlib.Logic.Function.Basic
import MultithreadedChat.Foundation.TransitionSystem

/-! # Critical sections, access by access

A section is a tree of accesses to a shared memory: every read and every write is a node,
and what was found decides how it goes on (`CriticalSections.Code`). Threads run sections
access by access. Sections that only read may be inside together, a section that writes is
inside alone (`CriticalSections.Sections.Admits`). What is not in a given view of the memory
may be written by anybody at any time; a section that depends on the view alone is blind to
that (`CriticalSections.Code.Blind`).

Every run of the threads is then one in which the blind sections run whole, one after the
other, in the order in which they leave (`CriticalSections.Sections.serialize`). Their
accesses fault only if the whole section would (`CriticalSections.Sections.Pending.progress`).
-/

namespace CriticalSections

/-- The rest of a section: its result, or an access and what follows it. -/
inductive Code (Fault Mem Result : Type) : Type 1
  | done (result : Result)
  | read {Value : Type} (value : Mem → Except Fault Value)
      (next : Value → Code Fault Mem Result)
  | write {Value : Type} (effect : Mem → Except Fault (Mem × Value))
      (next : Value → Code Fault Mem Result)

variable {Fault Mem View Result : Type}

/-- What is seen of the memory that an access or a section has left. -/
def viewed (view : Mem → View) (left : Except Fault (Mem × Result)) :
    Except Fault (View × Result) :=
  left.map fun left => (view left.1, left.2)

namespace Code

/-- The section run to its end without interference. -/
def run : Code Fault Mem Result → Mem → Except Fault (Mem × Result)
  | done result, mem => .ok (mem, result)
  | read value next, mem => do
    let found ← value mem
    (next found).run mem
  | write effect next, mem => do
    let (mem, found) ← effect mem
    (next found).run mem

/-- One access. -/
inductive Step : Code Fault Mem Result → Mem → Mem → Code Fault Mem Result → Prop
  | read {Value : Type} {value : Mem → Except Fault Value}
      {next : Value → Code Fault Mem Result} {mem : Mem} {found : Value} :
      value mem = .ok found → Step (.read value next) mem mem (next found)
  | write {Value : Type} {effect : Mem → Except Fault (Mem × Value)}
      {next : Value → Code Fault Mem Result} {mem mem' : Mem} {found : Value} :
      effect mem = .ok (mem', found) → Step (.write effect next) mem mem' (next found)

/-- The section writes nothing. -/
def Reads : Code Fault Mem Result → Prop
  | done _ => True
  | read _ next => ∀ found, (next found).Reads
  | write _ _ => False

/-- What the section finds and what is seen of what it writes is a matter of the view. -/
def Blind (view : Mem → View) : Code Fault Mem Result → Prop
  | done _ => True
  | read value next => (∀ mem mem', view mem = view mem' → value mem = value mem') ∧
      ∀ found, (next found).Blind view
  | write effect next =>
      (∀ mem mem', view mem = view mem' → viewed view (effect mem) = viewed view (effect mem')) ∧
      ∀ found, (next found).Blind view

/-- One section after another. -/
def bind {Result' : Type} (first : Code Fault Mem Result)
    (later : Result → Code Fault Mem Result') : Code Fault Mem Result' :=
  match first with
  | done result => later result
  | read value next => .read value fun found => (next found).bind later
  | write effect next => .write effect fun found => (next found).bind later

instance : Monad (Code Fault Mem) where
  pure := done
  bind := bind

section Sequence

variable {Result' : Type} {first : Code Fault Mem Result}
  {later : Result → Code Fault Mem Result'}

theorem run_bind (first : Code Fault Mem Result) (later : Result → Code Fault Mem Result')
    (mem : Mem) :
    (first >>= later).run mem = first.run mem >>= fun left => (later left.2).run left.1 := by
  change (first.bind later).run mem = _
  induction first generalizing mem with
  | done result => rfl
  | read value next ih =>
      rw [bind, run, run]
      cases value mem with
      | error fault => rfl
      | ok found => exact ih found mem
  | write effect next ih =>
      rw [bind, run, run]
      cases effect mem with
      | error fault => rfl
      | ok left => exact ih left.2 left.1

theorem Reads.bind (reads : first.Reads) (readsLater : ∀ result, (later result).Reads) :
    (first >>= later).Reads := by
  change (first.bind later).Reads
  induction first with
  | done result => exact readsLater result
  | read value next ih => exact fun found => ih found (reads found)
  | write effect next => exact reads.elim

theorem Reads.run_mem {code : Code Fault Mem Result} (reads : code.Reads) {mem : Mem}
    {left : Mem × Result} (ran : code.run mem = .ok left) : left.1 = mem := by
  induction code with
  | done result =>
      cases ran
      rfl
  | read value next ih =>
      rw [run] at ran
      cases found : value mem with
      | error fault =>
          rw [found] at ran
          cases ran
      | ok value =>
          rw [found] at ran
          exact ih value (reads value) ran
  | write effect next => exact reads.elim

theorem Blind.bind {view : Mem → View} (blind : first.Blind view)
    (blindLater : ∀ result, (later result).Blind view) : (first >>= later).Blind view := by
  change (first.bind later).Blind view
  induction first with
  | done result => exact blindLater result
  | read value next ih => exact ⟨blind.1, fun found => ih found (blind.2 found)⟩
  | write effect next ih => exact ⟨blind.1, fun found => ih found (blind.2 found)⟩

end Sequence

/-- Memories that look the same lead to the same result and to memories that look the
same. -/
theorem Blind.viewed_run {view : Mem → View} {code : Code Fault Mem Result}
    (blind : code.Blind view) {mem mem' : Mem} (same : view mem = view mem') :
    viewed view (code.run mem) = viewed view (code.run mem') := by
  induction code generalizing mem mem' with
  | done result => simp [run, viewed, Except.map, same]
  | read value next ih =>
      rw [run, run, blind.1 mem mem' same]
      cases value mem' with
      | error fault => rfl
      | ok found => exact ih found (blind.2 found) same
  | write effect next ih =>
      have alike := blind.1 mem mem' same
      rw [run, run]
      cases done : effect mem with
      | error fault =>
          cases done' : effect mem' with
          | error fault' =>
              rw [done, done'] at alike
              cases alike
              rfl
          | ok left' =>
              rw [done, done'] at alike
              cases alike
      | ok left =>
          cases done' : effect mem' with
          | error fault' =>
              rw [done, done'] at alike
              cases alike
          | ok left' =>
              rw [done, done'] at alike
              obtain ⟨seen, found⟩ := Prod.mk.inj (Except.ok.inj alike)
              obtain ⟨mem, value⟩ := left
              obtain ⟨mem', value'⟩ := left'
              obtain rfl : value = value' := found
              exact ih value (blind.2 value) seen

variable {code code' : Code Fault Mem Result} {mem mem' : Mem}

/-- An access is the beginning of the run. -/
theorem Step.run_eq (step : Step code mem mem' code') : code.run mem = code'.run mem' := by
  cases step with
  | read found =>
      rw [run, found]
      rfl
  | write done =>
      rw [run, done]
      rfl

theorem Step.reads (step : Step code mem mem' code') (reads : code.Reads) :
    mem' = mem ∧ code'.Reads := by
  cases step with
  | read => exact ⟨rfl, reads _⟩
  | write => exact reads.elim

theorem Step.blind {view : Mem → View} (step : Step code mem mem' code')
    (blind : code.Blind view) : code'.Blind view := by
  cases step with
  | read | write => exact blind.2 _

/-- A section that can be run to its end is at its end, or its next access is possible. -/
theorem progress {left : Mem × Result} (runs : code.run mem = .ok left) :
    (∃ result, code = done result) ∨ ∃ mem' code', Step code mem mem' code' := by
  cases code with
  | done result => exact .inl ⟨result, rfl⟩
  | read value next =>
      cases found : value mem with
      | error fault =>
          rw [run, found] at runs
          cases runs
      | ok value => exact .inr ⟨_, _, .read found⟩
  | write effect next =>
      cases done : effect mem with
      | error fault =>
          rw [run, done] at runs
          cases runs
      | ok left => exact .inr ⟨_, _, .write done⟩

end Code

/-- The sections that threads can run, which of them write, and which are blind to what is
not in the view. -/
structure Sections (Fault Mem View : Type) (Task : Type*) (Result : Type) where
  code : Task → Code Fault Mem Result
  view : Mem → View
  writes : Task → Bool
  blind : Task → Bool
  reads : ∀ task, writes task = false → (code task).Reads
  blinded : ∀ task, blind task = true → (code task).Blind view
  writers_blind : ∀ task, writes task = true → blind task = true

/-- The memory, and the sections that threads are inside of. -/
structure SectionState (ι : Type*) (Fault Mem : Type) (Task : Type*) (Result : Type) where
  mem : Mem
  inside : ι → Option (Task × Code Fault Mem Result)

/-- A thread enters a section, makes an access, or leaves with a result; or something not in
the view is written. -/
inductive SectionLabel (ι Task Result : Type*)
  | enter (thread : ι) (task : Task)
  | access (thread : ι)
  | leave (thread : ι) (task : Task) (result : Result)
  | disturb

namespace Sections

variable {ι Task : Type*} (sections : Sections Fault Mem View Task Result)

/-- A section may be entered: everybody inside only reads, and so does the section; or
nobody is inside. -/
def Admits (state : SectionState ι Fault Mem Task Result) (task : Task) : Prop :=
  ∀ other task' code, state.inside other = some (task', code) →
    sections.writes task = false ∧ sections.writes task' = false

/-- The blind section that is left in a step. -/
def left : SectionLabel ι Task Result → Option (ι × Task × Result)
  | .leave thread task result => if sections.blind task then some (thread, task, result) else none
  | _ => none

variable [DecidableEq ι]

inductive Step : SectionState ι Fault Mem Task Result → SectionLabel ι Task Result →
    SectionState ι Fault Mem Task Result → Prop
  | enter {state : SectionState ι Fault Mem Task Result} {thread : ι} {task : Task} :
      state.inside thread = none → sections.Admits state task →
        Step state (.enter thread task)
          ⟨state.mem, Function.update state.inside thread (some (task, sections.code task))⟩
  | access {state : SectionState ι Fault Mem Task Result} {thread : ι} {task : Task}
      {code code' : Code Fault Mem Result} {mem : Mem} :
      state.inside thread = some (task, code) → code.Step state.mem mem code' →
        Step state (.access thread)
          ⟨mem, Function.update state.inside thread (some (task, code'))⟩
  | leave {state : SectionState ι Fault Mem Task Result} {thread : ι} {task : Task}
      {result : Result} :
      state.inside thread = some (task, .done result) →
        Step state (.leave thread task result)
          ⟨state.mem, Function.update state.inside thread none⟩
  | disturb {state : SectionState ι Fault Mem Task Result} {mem : Mem} :
      sections.view mem = sections.view state.mem → Step state .disturb ⟨mem, state.inside⟩

/-- The runs of threads that enter, access and leave. -/
def system (ι : Type*) [DecidableEq ι] (initial : Mem → Prop) :
    TransitionSystem (SectionState ι Fault Mem Task Result) (SectionLabel ι Task Result) where
  initial state := initial state.mem ∧ state.inside = fun _ => none
  step := sections.Step

/-- The runs of whole blind sections on what is seen of the memory, each with the thread that
runs it and its result. -/
def atomic (ι : Type*) (initial : Mem → Prop) : TransitionSystem View (ι × Task × Result) where
  initial base := ∃ mem, initial mem ∧ sections.view mem = base
  step base label base' := sections.blind label.2.1 = true ∧ ∃ mem mem',
    sections.view mem = base ∧ (sections.code label.2.1).run mem = .ok (mem', label.2.2) ∧
      sections.view mem' = base'

/-- The view `base` is the one before all sections that are inside: they have made some of
their accesses since, and a section that writes is alone. -/
structure Pending (state : SectionState ι Fault Mem Task Result) (base : View) : Prop where
  alone : ∀ thread task code, state.inside thread = some (task, code) →
    sections.writes task = true → ∀ other ≠ thread, state.inside other = none
  reads : ∀ thread task code, state.inside thread = some (task, code) →
    sections.writes task = false → code.Reads
  blind : ∀ thread task code, state.inside thread = some (task, code) →
    sections.blind task = true → code.Blind sections.view
  runs : ∀ thread task code, state.inside thread = some (task, code) →
    sections.blind task = true → ∀ mem, sections.view mem = base →
      viewed sections.view (code.run state.mem) =
        viewed sections.view ((sections.code task).run mem)
  quiet : (∀ thread task code, state.inside thread = some (task, code) →
    sections.writes task = false) → sections.view state.mem = base
  seen : ∃ mem, sections.view mem = base

variable {sections} {state : SectionState ι Fault Mem Task Result} {base : View} {thread : ι}
  {task : Task}

/-- Whoever is inside after a change of one thread is that thread or was inside before. -/
theorem inside_of_update {inside : ι → Option (Task × Code Fault Mem Result)}
    {next : Option (Task × Code Fault Mem Result)} {other : ι}
    {found : Task × Code Fault Mem Result}
    (there : Function.update inside thread next other = some found) :
    other = thread ∧ next = some found ∨ other ≠ thread ∧ inside other = some found := by
  by_cases same : other = thread
  · subst same
    rw [Function.update_self] at there
    exact .inl ⟨rfl, there⟩
  · rw [Function.update_of_ne same] at there
    exact .inr ⟨same, there⟩

namespace Pending

variable (pending : sections.Pending state base)
include pending

/-- Where a section is admitted, nobody has written yet. -/
theorem enter (admits : sections.Admits state task) :
    sections.Pending ⟨state.mem,
      Function.update state.inside thread (some (task, sections.code task))⟩ base := by
  have same : sections.view state.mem = base := pending.quiet fun other task' code there =>
    (admits other task' code there).2
  constructor
  · intro other task' code there writes another different
    rcases inside_of_update there with ⟨rfl, new⟩ | ⟨elsewhere, old⟩
    · obtain ⟨rfl, -⟩ := Prod.mk.inj (Option.some.inj new)
      refine (Function.update_of_ne different ..).trans ?_
      cases present : state.inside another with
      | none => rfl
      | some found =>
          have reading := (admits another found.1 found.2 present).1
          rw [reading] at writes
          cases writes
    · have reading := (admits other task' code old).2
      rw [reading] at writes
      cases writes
  · intro other task' code there reading
    rcases inside_of_update there with ⟨rfl, new⟩ | ⟨-, old⟩
    · obtain ⟨rfl, rfl⟩ := Prod.mk.inj (Option.some.inj new)
      exact sections.reads _ reading
    · exact pending.reads other task' code old reading
  · intro other task' code there blind
    rcases inside_of_update there with ⟨rfl, new⟩ | ⟨-, old⟩
    · obtain ⟨rfl, rfl⟩ := Prod.mk.inj (Option.some.inj new)
      exact sections.blinded _ blind
    · exact pending.blind other task' code old blind
  · intro other task' code there blind mem looks
    rcases inside_of_update there with ⟨rfl, new⟩ | ⟨-, old⟩
    · obtain ⟨rfl, rfl⟩ := Prod.mk.inj (Option.some.inj new)
      exact (sections.blinded _ blind).viewed_run (same.trans looks.symm)
    · exact pending.runs other task' code old blind mem looks
  · exact fun _ => same
  · exact pending.seen

/-- An access of a section that reads leaves the memory, and behind an access of a section
that writes nobody else is inside. -/
theorem access {code code' : Code Fault Mem Result} {mem : Mem}
    (here : state.inside thread = some (task, code)) (step : code.Step state.mem mem code') :
    sections.Pending ⟨mem, Function.update state.inside thread (some (task, code'))⟩ base := by
  have alone : ∀ other, sections.writes task = true → other ≠ thread →
      state.inside other = none := fun other writes different =>
    pending.alone thread task code here writes other different
  have kept : sections.writes task = false → mem = state.mem ∧ code'.Reads := fun reading =>
    step.reads (pending.reads thread task code here reading)
  constructor
  · intro other task' found there writes another different
    rcases inside_of_update there with ⟨rfl, new⟩ | ⟨elsewhere, old⟩
    · obtain ⟨rfl, -⟩ := Prod.mk.inj (Option.some.inj new)
      exact (Function.update_of_ne different ..).trans (alone another writes different)
    · have absent := pending.alone other task' found old writes thread elsewhere.symm
      rw [here] at absent
      cases absent
  · intro other task' found there reading
    rcases inside_of_update there with ⟨rfl, new⟩ | ⟨-, old⟩
    · obtain ⟨rfl, rfl⟩ := Prod.mk.inj (Option.some.inj new)
      exact (kept reading).2
    · exact pending.reads other task' found old reading
  · intro other task' found there blind
    rcases inside_of_update there with ⟨rfl, new⟩ | ⟨-, old⟩
    · obtain ⟨rfl, rfl⟩ := Prod.mk.inj (Option.some.inj new)
      exact step.blind (pending.blind _ _ _ here blind)
    · exact pending.blind other task' found old blind
  · intro other task' found there blind before looks
    rcases inside_of_update there with ⟨rfl, new⟩ | ⟨elsewhere, old⟩
    · obtain ⟨rfl, rfl⟩ := Prod.mk.inj (Option.some.inj new)
      rw [← pending.runs _ _ _ here blind before looks, step.run_eq]
    · cases writes : sections.writes task with
      | true =>
          rw [alone other writes elsewhere] at old
          cases old
      | false =>
          rw [(kept writes).1]
          exact pending.runs other task' found old blind before looks
  · intro reading
    have itself := reading thread task code' (Function.update_self ..)
    rw [(kept itself).1]
    refine pending.quiet fun other task' found old => ?_
    by_cases same : other = thread
    · subst same
      rw [here] at old
      obtain ⟨rfl, -⟩ := Prod.mk.inj (Option.some.inj old)
      exact itself
    · exact reading other task' found ((Function.update_of_ne same ..).trans old)
  · exact pending.seen

omit [DecidableEq ι] in
/-- What is not in the view is nothing to a blind section. -/
theorem disturb {mem : Mem} (same : sections.view mem = sections.view state.mem) :
    sections.Pending ⟨mem, state.inside⟩ base := by
  constructor
  · exact pending.alone
  · exact pending.reads
  · exact pending.blind
  · intro other task code there blind before looks
    rw [← pending.runs other task code there blind before looks]
    exact (pending.blind other task code there blind).viewed_run same
  · exact fun reading => same.trans (pending.quiet reading)
  · exact pending.seen

omit [DecidableEq ι] in
/-- Beside a thread inside there are others only if it and they only read. -/
theorem leave_reading {code : Code Fault Mem Result}
    (here : state.inside thread = some (task, code)) {other : ι} {task' : Task}
    {code' : Code Fault Mem Result} (different : other ≠ thread)
    (there : state.inside other = some (task', code')) :
    sections.writes task = false ∧ sections.writes task' = false := by
  constructor
  · by_contra writes
    rw [pending.alone thread task _ here (by simpa using writes) other different] at there
    cases there
  · by_contra writes
    rw [pending.alone other task' _ there (by simpa using writes) thread different.symm] at here
    cases here

/-- When a thread leaves, its view is the one of whoever enters next. -/
theorem leave {code : Code Fault Mem Result} (here : state.inside thread = some (task, code)) :
    sections.Pending ⟨state.mem, Function.update state.inside thread none⟩
      (sections.view state.mem) := by
  have others : ∀ other task' code,
      Function.update state.inside thread none other = some (task', code) →
        other ≠ thread ∧ state.inside other = some (task', code) := by
    intro other task' code there
    rcases inside_of_update there with ⟨-, nothing⟩ | old
    · cases nothing
    · exact old
  constructor
  · intro other task' code there writes
    obtain ⟨different, old⟩ := others other task' code there
    rw [(pending.leave_reading here different old).2] at writes
    cases writes
  · intro other task' code there
    exact pending.reads other task' code (others other task' code there).2
  · intro other task' code there
    exact pending.blind other task' code (others other task' code there).2
  · intro other task' code there blind mem looks
    obtain ⟨different, old⟩ := others other task' code there
    have same : sections.view state.mem = base := by
      refine pending.quiet fun another found code' inside => ?_
      by_cases itself : another = thread
      · subst itself
        rw [here] at inside
        obtain ⟨rfl, -⟩ := Prod.mk.inj (Option.some.inj inside)
        exact (pending.leave_reading here different old).1
      · exact (pending.leave_reading here itself inside).2
    exact pending.runs other task' code old blind mem (looks.trans same)
  · exact fun _ => rfl
  · exact ⟨_, rfl⟩

omit [DecidableEq ι] in
/-- Leaving is the whole section at once. -/
theorem leave_whole {result : Result} (here : state.inside thread = some (task, .done result))
    (blind : sections.blind task = true) :
    ∃ mem mem', sections.view mem = base ∧
      (sections.code task).run mem = .ok (mem', result) ∧
      sections.view mem' = sections.view state.mem := by
  obtain ⟨mem, looks⟩ := pending.seen
  have whole := (pending.runs _ _ _ here blind mem looks).symm
  cases ran : (sections.code task).run mem with
  | error fault =>
      rw [ran] at whole
      cases whole
  | ok left =>
      rw [ran] at whole
      obtain ⟨same, produced⟩ := Prod.mk.inj (Except.ok.inj whole)
      obtain ⟨mem', value⟩ := left
      obtain rfl : value = result := produced
      exact ⟨mem, mem', looks, ran, same⟩

/-- A section that is not blind has seen nothing change. -/
theorem leave_unseen {code : Code Fault Mem Result}
    (here : state.inside thread = some (task, code)) (sighted : sections.blind task = false) :
    sections.view state.mem = base := by
  have silent : sections.writes task = false := by
    by_contra writes
    rw [sections.writers_blind task (by simpa using writes)] at sighted
    cases sighted
  refine pending.quiet fun other task' code' there => ?_
  by_cases itself : other = thread
  · subst itself
    rw [here] at there
    obtain ⟨rfl, -⟩ := Prod.mk.inj (Option.some.inj there)
    exact silent
  · exact (pending.leave_reading here itself there).2

end Pending

/-- Whole sections do what threads do access by access. -/
def serialization (sections : Sections Fault Mem View Task Result) (initial : Mem → Prop) :
    (sections.system ι initial).StutteringSimulation (sections.atomic ι initial) where
  states := sections.Pending
  visible _ := sections.left
  initially := by
    rintro ⟨mem, inside⟩ ⟨start, rfl⟩
    refine ⟨sections.view mem, ⟨mem, start, rfl⟩, ⟨?_, ?_, ?_, ?_, fun _ => rfl, ⟨mem, rfl⟩⟩⟩
    all_goals
      intro thread task code there
      cases there
  hidden := by
    intro before label after base pending moved unseen
    cases moved with
    | enter free admits => exact pending.enter admits
    | access here step => exact pending.access here step
    | disturb same => exact pending.disturb same
    | @leave thread task result here =>
        cases blind : sections.blind task with
        | true =>
            rw [left, if_pos blind] at unseen
            cases unseen
        | false => exact pending.leave_unseen here blind ▸ pending.leave here
  matched := by
    intro before label after base label' pending moved seen
    cases moved with
    | enter | access | disturb => cases seen
    | @leave thread task result here =>
        cases blind : sections.blind task with
        | false =>
            rw [left, blind] at seen
            cases seen
        | true =>
            rw [left, if_pos blind] at seen
            cases seen
            exact ⟨_, ⟨blind, pending.leave_whole here blind⟩, pending.leave here⟩

omit [DecidableEq ι] in
/-- A thread inside a blind section is at its end or can make its next access, if the whole
section would succeed. -/
theorem Pending.progress (pending : sections.Pending state base)
    {code : Code Fault Mem Result} (here : state.inside thread = some (task, code))
    (blind : sections.blind task = true) {mem : Mem} (looks : sections.view mem = base)
    {left : Mem × Result} (whole : (sections.code task).run mem = .ok left) :
    (∃ result, code = .done result) ∨ ∃ mem code', code.Step state.mem mem code' := by
  have alike := pending.runs thread task code here blind mem looks
  rw [whole] at alike
  cases ran : code.run state.mem with
  | error fault =>
      rw [ran] at alike
      cases alike
  | ok left' => exact Code.progress ran

/-- **Threads in critical sections.** In every run, the blind sections that have been left do
the same one after the other, in the order in which they were left; the view between them has
every property that whole sections keep, and the sections inside are pending on it. -/
theorem serialize {initial : Mem → Prop} {good : View → Prop}
    (starts : ∀ mem, initial mem → good (sections.view mem))
    (kept : ∀ task mem left, sections.blind task = true → good (sections.view mem) →
      (sections.code task).run mem = .ok left → good (sections.view left.1))
    {trace : List (SectionState ι Fault Mem Task Result × SectionLabel ι Task Result)}
    (execution : (sections.system ι initial).Execution trace state) :
    ∃ order base, (sections.atomic ι initial).Execution order base ∧ good base ∧
      order.map Prod.snd = trace.filterMap (fun visit => sections.left visit.2) ∧
      sections.Pending state base := by
  obtain ⟨order, base, whole, pending, left⟩ :=
    (sections.serialization initial).execution execution
  refine ⟨order, base, whole, ?_, left, pending⟩
  have reachable : (sections.atomic ι initial).Reachable base := ⟨order, whole⟩
  refine reachable.invariant ?_ ?_
  · rintro view ⟨mem, start, rfl⟩
    exact starts mem start
  · rintro before label after holds ⟨blind, mem, mem', rfl, ran, rfl⟩
    exact kept label.2.1 mem (mem', label.2.2) blind holds ran

end Sections

end CriticalSections
