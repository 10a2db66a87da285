import MultithreadedChat.Foundation.TransitionSystem
import Mathlib.Data.List.Basic

/-! # Programs that overtake each other

Programs of atomic operations are started one after the other and then run
interleaved (`Commutation.Step`). If an operation is only executed ahead of
operations of earlier programs that commute with it, the result is the one of the
programs run one at a time in the order they were started
(`Commutation.orderly_result`). The operations need only commute on what a view of
the state shows.
-/

namespace Commutation

variable {Op State View : Type*}

/-- Apply operations one after the other, as long as they succeed. -/
def applyAll (apply : Op → State → Option State) (ops : List Op) (state : State) : Option State :=
  ops.foldlM (fun state op => apply op state) state

section ApplyAll

variable {apply : Op → State → Option State}

@[simp] theorem applyAll_nil (state : State) : applyAll apply [] state = some state := rfl

theorem applyAll_cons (op : Op) (ops : List Op) (state : State) :
    applyAll apply (op :: ops) state = (apply op state).bind (applyAll apply ops) := rfl

theorem applyAll_append (first second : List Op) (state : State) :
    applyAll apply (first ++ second) state =
      (applyAll apply first state).bind (applyAll apply second) :=
  List.foldlM_append ..

/-- If the two operations succeed in this order, they do in the other, with the same
result. -/
def Swaps (apply : Op → State → Option State) (first second : Op) : Prop :=
  ∀ state result, (apply first state).bind (apply second) = some result →
    (apply second state).bind (apply first) = some result

/-- An operation that swaps with all of a list can be applied behind them. -/
theorem applyAll_behind {op : Op} {ops : List Op} (swaps : ∀ other ∈ ops, Swaps apply op other)
    {state result : State} (done : applyAll apply (op :: ops) state = some result) :
    applyAll apply (ops ++ [op]) state = some result := by
  induction ops generalizing state with
  | nil => exact done
  | cons other rest ih =>
      obtain ⟨middle, both, done⟩ : ∃ middle, (apply op state).bind (apply other) = some middle ∧
          applyAll apply rest middle = some result := by
        rw [applyAll_cons] at done
        obtain ⟨next, ran, done⟩ := Option.bind_eq_some_iff.mp done
        rw [applyAll_cons] at done
        obtain ⟨middle, ran', done⟩ := Option.bind_eq_some_iff.mp done
        exact ⟨middle, Option.bind_eq_some_iff.mpr ⟨next, ran, ran'⟩, done⟩
      obtain ⟨next, ran, ran'⟩ := Option.bind_eq_some_iff.mp
        (swaps other List.mem_cons_self state middle both)
      rw [List.cons_append, applyAll_cons, ran]
      refine ih (fun op member => swaps op (List.mem_cons_of_mem _ member)) ?_
      rw [applyAll_cons, ran']
      exact done

end ApplyAll

/-- The state, and what is left of the programs, in the order they were started. -/
structure Pool (Op State : Type*) where
  state : State
  remaining : List (List Op)

/-- The program of a request is started, or a program executes its next operation. -/
inductive Label (Request : Type*)
  | start (request : Request)
  | execute (index : ℕ)

variable {Request : Type*} (program : Request → List Op) (apply : Op → State → Option State)

/-- The steps of a pool. -/
inductive Step : Pool Op State → Label Request → Pool Op State → Prop
  | start {pool : Pool Op State} (request : Request) :
      Step pool (.start request) { pool with remaining := pool.remaining ++ [program request] }
  | execute {pool : Pool Op State} {index : ℕ} {op : Op} {rest : List Op} {state : State} :
      pool.remaining[index]? = some (op :: rest) → apply op pool.state = some state →
        Step pool (.execute index) ⟨state, pool.remaining.set index rest⟩

/-- The runs of programs from an initial state. -/
def system (initial : State) : TransitionSystem (Pool Op State) (Label Request) where
  initial pool := pool = ⟨initial, []⟩
  step := Step program apply

/-- The requests of a run, in the order their programs were started. -/
def started (trace : List (Pool Op State × Label Request)) : List Request :=
  trace.filterMap fun
    | (_, .start request) => some request
    | (_, .execute _) => none

/-- The request that a program is started for. -/
def Label.request : Label Request → Option Request
  | .start request => some request
  | .execute _ => none

/-- The requests of a run can be seen in its labels. -/
theorem started_eq_requests (trace : List (Pool Op State × Label Request)) :
    started trace = (trace.map Prod.snd).filterMap Label.request := by
  rw [started, List.filterMap_map]
  refine List.filterMap_congr fun visit _ => ?_
  obtain ⟨pool, label⟩ := visit
  cases label <;> rfl

/-- An operation is executed only ahead of independent operations of earlier programs. -/
def Pool.Orderly (independent : Op → Op → Prop) (pool : Pool Op State) : Label Request → Prop
  | .start _ => True
  | .execute index => ∀ op rest, pool.remaining[index]? = some (op :: rest) →
      ∀ earlier ∈ pool.remaining.take index, ∀ other ∈ earlier, independent op other

/-- The programs before an index, the program there, and those behind it. -/
theorem split_at {programs : List (List Op)} {index : ℕ} {program : List Op}
    (here : programs[index]? = some program) (instead : List Op) :
    programs = programs.take index ++ program :: programs.drop (index + 1) ∧
      programs.set index instead = programs.take index ++ instead :: programs.drop (index + 1) := by
  obtain ⟨inside, rfl⟩ := List.getElem?_eq_some_iff.mp here
  refine ⟨?_, List.set_eq_take_append_cons_drop .. |>.trans (if_pos inside)⟩
  rw [← List.drop_eq_getElem_cons inside, List.take_append_drop]

section Promised

variable {applyView : Op → View → Option View} {view : State → View}

/-- Whatever is left over in a pool, done in order, ends where the operations end. -/
def Promised (applyView : Op → View → Option View) (view : State → View) (initial : View)
    (ops : List Op) (pool : Pool Op State) : Prop :=
  ∀ result, applyAll applyView pool.remaining.flatten (view pool.state) = some result →
    applyAll applyView ops initial = some result

variable {initial : View} {ops : List Op} {pool : Pool Op State}
  (promised : Promised applyView view initial ops pool)
include promised

/-- The operations of a program that is started come last. -/
theorem Promised.start (program : List Op) :
    Promised applyView view initial (ops ++ program)
      { pool with remaining := pool.remaining ++ [program] } := by
  intro result done
  dsimp only at done
  rw [List.flatten_append, List.flatten_singleton, applyAll_append] at done
  obtain ⟨middle, finished, done⟩ := Option.bind_eq_some_iff.mp done
  rw [applyAll_append, promised middle finished]
  exact done

/-- An operation executed ahead of others it swaps with might as well come behind them. -/
theorem Promised.execute {index : ℕ} {op : Op} {rest : List Op} {state : State}
    (here : pool.remaining[index]? = some (op :: rest))
    (shown : applyView op (view pool.state) = some (view state))
    (swaps : ∀ other ∈ (pool.remaining.take index).flatten, Swaps applyView op other) :
    Promised applyView view initial ops ⟨state, pool.remaining.set index rest⟩ := by
  obtain ⟨before_split, after_split⟩ := split_at here rest
  intro result done
  dsimp only at done
  rw [after_split, List.flatten_append, List.flatten_cons, applyAll_append] at done
  obtain ⟨middle, ahead, done⟩ := Option.bind_eq_some_iff.mp done
  have moved : applyAll applyView ((pool.remaining.take index).flatten ++ [op])
      (view pool.state) = some middle := by
    apply applyAll_behind swaps
    rw [applyAll_cons, shown]
    exact ahead
  apply promised
  rw [before_split, List.flatten_append, List.flatten_cons, List.cons_append,
    ← List.singleton_append, ← List.append_assoc, applyAll_append, moved]
  exact done

end Promised

variable {program apply}

/-- **Overtaking without effect.** If independent operations swap on the view, then after
an orderly run in which every program has ended, the view is the one of the programs run
one at a time in the order they were started. -/
theorem orderly_result {initial : State} {view : State → View}
    {applyView : Op → View → Option View} {independent : Op → Op → Prop}
    (shown : ∀ op state next, apply op state = some next →
      applyView op (view state) = some (view next))
    (swaps : ∀ first second, independent first second → Swaps applyView first second)
    {trace : List (Pool Op State × Label Request)} {pool : Pool Op State}
    (execution : (system program apply initial).Execution trace pool)
    (orderly : ∀ visit ∈ trace, visit.1.Orderly independent visit.2)
    (ended : ∀ program ∈ pool.remaining, program = []) :
    applyAll applyView ((started trace).flatMap program) (view initial) =
      some (view pool.state) := by
  have promised :
      Promised applyView view (view initial) ((started trace).flatMap program) pool := by
    clear ended
    induction execution with
    | start start =>
        subst start
        exact fun result done => done
    | @step trace before after label execution moved ih =>
        have promised := ih fun visit member => orderly visit (List.mem_append_left _ member)
        have last := orderly (before, label) (by simp)
        rw [started, List.filterMap_append, List.flatMap_append]
        cases moved with
        | start request =>
            simp only [List.filterMap_cons, List.filterMap_nil, List.flatMap_cons,
              List.flatMap_nil, List.append_nil]
            exact promised.start (program request)
        | @execute index op rest state here ran =>
            simp only [List.filterMap_cons, List.filterMap_nil, List.flatMap_nil, List.append_nil]
            refine promised.execute here (shown op before.state state ran) ?_
            intro other member
            obtain ⟨earlier, listed, remaining⟩ := List.mem_flatten.mp member
            exact swaps op other (last op rest here earlier listed other remaining)
  apply promised
  have nothing : pool.remaining.flatten = [] := List.flatten_eq_nil_iff.mpr ended
  rw [nothing, applyAll_nil]

end Commutation
