import MultithreadedChat.Foundation.TransitionSystem

/-! # Logs of overlapping activities

Activities are numbered in the order in which they start, and add entries to a log
until they are done. An activity that is done before another one starts precedes it
(`Activities.Precedes`), and then all its entries are ahead of the other's, whatever
the interleaving (`Activities.Log.pairwise`). Entries of activities that overlap may
come in any order.
-/

section Entries

variable {α : Type*}

/-- The entries of one activity. -/
def entriesOf (log : List (ℕ × α)) (activity : ℕ) : List α :=
  log.filterMap fun entry => if entry.1 = activity then some entry.2 else none

variable {log : List (ℕ × α)} {activity : ℕ}

/-- Entries that an activity adds are its own. -/
theorem entriesOf_append_self (added : List α) :
    entriesOf (log ++ added.map (activity, ·)) activity = entriesOf log activity ++ added := by
  rw [entriesOf, List.filterMap_append, List.filterMap_map]
  simp [entriesOf]

theorem entriesOf_append_of_ne {other : ℕ} (different : other ≠ activity) (added : List α) :
    entriesOf (log ++ added.map (other, ·)) activity = entriesOf log activity := by
  rw [entriesOf, List.filterMap_append, List.filterMap_map]
  simp [entriesOf, different]

theorem mem_entriesOf {entry : ℕ × α} (member : entry ∈ log) : entry.2 ∈ entriesOf log entry.1 :=
  List.mem_filterMap.mpr ⟨entry, member, if_pos rfl⟩

theorem entriesOf_eq_nil (absent : activity ∉ log.map Prod.fst) : entriesOf log activity = [] := by
  rw [entriesOf, List.filterMap_eq_nil_iff]
  intro entry member
  rw [if_neg]
  rintro rfl
  exact absent (List.mem_map_of_mem member)

/-- An activity in a log that has grown was in it before, or has added to it. -/
theorem mem_activities_append {other : ℕ} {added : List α}
    (member : other ∈ (log ++ added.map (activity, ·)).map Prod.fst) :
    other ∈ log.map Prod.fst ∨ other = activity := by
  rw [List.map_append, List.mem_append] at member
  refine member.imp_right ?_
  intro new
  obtain ⟨entry, tagged, rfl⟩ := List.mem_map.mp new
  obtain ⟨item, -, rfl⟩ := List.mem_map.mp tagged
  rfl

theorem map_snd_append (added : List α) :
    (log ++ added.map (activity, ·)).map Prod.snd = log.map Prod.snd ++ added := by
  rw [List.map_append, List.map_map]
  exact congrArg _ (List.map_id added)

/-- An activity of a list with one more is an earlier one or the new one. -/
theorem getElem?_snoc {activities : List α} {new found : α}
    (here : (activities ++ [new])[activity]? = some found) :
    activities[activity]? = some found ∨ activity = activities.length ∧ new = found := by
  rcases Nat.lt_trichotomy activity activities.length with old | last | behind
  · rw [List.getElem?_append_left old] at here
    exact .inl here
  · rw [last, List.getElem?_concat_length] at here
    exact .inr ⟨last, Option.some.inj here⟩
  · have outside : (activities ++ [new]).length ≤ activity := by
      rw [List.length_append]
      exact behind
    rw [List.getElem?_eq_none outside] at here
    cases here

end Entries

namespace TransitionSystem

variable {State Label : Type*}

/-- The numbered activities of a system. -/
structure Activities (system : TransitionSystem State Label) where
  started : State → ℕ
  Done : State → ℕ → Prop
  started_le : ∀ before label after, system.step before label after →
    started before ≤ started after
  done_kept : ∀ before label after activity, system.step before label after →
    Done before activity → Done after activity

namespace Activities

variable {system : TransitionSystem State Label} (activities : system.Activities)

/-- In a run, one activity is done before another one starts. -/
def Precedes (trace : List (State × Label)) (first second : ℕ) : Prop :=
  ∃ visit ∈ trace, activities.Done visit.1 first ∧ activities.started visit.1 ≤ second

/-- A log to which only activities add that have started and are not done. -/
structure Log where
  entries : State → List ℕ
  initially : ∀ state, system.initial state → entries state = []
  grows : ∀ before label after, system.step before label after →
    ∃ added, entries after = entries before ++ added ∧
      ∀ activity ∈ added, activity < activities.started before ∧ ¬ activities.Done before activity

variable {activities} {trace : List (State × Label)} {state : State}

/-- An activity that is done precedes those that start from now on. -/
theorem Precedes.last {first second : ℕ} (_ : system.Execution trace state)
    (done : activities.Done state first) (later : activities.started state ≤ second)
    (label : Label) :
    activities.Precedes (trace ++ [(state, label)]) first second :=
  ⟨(state, label), List.mem_append_right _ (List.mem_singleton_self _), done, later⟩

theorem Precedes.append {first second : ℕ} (precedes : activities.Precedes trace first second)
    (later : List (State × Label)) : activities.Precedes (trace ++ later) first second := by
  obtain ⟨visit, member, done⟩ := precedes
  exact ⟨visit, List.mem_append_left _ member, done⟩

/-- What is done is done in the end. -/
theorem Precedes.done {first second : ℕ} (precedes : activities.Precedes trace first second)
    (execution : system.Execution trace state) : activities.Done state first := by
  obtain ⟨visit, member, done, -⟩ := precedes
  induction execution with
  | start => cases member
  | step _ moved ih =>
      apply activities.done_kept _ _ _ _ moved
      rcases List.mem_append.mp member with old | last
      · exact ih old
      · obtain rfl := List.mem_singleton.mp last
        exact done

namespace Log

variable (log : activities.Log)

/-- Only activities that have started are in the log. -/
theorem lt_started (execution : system.Execution trace state) :
    ∀ activity ∈ log.entries state, activity < activities.started state := by
  induction execution with
  | start initial =>
      rw [log.initially _ initial]
      exact fun _ member => by cases member
  | step _ moved ih =>
      obtain ⟨added, grown, active⟩ := log.grows _ _ _ moved
      have later := activities.started_le _ _ _ moved
      intro activity member
      rw [grown] at member
      rcases List.mem_append.mp member with old | new
      · exact Nat.lt_of_lt_of_le (ih activity old) later
      · exact Nat.lt_of_lt_of_le (active activity new).1 later

/-- The entries of an activity are ahead of those of the activities it precedes. -/
theorem pairwise (execution : system.Execution trace state) :
    (log.entries state).Pairwise fun first second => ¬ activities.Precedes trace second first := by
  induction execution with
  | start initial =>
      rw [log.initially _ initial]
      exact .nil
  | @step trace before after label execution moved ih =>
      obtain ⟨added, grown, active⟩ := log.grows _ _ _ moved
      -- an activity that adds an entry has preceded nothing so far
      have fresh : ∀ second ∈ added, ∀ first,
          ¬ activities.Precedes (trace ++ [(before, label)]) second first := by
        rintro second new first ⟨visit, member, done, behind⟩
        apply (active second new).2
        rcases List.mem_append.mp member with old | last
        · have precedes : activities.Precedes trace second first := ⟨visit, old, done, behind⟩
          exact precedes.done execution
        · obtain rfl := List.mem_singleton.mp last
          exact done
      rw [grown, List.pairwise_append]
      refine ⟨?_, ?_, fun first _ second new => fresh second new first⟩
      · refine ih.imp_of_mem ?_
        rintro first second here - apart ⟨visit, member, done, behind⟩
        rcases List.mem_append.mp member with old | last
        · exact apart ⟨visit, old, done, behind⟩
        · obtain rfl := List.mem_singleton.mp last
          exact absurd (log.lt_started execution first here) (Nat.not_lt.mpr behind)
      · exact List.pairwise_of_forall_mem_list fun first _ second new => fresh second new first

end Log

end Activities

end TransitionSystem
