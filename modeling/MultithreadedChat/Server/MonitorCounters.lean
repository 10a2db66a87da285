import MultithreadedChat.Server.Monitor

/-! # The counters of the reader-writer monitor

The counters of `Monitor_t` are `int`s, and `WW` is raised at every wait of a writer and
never lowered. As long as the counts fit, a section does on `int`s what it does on integers
(`MultithreadedChat.critical_toInt`), so a run is one of the monitor with integers
(`MultithreadedChat.monitor_toInt`). They fit until writers have waited `2 ^ 31 - 1` times
(`MultithreadedChat.monitor_exclusion`). Then `AW + WW` can be negative with a writer inside,
and a reader gets in beside it (`MultithreadedChat.reader_beside_writer`).
-/

namespace MultithreadedChat

open ConditionVariable

/-! ## Sums and differences that fit -/

theorem toInt_add_of_fits {m n : Int32} (low : -2 ^ 31 ≤ m.toInt + n.toInt)
    (high : m.toInt + n.toInt < 2 ^ 31) : (m + n).toInt = m.toInt + n.toInt := by
  rw [Int32.toInt_add]
  exact Int.bmod_eq_of_le (by omega) (by omega)

theorem toInt_succ {n : Int32} (fits : n.toInt + 1 < 2 ^ 31) : (n + 1).toInt = n.toInt + 1 := by
  have least := n.le_toInt
  refine toInt_add_of_fits ?_ fits
  rw [Int32.toInt_one]
  omega

theorem toInt_pred {n : Int32} (nonneg : 0 ≤ n.toInt) : (n - 1).toInt = n.toInt - 1 := by
  have most := n.toInt_lt
  rw [Int32.toInt_sub, Int32.toInt_one]
  exact Int.bmod_eq_of_le (by omega) (by omega)

theorem pos_iff {n : Int32} : 0 < n ↔ 0 < n.toInt := by
  rw [Int32.lt_iff_toInt_lt, Int32.toInt_zero]

theorem pos_add_iff {m n : Int32} (low : 0 ≤ m.toInt + n.toInt)
    (high : m.toInt + n.toInt < 2 ^ 31) : 0 < m + n ↔ 0 < m.toInt + n.toInt := by
  rw [pos_iff, toInt_add_of_fits (by omega) high]

/-! ## Sections -/

namespace Monitor

/-- What the counters stand for. -/
def toInt (monitor : Monitor Int32) : Monitor ℤ :=
  ⟨monitor.AR.toInt, monitor.WR.toInt, monitor.AW.toInt, monitor.WW.toInt⟩

/-- The counts, and the sums that the routines take of them, are in the range of an `int`. -/
structure Fits (monitor : Monitor ℤ) : Prop where
  nonneg : 0 ≤ monitor.AR ∧ 0 ≤ monitor.WR ∧ 0 ≤ monitor.AW ∧ 0 ≤ monitor.WW
  waitingReaders : monitor.WR < 2 ^ 31
  active : monitor.AW + monitor.AR < 2 ^ 31
  writers : monitor.AW + monitor.WW < 2 ^ 31

theorem Fits.readers {monitor : Monitor ℤ} (fits : monitor.Fits) : monitor.AR < 2 ^ 31 :=
  (Int.le_add_of_nonneg_left fits.nonneg.2.2.1).trans_lt fits.active

theorem Fits.activeWriters {monitor : Monitor ℤ} (fits : monitor.Fits) : monitor.AW < 2 ^ 31 :=
  (Int.le_add_of_nonneg_right fits.nonneg.1).trans_lt fits.active

theorem Fits.waitingWriters {monitor : Monitor ℤ} (fits : monitor.Fits) : monitor.WW < 2 ^ 31 :=
  (Int.le_add_of_nonneg_left fits.nonneg.2.2.1).trans_lt fits.writers

variable {monitor : Monitor Int32}

theorem readerCheckin_toInt (low : 0 ≤ monitor.toInt.AW + monitor.toInt.WW)
    (high : monitor.toInt.AW + monitor.toInt.WW < 2 ^ 31)
    (after : monitor.toInt.readerCheckin.sleepsOn = monitor.readerCheckin.sleepsOn →
      monitor.toInt.readerCheckin.shared.Fits) :
    monitor.toInt.readerCheckin = monitor.readerCheckin.map toInt := by
  have busy : 0 < monitor.AW + monitor.WW ↔ monitor.toInt.AW + monitor.toInt.WW > 0 :=
    pos_add_iff low high
  unfold readerCheckin at after ⊢
  by_cases taken : 0 < monitor.AW + monitor.WW
  · rw [if_pos (busy.mp taken)] at after ⊢
    rw [if_pos taken] at after ⊢
    have raised := toInt_succ (after rfl).waitingReaders
    simp only [Outcome.map, toInt, raised]
  · rw [if_neg (taken ∘ busy.mpr)] at after ⊢
    rw [if_neg taken] at after ⊢
    have raised := toInt_succ (after rfl).readers
    simp only [Outcome.map, toInt, raised]

theorem readerResume_toInt (fits : monitor.toInt.Fits)
    (after : monitor.toInt.readerResume.sleepsOn = monitor.readerResume.sleepsOn →
      monitor.toInt.readerResume.shared.Fits) :
    monitor.toInt.readerResume = monitor.readerResume.map toInt := by
  have lowered : ({ monitor with WR := monitor.WR - 1 } : Monitor Int32).toInt =
      { monitor.toInt with WR := monitor.toInt.WR - 1 } := by
    simp only [toInt, toInt_pred fits.nonneg.2.1]
  have resumed := @readerCheckin_toInt { monitor with WR := monitor.WR - 1 }
  rw [lowered] at resumed
  have sum := add_nonneg fits.nonneg.2.2.1 fits.nonneg.2.2.2
  exact resumed sum fits.writers after

theorem readerCheckout_toInt (fits : monitor.toInt.Fits) :
    monitor.toInt.readerCheckout = monitor.readerCheckout.map toInt := by
  have lowered := toInt_pred fits.nonneg.1
  have last : monitor.AR - 1 = 0 ↔ monitor.AR.toInt - 1 = 0 := by
    rw [← lowered, ← Int32.toInt_inj, Int32.toInt_zero]
  simp only [readerCheckout, Outcome.map, toInt, gt_iff_lt, lowered, last, pos_iff]

theorem writerCheckin_toInt (fits : monitor.toInt.Fits)
    (after : monitor.toInt.writerCheckin.sleepsOn = monitor.writerCheckin.sleepsOn →
      monitor.toInt.writerCheckin.shared.Fits) :
    monitor.toInt.writerCheckin = monitor.writerCheckin.map toInt := by
  have busy : 0 < monitor.AW + monitor.AR ↔ monitor.toInt.AW + monitor.toInt.AR > 0 :=
    pos_add_iff (add_nonneg fits.nonneg.2.2.1 fits.nonneg.1) fits.active
  unfold writerCheckin at after ⊢
  by_cases taken : 0 < monitor.AW + monitor.AR
  · rw [if_pos (busy.mp taken)] at after ⊢
    rw [if_pos taken] at after ⊢
    have raised := toInt_succ (after rfl).waitingWriters
    simp only [Outcome.map, toInt, raised]
  · rw [if_neg (taken ∘ busy.mpr)] at after ⊢
    rw [if_neg taken] at after ⊢
    have raised := toInt_succ (after rfl).activeWriters
    simp only [Outcome.map, toInt, raised]

theorem writerCheckout_toInt (fits : monitor.toInt.Fits) :
    monitor.toInt.writerCheckout = monitor.writerCheckout.map toInt := by
  simp only [writerCheckout, Outcome.map, toInt, gt_iff_lt, toInt_pred fits.nonneg.2.2.1, pos_iff]

end Monitor

/-- A section does on `int`s what it does on integers, if the counts fit before and behind
it. -/
theorem critical_toInt {loc : MonitorLoc} {monitor : Monitor Int32}
    {outcome : Outcome (Monitor Int32) MonitorCond MonitorLoc}
    (ran : monitorProgram.critical loc monitor = some outcome) (fits : monitor.toInt.Fits)
    (after : ∀ ideal, monitorProgram.critical loc monitor.toInt = some ideal →
      ideal.sleepsOn = outcome.sleepsOn → ideal.shared.Fits) :
    monitorProgram.critical loc monitor.toInt = some (outcome.map Monitor.toInt) := by
  cases loc with
  | outside | reading | writing => cases ran
  | readerCheckin =>
      obtain rfl := Option.some.inj ran
      have sum := add_nonneg fits.nonneg.2.2.1 fits.nonneg.2.2.2
      exact congrArg some (Monitor.readerCheckin_toInt sum fits.writers (after _ rfl))
  | readerResume =>
      obtain rfl := Option.some.inj ran
      exact congrArg some (Monitor.readerResume_toInt fits (after _ rfl))
  | readerCheckout =>
      obtain rfl := Option.some.inj ran
      exact congrArg some (Monitor.readerCheckout_toInt fits)
  | writerCheckin | writerResume =>
      obtain rfl := Option.some.inj ran
      exact congrArg some (Monitor.writerCheckin_toInt fits (after _ rfl))
  | writerCheckout =>
      obtain rfl := Option.some.inj ran
      exact congrArg some (Monitor.writerCheckout_toInt fits)

/-! ## Runs -/

variable {ι : Type*}

def MonitorState.toInt (state : MonitorState Int32 ι) : MonitorState ℤ ι := state.map Monitor.toInt

/-- A step that is a wait of a writer: the `pthread_cond_wait` of `writer_checkin`. -/
def WriterWaits (state : MonitorState Int32 ι) (label : ι × Action) : Prop :=
  label.2 = .critical ∧
    (monitorProgram.critical (state.locs label.1) state.shared).bind Outcome.sleepsOn =
      some .condWrite

instance (state : MonitorState Int32 ι) (label : ι × Action) :
    Decidable (WriterWaits state label) :=
  inferInstanceAs (Decidable (_ ∧ _))

/-- How often writers have waited in a run. -/
def writerWaits (trace : List (MonitorState Int32 ι × (ι × Action))) : ℕ :=
  trace.countP fun visit => WriterWaits visit.1 visit.2

theorem writerWaits_append (trace trace' : List (MonitorState Int32 ι × (ι × Action))) :
    writerWaits (trace ++ trace') = writerWaits trace + writerWaits trace' :=
  List.countP_append

theorem writerWaits_singleton (state : MonitorState Int32 ι) (label : ι × Action) :
    writerWaits [(state, label)] = if WriterWaits state label then 1 else 0 := by
  simp [writerWaits, List.countP_singleton]

/-- A section raises `WW` when it is a wait of a writer, and leaves it otherwise. -/
theorem MonitorSection.waits {loc : MonitorLoc} {monitor : Monitor ℤ}
    {outcome : Outcome (Monitor ℤ) MonitorCond MonitorLoc}
    (ran : MonitorSection monitor loc outcome) :
    outcome.shared.WW =
      monitor.WW + if outcome.sleepsOn = some .condWrite then 1 else 0 := by
  cases ran <;> simp [Outcome.shared, Outcome.sleepsOn]

variable [DecidableEq ι] [Fintype ι]

omit [DecidableEq ι] in
/-- Counts of fewer than `2 ^ 31` threads fit, up to `2 ^ 31 - 2` waits of writers. -/
theorem MonitorCounts.fits {monitor : Monitor ℤ} {locs : ι → MonitorLoc}
    (counts : MonitorCounts monitor locs) (few : Fintype.card ι < 2 ^ 31)
    (waited : monitor.WW < 2 ^ 31 - 1) : monitor.Fits := by
  have readers := count_le_card locs MonitorLoc.inReader
  have waiting := count_le_card locs MonitorLoc.inReaderWait
  have apart := counts.apart
  have single := counts.single
  obtain ⟨readersInside, -, -, -, positive⟩ := counts.excludes
  rw [← counts.readers] at readers
  rw [← counts.waitingReaders] at waiting
  exact ⟨positive, by omega, by omega, by omega⟩

omit [Fintype ι] [DecidableEq ι] in
/-- A section is a wait of a writer if it goes to sleep on `cond_write`. -/
theorem writerWaits_iff {state : MonitorState Int32 ι} {thread : ι}
    {outcome : Outcome (Monitor Int32) MonitorCond MonitorLoc}
    (ran : monitorProgram.critical (state.locs thread) state.shared = some outcome) :
    WriterWaits state (thread, .critical) ↔ outcome.sleepsOn = some .condWrite := by
  simp [WriterWaits, ran]

/-- A step on `int`s is one on integers, if the waits of writers fit. -/
theorem monitor_step_toInt (few : Fintype.card ι < 2 ^ 31)
    {trace : List (MonitorState Int32 ι × (ι × Action))} {before after : MonitorState Int32 ι}
    {label : ι × Action} (moved : Step monitorProgram before label after)
    (counts : MonitorCounts before.shared.toInt before.locs)
    (counted : before.shared.toInt.WW = writerWaits trace)
    (waited : writerWaits (trace ++ [(before, label)]) < 2 ^ 31 - 1) :
    Step monitorProgram before.toInt label after.toInt ∧
      after.shared.toInt.WW = writerWaits (trace ++ [(before, label)]) := by
  obtain ⟨thread, action⟩ := label
  rw [writerWaits_append, writerWaits_singleton] at waited ⊢
  have fits : before.shared.toInt.Fits := counts.fits few (by omega)
  have exact_section : ∀ outcome, action = .critical →
      monitorProgram.critical (before.locs thread) before.shared = some outcome →
        monitorProgram.critical (before.locs thread) before.shared.toInt =
          some (outcome.map Monitor.toInt) := by
    rintro outcome rfl ran
    refine critical_toInt ran fits fun ideal performed same => ?_
    refine (counts.critical performed).fits few ?_
    rw [if_congr (writerWaits_iff ran) rfl rfl] at waited
    rw [(monitorSection_of_critical performed).waits, same, counted]
    by_cases sleeps : outcome.sleepsOn = some .condWrite <;>
      simp only [sleeps, ↓reduceIte] at waited ⊢ <;> omega
  refine ⟨moved.map Monitor.toInt monitorProgram (fun _ _ allowed => allowed) exact_section, ?_⟩
  obtain ⟨next, rfl, -, -, shared, -⟩ | ⟨outcome, rfl, -, ran, shared, -⟩ | ⟨rfl, shared, -⟩ :=
    moved.locs_cases
  · simpa [WriterWaits, shared] using counted
  · have raised := (monitorSection_of_critical (exact_section outcome rfl ran)).waits
    rw [Outcome.shared_map, Outcome.sleepsOn_map, ← shared, counted] at raised
    rw [if_congr (writerWaits_iff ran) rfl rfl]
    refine raised.trans ?_
    split <;> rfl
  · simpa [WriterWaits, shared] using counted

/-- A run on `int`s of fewer than `2 ^ 31` threads, in which writers have waited fewer than
`2 ^ 31 - 1` times, is a run on integers. -/
theorem monitor_toInt (few : Fintype.card ι < 2 ^ 31)
    {trace : List (MonitorState Int32 ι × (ι × Action))} {state : MonitorState Int32 ι}
    (execution : (monitorSystem Int32 ι).Execution trace state)
    (waited : writerWaits trace < 2 ^ 31 - 1) :
    (monitorSystem ℤ ι).Execution (trace.map fun visit => (visit.1.toInt, visit.2)) state.toInt ∧
      state.shared.toInt.WW = writerWaits trace := by
  induction execution with
  | start initial =>
      subst initial
      exact ⟨.start rfl, rfl⟩
  | @step trace before after label execution moved ih =>
      obtain ⟨run, counted⟩ := ih (by rw [writerWaits_append] at waited; omega)
      have counts := monitorCounts_of_reachable ⟨_, run⟩
      obtain ⟨moved', counted'⟩ := monitor_step_toInt few moved counts counted waited
      rw [List.map_append]
      exact ⟨run.step moved', counted'⟩

/-- **Reader-writer exclusion.** In every run of fewer than `2 ^ 31` threads in which writers
have waited fewer than `2 ^ 31 - 1` times, `AR` and `AW` are the numbers of readers and
writers inside, there is at most one writer and none beside a reader, and no counter is
negative. -/
theorem monitor_exclusion (few : Fintype.card ι < 2 ^ 31)
    {trace : List (MonitorState Int32 ι × (ι × Action))} {state : MonitorState Int32 ι}
    (execution : (monitorSystem Int32 ι).Execution trace state)
    (waited : writerWaits trace < 2 ^ 31 - 1) : state.shared.toInt.Excludes state.locs :=
  (monitorCounts_of_reachable ⟨_, (monitor_toInt few execution waited).1⟩).excludes

/-- A reader is inside and a writer sleeps on its account. -/
theorem monitor_exclusion_contended :
    ∃ state : MonitorState Int32 (Fin 2), state.threads 1 = .asleep .condWrite .writerResume ∧
      state.shared.toInt.Excludes state.locs := by
  have start : (monitorSystem Int32 (Fin 2)).Execution [] MonitorState.start := .start rfl
  have readerInside := (start.step (.move 0 rfl .readerCheckin)).step
    (.leave 0 rfl rfl (.none _))
  have writerAsleep := (readerInside.step (.move 1 rfl .writerCheckin)).step (.wait 1 rfl rfl)
  exact ⟨_, rfl, monitor_exclusion (by decide) writerAsleep (by decide)⟩

/-! ## Behind the bound -/

/-- A writer is inside, another has waited for it a number of times, and a third thread is
outside. -/
def contended (waits : ℕ) : MonitorState Int32 (Fin 3) :=
  ⟨⟨0, 0, 1, Int32.ofNat waits⟩,
    Function.update (Function.update (fun _ => .awake .outside) 0 (.awake .writing))
      1 (.asleep .condWrite .writerResume)⟩

/-- A writer that is woken beside another waits again. -/
theorem exists_contended (waits : ℕ) :
    ∃ trace, (monitorSystem Int32 (Fin 3)).Execution trace (contended (waits + 1)) ∧
      writerWaits trace = waits + 1 := by
  induction waits with
  | zero =>
      have start : (monitorSystem Int32 (Fin 3)).Execution [] MonitorState.start := .start rfl
      have writerInside := (start.step (.move 0 rfl .writerCheckin)).step
        (.leave 0 rfl rfl (.none _))
      have waiting := (writerInside.step (.move 1 rfl .writerCheckin)).step (.wait 1 rfl rfl)
      simp only [Function.update_idem] at waiting
      exact ⟨_, waiting, rfl⟩
  | succ waits ih =>
      obtain ⟨trace, run, counted⟩ := ih
      have waiting := (run.step (.spurious 1 rfl)).step (.wait 1 rfl rfl)
      have raised : Int32.ofNat (waits + 1) + 1 = Int32.ofNat (waits + 1 + 1) :=
        (Int32.ofNat_add (waits + 1) 1).symm
      simp only [contended, Function.update_idem, raised] at waiting
      refine ⟨_, waiting, ?_⟩
      rw [writerWaits_append, writerWaits_append, counted]
      rfl

/-- **A reader beside a writer.** When writers have waited `2 ^ 31 - 1` times, `AW + WW` is
negative with a writer inside, and the next reader gets in. -/
theorem reader_beside_writer :
    ∃ trace, ∃ state : MonitorState Int32 (Fin 3),
      (monitorSystem Int32 (Fin 3)).Execution trace state ∧ writerWaits trace = 2 ^ 31 - 1 ∧
        ¬ state.shared.toInt.Excludes state.locs := by
  obtain ⟨trace, run, counted⟩ := exists_contended (2 ^ 31 - 2)
  have arrives := run.step (.move 2 rfl .readerCheckin)
  have enters := arrives.step (.leave 2 rfl rfl (.none _))
  refine ⟨_, _, enters, ?_, fun excluded => ?_⟩
  · rw [writerWaits_append, writerWaits_append, counted]
    decide
  · obtain ⟨-, -, -, apart, -⟩ := excluded
    cases apart (by decide)

end MultithreadedChat
