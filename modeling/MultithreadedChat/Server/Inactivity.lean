import MultithreadedChat.Server.Concurrent
import MultithreadedChat.Server.Sequential

/-! # Removal for inactivity

The connection manager decides by `last_active` and `ping_sent`, which the queue
manager resets in between. Recorded activity is respected as long as it comes neither
between a ping and its recording in `ping_sent` nor between the choice of a client and
its removal, the ping is sent at the time recorded for it, and the copied name still
leads to the chosen node (`MultithreadedChat.Undisturbed`): every client removed was
idle long enough and left a ping unanswered long enough
(`MultithreadedChat.inactivity_removal_justified`). An answer that arrives before its
ping is recorded is lost (`MultithreadedChat.answered_ping_removed`).
-/

namespace MultithreadedChat

open LinkedList

/-- A client whose last ping since its last activity was sent at `ping`, if at all, has
been idle and has not answered for too long. -/
def Client.Expired (client : Client) (ping : Option ℤ) (scanned : ℤ) : Prop :=
  inactivityThreshold < scanned - client.lastActive ∧
    ∃ sent, ping = some sent ∧ pingTimeout < scanned - sent

/-- The client that the connection manager has pinged but not recorded, or has chosen
but not removed. -/
def ManagerLoc.committedTo : ManagerLoc → Option ℕ
  | .recording node _ | .notifying node _ _ | .removing node _ _ => some node
  | .asleep | .timed _ | .pinging _ _ | .reporting _ => none

variable {ι : Type*}

/-- The step records no activity of the client that the connection manager is committed
to; a ping is sent at the time that will be recorded for it; a removal finds the chosen
client. -/
def Undisturbed (state : ConcurrentServer ι) : ThreadLabel ι → Prop
  | .receive _ request => request.command.kind ≠ .conn →
      ∀ node, state.registry.atAddress request.fromAddr = some node →
        state.manager.committedTo ≠ some node.1
  | .manager =>
    match state.manager with
    | .pinging _ currentTime => state.clock = currentTime
    | .removing node kickName _ => ∀ found, state.registry.named kickName = some found →
        found.1 = node
    | _ => True
  | .tick _ | .worker _ => True

/-- If the step removes a client for inactivity, that client has expired. -/
def RemovalJustified (state : ConcurrentServer ι) (label : ThreadLabel ι) : Prop :=
  ∀ node kickName scanned client, label = .manager →
    state.manager = .removing node kickName scanned → state.removed label = some client →
    client.2.Expired (state.pinged client.1) scanned

namespace ConcurrentServer

variable (state : ConcurrentServer ι)

/-- A recorded ping is the last one sent since the last activity. -/
def PingsRecorded : Prop :=
  ∀ node ∈ state.registry, node.2.pingSent ≠ 0 → state.pinged node.1 = some node.2.pingSent

/-- What the connection manager relies on for its next step. -/
def ManagerReady : Prop :=
  match state.manager with
  | .asleep | .reporting _ => True
  | .timed currentTime => currentTime ≤ state.clock
  | .pinging node _ => ∀ client, (node, client) ∈ state.registry → client.pingSent = 0
  | .recording node currentTime => state.pinged node = some currentTime
  | .notifying node _ scanned | .removing node _ scanned =>
    node < state.server.clients.heap.fresh ∧
      ∀ client, (node, client) ∈ state.registry → client.Expired (state.pinged node) scanned

end ConcurrentServer

namespace Registry

variable {registry : Registry}

/-- A node after a write is the written one or was there before. -/
theorem mem_writeNode {id : ℕ} {f : Client → Client} {node : ℕ × Client}
    (member : node ∈ writeNode id f registry) :
    (node.1 = id ∧ ∃ client, (id, client) ∈ registry ∧ node.2 = f client) ∨
      (node.1 ≠ id ∧ node ∈ registry) := by
  obtain ⟨old, present, rfl⟩ := List.mem_map.mp member
  by_cases same : old.1 = id
  · subst same
    rw [if_pos rfl]
    exact .inl ⟨rfl, old.2, present, rfl⟩
  · rw [if_neg same]
    exact .inr ⟨same, present⟩

end Registry

/-- Recorded activity, if it has any effect, resets the first node of the address. -/
theorem ConcurrentServer.mark_cases (state : ConcurrentServer ι) (request : Request) :
    (state.registry.mark request state.clock = state.registry ∧
        state.forget request = state.pinged) ∨
      ∃ node, request.command.kind ≠ .conn ∧
        state.registry.atAddress request.fromAddr = some node ∧
        state.registry.mark request state.clock =
          writeNode node.1 (Client.touched state.clock) state.registry ∧
        state.forget request = Function.update state.pinged node.1 none := by
  unfold Registry.mark Registry.touch Registry.writeAt forget
  cases found : state.registry.atAddress request.fromAddr with
  | none => exact .inl ⟨ite_self _, rfl⟩
  | some node =>
      by_cases other : request.command.kind ≠ .conn
      · rw [if_pos other]
        exact .inr ⟨node, other, rfl, rfl, if_pos other⟩
      · rw [if_neg other]
        exact .inl ⟨rfl, if_neg other⟩

/-- A worker adds clients that have not been pinged, and leaves the times of all others. -/
theorem WorkerLoc.mem_effect (server : Server) {now : ℤ} {loc : WorkerLoc} {node : ℕ × Client}
    (member : node ∈ loc.effect server now) :
    (node.1 = server.clients.heap.fresh ∧ node.2.pingSent = 0) ∨
      ∃ client, (node.1, client) ∈ server.registry ∧ node.2.lastActive = client.lastActive ∧
        node.2.pingSent = client.pingSent := by
  have kept : node ∈ server.registry → ∃ client, (node.1, client) ∈ server.registry ∧
      node.2.lastActive = client.lastActive ∧ node.2.pingSent = client.pingSent :=
    fun present => ⟨node.2, present, rfl, rfl⟩
  cases loc with
  | connectInsert request =>
      rcases List.mem_append.mp member with old | new
      · exact .inr (kept old)
      · obtain rfl := List.mem_singleton.mp new
        exact .inl ⟨rfl, rfl⟩
  | renameWrite request =>
      simp only [effect, Registry.writeAt] at member
      split at member
      · exact .inr (kept member)
      · rcases Registry.mem_writeNode member with ⟨same, client, present, written⟩ | ⟨-, old⟩
        · exact .inr ⟨client, same ▸ present, by rw [written], by rw [written]⟩
        · exact .inr (kept old)
  | _ =>
      simp only [effect] at member
      split at member
      · exact .inr (kept member)
      · exact .inr (kept (List.mem_of_mem_eraseP member))

namespace ConcurrentServer

variable (before : ConcurrentServer ι) {after : ConcurrentServer ι}

/-- A step that adds at most unpinged clients, and leaves the times of all others and the
connection manager, keeps what the connection manager relies on. -/
theorem ready_of_times_kept (registry : ∀ node ∈ after.registry,
      (node.1 = before.server.clients.heap.fresh ∧ node.2.pingSent = 0) ∨
        ∃ client, (node.1, client) ∈ before.registry ∧ node.2.lastActive = client.lastActive ∧
          node.2.pingSent = client.pingSent)
    (pinged : after.pinged = before.pinged) (manager : after.manager = before.manager)
    (clock : before.clock ≤ after.clock)
    (fresh : before.server.clients.heap.fresh ≤ after.server.clients.heap.fresh)
    (recorded : before.PingsRecorded) (ready : before.ManagerReady) :
    after.PingsRecorded ∧ after.ManagerReady := by
  constructor
  · intro node member sent
    rw [pinged]
    rcases registry node member with ⟨-, unpinged⟩ | ⟨client, present, -, same⟩
    · exact (sent unpinged).elim
    · rw [same] at sent ⊢
      exact recorded (node.1, client) present sent
  · unfold ManagerReady at ready ⊢
    rw [manager, pinged]
    cases here : before.manager with
    | asleep | reporting => trivial
    | timed currentTime =>
        rw [here] at ready
        exact Int.le_trans ready clock
    | pinging node currentTime =>
        rw [here] at ready
        intro client member
        rcases registry _ member with ⟨-, unpinged⟩ | ⟨old, present, -, same⟩
        · exact unpinged
        · exact same.trans (ready old present)
    | recording node currentTime =>
        rw [here] at ready
        exact ready
    | notifying node kickName scanned | removing node kickName scanned =>
        rw [here] at ready
        refine ⟨ready.1.trans_le fresh, ?_⟩
        intro client member
        rcases registry _ member with ⟨new, -⟩ | ⟨old, present, same, -⟩
        · exact (ready.1.ne new).elim
        · have expired := ready.2 old present
          rwa [Client.Expired, ← same] at expired

/-- Activity of a client that the connection manager is not committed to keeps what it
relies on. -/
theorem ready_of_touched {node : ℕ × Client}
    (uncommitted : before.manager.committedTo ≠ some node.1)
    (registry : after.registry = writeNode node.1 (Client.touched before.clock) before.registry)
    (pinged : after.pinged = Function.update before.pinged node.1 none)
    (manager : after.manager = before.manager) (clock : after.clock = before.clock)
    (fresh : after.server.clients.heap.fresh = before.server.clients.heap.fresh)
    (recorded : before.PingsRecorded) (ready : before.ManagerReady) :
    after.PingsRecorded ∧ after.ManagerReady := by
  constructor
  · intro other member sent
    rw [registry] at member
    rcases Registry.mem_writeNode member with ⟨-, client, -, written⟩ | ⟨different, present⟩
    · rw [written] at sent
      exact (sent rfl).elim
    · rw [pinged, Function.update_of_ne different]
      exact recorded other present sent
  · have untouched : ∀ {id : ℕ} {client : Client}, (id, client) ∈ after.registry → id ≠ node.1 →
        (id, client) ∈ before.registry := by
      intro id client member different
      rw [registry] at member
      rcases Registry.mem_writeNode member with ⟨same, -⟩ | ⟨-, present⟩
      · exact (different same).elim
      · exact present
    unfold ManagerReady at ready ⊢
    rw [manager, pinged]
    cases here : before.manager with
    | asleep | reporting => trivial
    | timed currentTime =>
        rw [here] at ready
        rwa [clock]
    | pinging chosen currentTime =>
        rw [here] at ready
        intro client member
        by_cases same : chosen = node.1
        · rw [registry] at member
          rcases Registry.mem_writeNode member with ⟨-, old, -, written⟩ | ⟨different, -⟩
          · exact congrArg Client.pingSent written
          · exact (different same).elim
        · exact ready client (untouched member same)
    | recording chosen currentTime =>
        rw [here] at ready uncommitted
        have different : chosen ≠ node.1 := fun same => uncommitted (congrArg some same)
        exact (Function.update_of_ne different ..).trans ready
    | notifying chosen kickName scanned | removing chosen kickName scanned =>
        rw [here] at ready uncommitted
        have different : chosen ≠ node.1 := fun same => uncommitted (congrArg some same)
        refine ⟨fresh ▸ ready.1, ?_⟩
        intro client member
        rw [Function.update_of_ne different]
        exact ready.2 client (untouched member different)

end ConcurrentServer

/-- A step of the connection manager keeps what it relies on. -/
theorem ConcurrentServer.ready_of_manager (before : ConcurrentServer ι) {after : ConcurrentServer ι}
    (went : before.manager.Next before.registry before.clock after.manager)
    (formed : before.server.clients.WellFormed) (undisturbed : Undisturbed before .manager)
    (registry : after.registry = before.manager.effect before.server)
    (pinged : after.pinged = before.remember) (clock : after.clock = before.clock)
    (fresh : before.server.clients.heap.fresh ≤ after.server.clients.heap.fresh)
    (recorded : before.PingsRecorded) (ready : before.ManagerReady) :
    after.PingsRecorded ∧ after.ManagerReady := by
  have unique : ∀ {node : ℕ × Client} {client : Client}, node ∈ before.registry →
      (node.1, client) ∈ before.registry → client = node.2 := by
    intro node client one other
    exact congrArg Prod.snd (List.inj_on_of_nodup_map formed.nodup other one rfl)
  unfold ConcurrentServer.PingsRecorded ConcurrentServer.ManagerReady at *
  rw [registry, pinged, clock]
  unfold Undisturbed at undisturbed
  unfold ConcurrentServer.remember
  generalize before.manager = here at *
  generalize after.manager = there at *
  cases went with
  | woken => exact ⟨recorded, Int.le_refl _⟩
  | nobody => exact ⟨recorded, trivial⟩
  | toPing overdue unpinged =>
      refine ⟨recorded, ?_⟩
      intro client member
      rw [unique (List.mem_of_find?_eq_some overdue) member]
      exact unpinged
  | @toKick currentTime node overdue sent =>
      have present := List.mem_of_find?_eq_some overdue
      refine ⟨recorded, (formed.lt_fresh (List.mem_map_of_mem present)).trans_le fresh, ?_⟩
      intro client member
      obtain rfl := unique present member
      have chosen := List.find?_some overdue
      simp only [Client.overdue, Bool.and_eq_true, Bool.or_eq_true, decide_eq_true_eq,
        beq_iff_eq, sent, false_or] at chosen
      have past : currentTime ≤ before.clock := ready
      exact ⟨by omega, _, recorded node present sent, by omega⟩
  | pinged chosen currentTime =>
      refine ⟨?_, ?_⟩
      · intro node member sent
        have different : node.1 ≠ chosen := by
          rintro rfl
          exact sent (ready node.2 member)
        exact (Function.update_of_ne different ..).trans (recorded node member sent)
      · exact (Function.update_self ..).trans (congrArg some undisturbed)
  | recorded chosen currentTime =>
      refine ⟨?_, trivial⟩
      intro node member sent
      have wrote : node ∈ writeNode chosen (fun client => { client with pingSent := currentTime })
          before.registry := member
      rcases Registry.mem_writeNode wrote with ⟨same, client, -, written⟩ | ⟨-, old⟩
      · rw [same, written]
        exact ready
      · exact recorded node old sent
  | reported => exact ⟨recorded, trivial⟩
  | notified => exact ⟨recorded, ready.1.trans_le fresh, ready.2⟩
  | removed =>
      refine ⟨?_, trivial⟩
      intro node member sent
      exact recorded node (List.mem_of_mem_eraseP member) sent

variable [DecidableEq ι]

/-- An undisturbed step keeps what the connection manager relies on. -/
theorem ConcurrentStep.ready {before after : ConcurrentServer ι} {label : ThreadLabel ι}
    (moved : ConcurrentStep before label after) (formed : before.server.clients.WellFormed)
    (undisturbed : Undisturbed before label)
    (recorded : before.PingsRecorded) (ready : before.ManagerReady) :
    after.PingsRecorded ∧ after.ManagerReady := by
  obtain ⟨-, fresh, effect⟩ := moved.spec formed
  have unchanged : after.registry = before.registry → ∀ node ∈ after.registry,
      (node.1 = before.server.clients.heap.fresh ∧ node.2.pingSent = 0) ∨
        ∃ client, (node.1, client) ∈ before.registry ∧ node.2.lastActive = client.lastActive ∧
          node.2.pingSent = client.pingSent := by
    intro same node member
    exact .inr ⟨node.2, same ▸ member, rfl, rfl⟩
  cases moved with
  | tick now later =>
      exact ConcurrentServer.ready_of_times_kept before (unchanged effect) rfl rfl later fresh
        recorded ready
  | receive worker request _ marked =>
      obtain ⟨clients, done, -, same, -⟩ := markActivity_spec formed request before.clock
      obtain rfl := Except.ok.inj (done.symm.trans marked)
      rcases before.mark_cases request with ⟨still, kept⟩ | ⟨node, kind, found, touched, forgot⟩
      · exact ConcurrentServer.ready_of_times_kept before (unchanged (effect.trans still)) kept rfl
          (Int.le_refl _) fresh recorded ready
      · exact ConcurrentServer.ready_of_touched before (undisturbed kind node found)
          (effect.trans touched) forgot rfl rfl same recorded ready
  | @worker worker loc server sent next running stepped =>
      refine ConcurrentServer.ready_of_times_kept before ?_ rfl rfl (Int.le_refl _) fresh
        recorded ready
      intro node member
      rw [effect, ConcurrentServer.effect, running] at member
      exact WorkerLoc.mem_effect before.server member
  | manager stepped =>
      exact ConcurrentServer.ready_of_manager before (ManagerLoc.step_next formed stepped) formed
        undisturbed effect rfl rfl fresh recorded ready

/-- What the connection manager relies on holds at the end of every undisturbed run. -/
theorem ready_along {trace : List (ConcurrentServer ι × ThreadLabel ι)}
    {state : ConcurrentServer ι} (execution : (concurrentSystem ι).Execution trace state)
    (undisturbed : ∀ visit ∈ trace, Undisturbed visit.1 visit.2) :
    state.PingsRecorded ∧ state.ManagerReady := by
  have all := execution.guarded_invariant (G := Undisturbed)
    (I := fun state => state.server.clients.WellFormed ∧ state.PingsRecorded ∧
      state.ManagerReady) ?_ ?_ undisturbed
  · exact all.2
  · rintro state ⟨clock, rfl⟩
    exact ⟨ClientList.empty_wellFormed.1, nofun, trivial⟩
  · rintro before label after ⟨formed, recorded, ready⟩ step moved
    exact ⟨(moved.spec formed).1, moved.ready formed step recorded ready⟩

omit [DecidableEq ι] in
/-- The client that a prepared connection manager removes has expired. -/
theorem ConcurrentServer.ManagerReady.removal {state : ConcurrentServer ι} {label : ThreadLabel ι}
    (ready : state.ManagerReady) (undisturbed : Undisturbed state label) :
    RemovalJustified state label := by
  rintro node kickName scanned client rfl here removed
  have found : state.registry.named kickName = some client := by
    rwa [ConcurrentServer.removed, removalName, here, ManagerLoc.removalName,
      Option.bind_some] at removed
  simp only [ManagerReady, here] at ready
  simp only [Undisturbed, here] at undisturbed
  obtain rfl := undisturbed client found
  exact ready.2 client.2 (List.mem_of_find?_eq_some found)

/-- **Removals for inactivity are justified.** In an undisturbed run, every client that
the connection manager removes was idle for more than the threshold when it scanned the
list, and was sent a ping after its last activity, more than the timeout before the
scan; nothing was recorded of it since. -/
theorem inactivity_removal_justified {trace : List (ConcurrentServer ι × ThreadLabel ι)}
    {state : ConcurrentServer ι} (execution : (concurrentSystem ι).Execution trace state)
    (undisturbed : ∀ visit ∈ trace, Undisturbed visit.1 visit.2) :
    ∀ visit ∈ trace, RemovalJustified visit.1 visit.2 := by
  intro visit member
  obtain ⟨earlier, initialPart, run⟩ := execution.visited member
  have ready := (ready_along run fun visit old => undisturbed visit (initialPart.subset old)).2
  exact ready.removal (undisturbed visit member)

/-- A client stays silent, is pinged, and is removed eleven seconds later. -/
theorem inactivity_removal_justified_silent :
    ∃ state : ConcurrentServer (Fin 1), (∃ client, state.removed .manager = some client ∧
      state.manager = .removing client.1 client.2.clientName 211) ∧
      RemovalJustified state .manager := by
  have start : (concurrentSystem (Fin 1)).Execution [] (.start 0) := .start ⟨0, rfl⟩
  have connects := (start.step (.receive 0 (sampleRequest .conn 1 "A") rfl rfl)).step
    (.worker 0 rfl rfl)
  have scanned := ((connects.step (.tick 200 (by decide))).step (.manager rfl)).step (.manager rfl)
  have pinged := ((scanned.step (.manager rfl)).step (.manager rfl)).step (.manager rfl)
  have overdue := ((pinged.step (.tick 211 (by decide))).step (.manager rfl)).step (.manager rfl)
  have told := overdue.step (.manager rfl)
  have removed := told.step (.manager rfl)
  have justified := inactivity_removal_justified removed (by
    simp only [List.nil_append, List.cons_append, List.mem_cons, List.not_mem_nil, or_false]
    rintro visit (rfl | rfl | rfl | rfl | rfl | rfl | rfl | rfl | rfl | rfl | rfl | rfl | rfl)
    exacts [fun other => (other rfl).elim, trivial, trivial, trivial, trivial, rfl, trivial,
      trivial, trivial, trivial, trivial, trivial, fun found named => by cases named; rfl])
  exact ⟨_, ⟨_, rfl, rfl⟩, justified _ (List.mem_append_right _ List.mem_cons_self)⟩

/-- **An answered ping.** The answer to a ping comes before the ping is recorded. The
next time the client is idle for long enough, it is removed without another ping. -/
theorem answered_ping_removed :
    ∃ trace, ∃ state : ConcurrentServer (Fin 1),
      (concurrentSystem (Fin 1)).Execution trace state ∧
        ∃ visit ∈ trace, ¬ RemovalJustified visit.1 visit.2 := by
  have start : (concurrentSystem (Fin 1)).Execution [] (.start 0) := .start ⟨0, rfl⟩
  have connects := (start.step (.receive 0 (sampleRequest .conn 1 "A") rfl rfl)).step
    (.worker 0 rfl rfl)
  have connected := connects.step (.worker 0 rfl rfl)
  have scanned := ((connected.step (.tick 200 (by decide))).step (.manager rfl)).step
    (.manager rfl)
  have sent := scanned.step (.manager rfl)
  have answered := sent.step (.receive 0 (sampleRequest .retping 1 "") rfl rfl)
  have recorded := (answered.step (.manager rfl)).step (.manager rfl)
  have overdue := ((recorded.step (.tick 381 (by decide))).step (.manager rfl)).step (.manager rfl)
  have removed := (overdue.step (.manager rfl)).step (.manager rfl)
  refine ⟨_, _, removed, _, List.mem_append_right _ List.mem_cons_self, ?_⟩
  intro justified
  obtain ⟨-, ping, none, -⟩ := justified _ _ _ _ rfl rfl rfl
  cases none

end MultithreadedChat
