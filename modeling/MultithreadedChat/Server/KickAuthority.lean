import MultithreadedChat.Server.Concurrent
import MultithreadedChat.Server.Sequential

/-! # The authority of a kick

`kick` checks the requester in one critical section and removes in another. While no
step between the two takes the head out of the list, the requester is still the
administrator when the removal happens (`MultithreadedChat.kick_by_admin`). But another
worker may disconnect the administrator in between
(`MultithreadedChat.kick_by_former_admin`).
-/

namespace MultithreadedChat

open LinkedList

variable {ι : Type*}

/-- Every kick that passed its check is the administrator's. -/
def KicksAuthorized (state : ConcurrentServer ι) : Prop :=
  ∀ worker request, state.workers worker = some (.kickRemove request) →
    state.registry.administers request.fromAddr = true

/-- The step does not take the head out of the list while another worker's kick is
between its check and its removal, unless the next client has the requester's address,
too. -/
def KeepsAdmin (state : ConcurrentServer ι) (label : ThreadLabel ι) : Prop :=
  ∀ node, state.removed label = some node → state.registry.head? = some node →
    ∀ worker request, label ≠ .worker worker → state.workers worker = some (.kickRemove request) →
      Registry.administers state.registry.tail request.fromAddr = true

/-- A step that keeps an administrator's place keeps it the administrator. -/
theorem administers_effect {state : ConcurrentServer ι} {label : ThreadLabel ι}
    {address : SockAddrIn} (admin : state.registry.administers address = true)
    (keeps : ∀ node, state.removed label = some node → state.registry.head? = some node →
      Registry.administers state.registry.tail address = true) :
    (state.effect label).administers address = true := by
  rcases state.effect_cases label with ⟨-, added, places⟩ | ⟨name, node, found, removed, effect⟩
  · rw [Registry.administers_iff] at admin ⊢
    rw [← places]
    cases first : state.registry.places with
    | nil =>
        rw [first] at admin
        cases admin
    | cons place rest =>
        rw [first] at admin
        exact admin
  · obtain ⟨before, after, shape, rest⟩ := Registry.exists_remove_split found
    rw [effect, rest]
    cases before with
    | nil =>
        have admin' := keeps node removed (by rw [shape]; rfl)
        rwa [shape] at admin'
    | cons first front =>
        rw [shape] at admin
        exact admin

variable [DecidableEq ι]

theorem KicksAuthorized.step {before after : ConcurrentServer ι} {label : ThreadLabel ι}
    (moved : ConcurrentStep before label after) (formed : before.server.clients.WellFormed)
    (authorized : KicksAuthorized before) (keeps : KeepsAdmin before label) :
    KicksAuthorized after := by
  intro worker request pending
  rw [(moved.spec formed).2.2]
  rcases moved.worker_cases formed pending with
    ⟨other, pending⟩ | ⟨started, -, begins⟩ | ⟨earlier, rfl, running, went⟩
  · exact administers_effect (authorized worker request pending) fun node removed head =>
      keeps node removed head worker request other pending
  · unfold WorkerLoc.start at begins
    split at begins <;> cases begins
  · cases went with
    | approved admin =>
        rw [ConcurrentServer.effect, running]
        exact admin

/-- **Kicks by the administrator.** In a run in which no step takes the head out of the
list while another worker's kick is between its check and its removal, every kick that
reaches its removal was requested from the address of the current head. -/
theorem kick_by_admin {trace : List (ConcurrentServer ι × ThreadLabel ι)}
    {state : ConcurrentServer ι} (execution : (concurrentSystem ι).Execution trace state)
    (keeps : ∀ visit ∈ trace, KeepsAdmin visit.1 visit.2) : KicksAuthorized state := by
  have both := execution.guarded_invariant (G := KeepsAdmin)
    (I := fun state => state.server.clients.WellFormed ∧ KicksAuthorized state) ?_ ?_ keeps
  · exact both.2
  · rintro state ⟨clock, rfl⟩
    exact ⟨ClientList.empty_wellFormed.1, nofun⟩
  · rintro before label after ⟨formed, authorized⟩ keeping moved
    exact ⟨(moved.spec formed).1, authorized.step moved formed keeping⟩

/-- The administrator's kick of another client is about to be carried out. -/
theorem kick_by_admin_pending :
    ∃ state : ConcurrentServer (Fin 2), ∃ request node,
      state.workers 0 = some (.kickRemove request) ∧ state.removed (.worker 0) = some node ∧
        state.registry.administers request.fromAddr = true := by
  have start : (concurrentSystem (Fin 2)).Execution [] (.start 0) := .start ⟨0, rfl⟩
  have oneConnects := (start.step (.receive 0 (sampleRequest .conn 1 "A") rfl rfl)).step
    (.worker 0 rfl rfl)
  have twoConnects := (oneConnects.step (.receive 1 (sampleRequest .conn 2 "B") rfl rfl)).step
    (.worker 1 rfl rfl)
  have oneConnected := twoConnects.step (.worker 0 rfl rfl)
  have kickChecked := (oneConnected.step (.receive 0 (sampleRequest .kick 1 "B") rfl rfl)).step
    (.worker 0 rfl rfl)
  have authorized := kick_by_admin kickChecked (by
    simp only [List.nil_append, List.cons_append, List.mem_cons, List.not_mem_nil, or_false]
    rintro visit (rfl | rfl | rfl | rfl | rfl | rfl | rfl) node removed <;> cases removed)
  exact ⟨_, _, _, rfl, rfl, authorized 0 _ rfl⟩

/-- **A former administrator's kick.** The administrator disconnects while its kick
waits to be carried out; the kick then removes the new administrator. -/
theorem kick_by_former_admin :
    ∃ state : ConcurrentServer (Fin 2), (concurrentSystem (Fin 2)).Reachable state ∧
      ∃ request node, state.workers 0 = some (.kickRemove request) ∧
        state.removed (.worker 0) = some node ∧
        state.registry.administers request.fromAddr = false := by
  have start : (concurrentSystem (Fin 2)).Reachable (.start 0) := .start ⟨0, rfl⟩
  have oneConnects := (start.step (.receive 0 (sampleRequest .conn 1 "A") rfl rfl)).step
    (.worker 0 rfl rfl)
  have twoConnects := (oneConnects.step (.receive 1 (sampleRequest .conn 2 "B") rfl rfl)).step
    (.worker 1 rfl rfl)
  have connected := (twoConnects.step (.worker 0 rfl rfl)).step (.worker 1 rfl rfl)
  have kickChecked := (connected.step (.receive 0 (sampleRequest .kick 1 "B") rfl rfl)).step
    (.worker 0 rfl rfl)
  have adminFound := (kickChecked.step (.receive 1 (sampleRequest .disconn 1 "") rfl rfl)).step
    (.worker 1 rfl rfl)
  have adminGone := adminFound.step (.worker 1 rfl rfl)
  exact ⟨_, adminGone, _, _, rfl, rfl, by decide⟩

end MultithreadedChat
