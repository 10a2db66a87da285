import MultithreadedChat.Server.ManagerPass

/-! # Silent clients

If no client gives a sign of life any more, the connection manager pings everybody once and
then removes everybody, within a number of passes that depends on the clients and on
`PING_TIMEOUT` only (`MultithreadedChat.silent_clients_removed`). A pass that neither
pings nor removes comes before the last ping has timed out, and there are at most
`PING_TIMEOUT` of these because `sleep` lets a second pass.
-/

namespace MultithreadedChat

open LinkedList

/-- The passes a silent client still costs that are not spent waiting. -/
def Client.patience (client : Client) : ℕ := if client.pingSent = 0 then 2 else 1

/-- The clients' last signs of life are too old, and all pings are in the past. -/
def Registry.Quiet (registry : Registry) (now : ℤ) : Prop :=
  ∀ node ∈ registry, node.2.lastActive + inactivityThreshold ≤ now ∧ node.2.pingSent ≤ now

namespace Registry

variable (registry : Registry)

def patience : ℕ := (registry.map fun node => node.2.patience).sum

/-- The passes at these times. -/
def passes (times : List ℤ) : Registry := times.foldl pass registry

@[simp] theorem patience_cons (node : ℕ × Client) :
    patience (node :: registry) = node.2.patience + patience registry := rfl

theorem patience_append (before after : Registry) :
    patience (before ++ after) = patience before + patience after := by
  simp [patience]

theorem patience_pos (client : Client) : 0 < client.patience := by
  unfold Client.patience
  split <;> decide

theorem eq_nil_of_patience {registry : Registry} (none : registry.patience = 0) :
    registry = [] := by
  cases registry with
  | nil => rfl
  | cons node registry =>
      have positive := patience_pos node.2
      rw [patience_cons] at none
      omega

theorem passes_nil (times : List ℤ) : passes [] times = [] := by
  induction times with
  | nil => rfl
  | cons time times ih => exact ih

variable {registry}

/-- Taking out the first client of a name costs none of the others. -/
theorem patience_remove_lt {node : ℕ × Client} (member : node ∈ registry) :
    (registry.remove node.2.clientName).patience < registry.patience := by
  obtain ⟨first, found⟩ : ∃ first, registry.named node.2.clientName = some first := by
    apply Option.isSome_iff_exists.mp
    rw [named, List.find?_isSome]
    exact ⟨node, member, by simp⟩
  obtain ⟨before, after, shape, removed⟩ := exists_remove_split found
  have positive := patience_pos first.2
  rw [removed, shape, patience_append, patience_append, patience_cons]
  omega

/-- What a pass does to clients that are silent since long. -/
theorem pass_cases (distinct : registry.ids.Nodup) (time : ℤ) :
    (registry.pass time = registry ∧ ∀ node ∈ registry, ¬ node.2.Due time) ∨
      (∃ before id client after, registry = before ++ (id, client) :: after ∧
        client.pingSent = 0 ∧
        registry.pass time = before ++ (id, { client with pingSent := time }) :: after) ∨
      ∃ node ∈ registry, node.2.pingSent ≠ 0 ∧
        registry.pass time = registry.remove node.2.clientName := by
  rw [pass]
  cases found : registry.find? fun node => node.2.overdue time with
  | none =>
      refine .inl ⟨rfl, fun node member due => ?_⟩
      have overdue := List.find?_eq_none.mp found node member
      exact overdue (Client.overdue_iff.mpr due)
  | some node =>
      obtain ⟨id, client⟩ := node
      by_cases unpinged : client.pingSent = 0
      · obtain ⟨-, before, after, shape, -⟩ := List.find?_eq_some_iff_append.mp found
        refine .inr (.inl ⟨before, id, client, after, shape, unpinged, ?_⟩)
        simp only [unpinged, ↓reduceIte]
        rw [shape] at distinct ⊢
        exact writeNode_append_cons distinct
      · refine .inr (.inr ⟨(id, client), List.mem_of_find?_eq_some found, unpinged, ?_⟩)
        simp only [unpinged, ↓reduceIte]

theorem ids_pass_nodup (distinct : registry.ids.Nodup) (time : ℤ) :
    (registry.pass time).ids.Nodup := by
  rcases pass_cases distinct time with ⟨same, -⟩ | ⟨before, id, client, after, shape, -, pinged⟩ |
    ⟨node, -, -, removed⟩
  · rwa [same]
  · rw [shape] at distinct
    rw [pinged]
    simpa [ids] using distinct
  · rw [removed]
    exact distinct.sublist (List.eraseP_sublist.map _)

/-- A pass keeps the clients silent, also the one it pings. -/
theorem Quiet.pass {now time : ℤ} (quiet : registry.Quiet now) (distinct : registry.ids.Nodup)
    (later : now < time) : (registry.pass time).Quiet time := by
  have waits : ∀ node ∈ registry,
      node.2.lastActive + inactivityThreshold ≤ time ∧ node.2.pingSent ≤ time := by
    intro node member
    have silent := quiet node member
    omega
  rcases pass_cases distinct time with ⟨same, -⟩ | ⟨before, id, client, after, shape, -, pinged⟩ |
    ⟨node, -, -, removed⟩
  · rwa [same]
  · intro node member
    rw [pinged] at member
    rcases List.mem_append.mp member with front | rest
    · exact waits node (shape ▸ List.mem_append_left _ front)
    · rcases List.mem_cons.mp rest with rfl | back
      · exact ⟨(waits (id, client) (by simp [shape])).1, Int.le_refl time⟩
      · exact waits node (by simp [shape, back])
  · intro node member
    rw [removed] at member
    exact waits node (List.mem_of_mem_eraseP member)

/-- Clients that have all been pinged by some time are removed one by one as soon as that
ping has timed out. -/
theorem passes_pinged {times : List ℤ} {now : ℤ} (last : ℤ) (distinct : registry.ids.Nodup)
    (increasing : (now :: times).Pairwise (· < ·)) (quiet : registry.Quiet now)
    (pinged : ∀ node ∈ registry, node.2.pingSent ≠ 0 ∧ node.2.pingSent ≤ last)
    (enough : registry.patience + (last + pingTimeout - now).toNat ≤ times.length) :
    registry.passes times = [] := by
  induction times generalizing registry now with
  | nil =>
      rw [List.length_nil] at enough
      have nobody : registry.patience = 0 := by omega
      exact eq_nil_of_patience nobody
  | cons time times ih =>
      rw [List.length_cons] at enough
      by_cases empty : registry = []
      · rw [empty]
        exact passes_nil _
      obtain ⟨someone, present⟩ := List.exists_mem_of_ne_nil _ empty
      have later : now < time := List.rel_of_pairwise_cons increasing List.mem_cons_self
      have distinct' := ids_pass_nodup distinct time
      have quiet' := quiet.pass distinct later
      refine ih distinct' increasing.tail quiet' ?_ ?_
      · rcases pass_cases distinct time with ⟨same, -⟩ |
          ⟨before, id, client, after, shape, unpinged, -⟩ | ⟨node, -, -, removed⟩
        · rwa [same]
        · exact ((pinged (id, client) (by simp [shape])).1 unpinged).elim
        · intro node member
          rw [removed] at member
          exact pinged node (List.mem_of_mem_eraseP member)
      · rcases pass_cases distinct time with ⟨same, idle⟩ |
          ⟨before, id, client, after, shape, unpinged, -⟩ | ⟨node, member, -, removed⟩
        · rw [same]
          -- a ping that has not timed out yet leaves no pass to waste
          have silent := (quiet someone present).1
          have asked := (pinged someone present).2
          have waiting : ¬ pingTimeout < time - someone.2.pingSent := by
            intro expired
            refine idle someone present ⟨?_, .inr expired⟩
            omega
          omega
        · exact ((pinged (id, client) (by simp [shape])).1 unpinged).elim
        · have fewer := patience_remove_lt member
          rw [removed]
          omega

/-- Silent clients are removed within a bounded number of passes. -/
theorem passes_silent {times : List ℤ} {now : ℤ} (distinct : registry.ids.Nodup)
    (increasing : (now :: times).Pairwise (· < ·)) (started : 0 ≤ now)
    (quiet : registry.Quiet now)
    (enough : registry.patience + pingTimeout.toNat ≤ times.length) :
    registry.passes times = [] := by
  induction times generalizing registry now with
  | nil =>
      rw [List.length_nil] at enough
      have nobody : registry.patience = 0 := by omega
      exact eq_nil_of_patience nobody
  | cons time times ih =>
      have later : now < time := List.rel_of_pairwise_cons increasing List.mem_cons_self
      have distinct' := ids_pass_nodup distinct time
      have quiet' := quiet.pass distinct later
      rcases pass_cases distinct time with ⟨-, idle⟩ |
        ⟨before, id, client, after, shape, unpinged, pinged⟩ | ⟨node, member, -, removed⟩
      · -- nobody is left to be pinged
        refine passes_pinged now distinct increasing quiet ?_ ?_
        · intro node member
          refine ⟨fun unpinged => idle node member ⟨?_, .inl unpinged⟩, (quiet node member).2⟩
          have silent := (quiet node member).1
          omega
        · rw [show now + pingTimeout - now = pingTimeout by omega]
          exact enough
      · have fewer : (registry.pass time).patience < registry.patience := by
          have positive : time ≠ 0 := by omega
          rw [pinged, shape, patience_append, patience_append, patience_cons, patience_cons]
          simp only [Client.patience, unpinged, positive, ↓reduceIte]
          omega
        rw [List.length_cons] at enough
        exact ih distinct' increasing.tail (by omega) quiet' (by omega)
      · have fewer := patience_remove_lt member
        rw [List.length_cons] at enough
        exact ih distinct' increasing.tail (by omega) quiet' (by rw [removed]; omega)

end Registry

section Told

variable {server : Server} (formed : server.clients.WellFormed)
include formed

/-- Where names are distinct, a pass removes only whom it tells. -/
theorem connectionManager_tells (distinct : server.registry.names.Nodup) (time : ℤ) :
    ∃ clients sent, connectionManager server time =
        .ok ({ server with clients := clients }, sent) ∧ clients.WellFormed ∧
      clients.nodes = server.registry.pass time ∧ (server.registry.pass time).names.Nodup ∧
      ∀ address ∈ server.registry.addresses,
        address ∈ (server.registry.pass time).addresses ∨ disconnresponse address ∈ sent := by
  rw [Registry.pass]
  cases found : server.registry.find? fun node => node.2.overdue time with
  | none =>
      exact ⟨_, _, connectionManager_idle formed found, formed, rfl, distinct,
        fun _ member => .inl member⟩
  | some node =>
      obtain ⟨id, client⟩ := node
      obtain ⟨-, before, after, shape, -⟩ := List.find?_eq_some_iff_append.mp found
      by_cases unpinged : client.pingSent = 0
      · obtain ⟨clients, done, formed', nodes⟩ := connectionManager_ping formed found unpinged
        simp only [unpinged, ↓reduceIte]
        have kept : ∀ {α : Type} (field : Client → α),
            (∀ client : Client, field { client with pingSent := time } = field client) →
            (writeNode id (fun client => { client with pingSent := time }) server.registry).map
              (fun node => field node.2) = server.registry.map fun node => field node.2 :=
          fun field => map_writeNode field
        refine ⟨clients, _, done, formed', nodes, ?_, fun address member => .inl ?_⟩
        · rw [Registry.names, kept Client.clientName fun _ => rfl]
          exact distinct
        · rw [Registry.addresses, kept Client.clientAddress fun _ => rfl]
          exact member
      · obtain ⟨clients, done, formed', nodes⟩ := connectionManager_remove formed found unpinged
        simp only [unpinged, ↓reduceIte]
        refine ⟨clients, _, done, formed', nodes,
          distinct.sublist (List.eraseP_sublist.map _), fun address member => ?_⟩
        have apart : ∀ node ∈ before, node.2.clientName ≠ client.clientName := by
          intro node front shared
          rw [shape, Registry.names, List.map_append, List.nodup_append] at distinct
          exact distinct.2.2 _ (List.mem_map_of_mem front) client.clientName (by simp) shared
        rw [shape] at member ⊢
        rw [(Registry.named_append_cons id client after apart).2]
        simp only [Registry.addresses, List.map_append, List.map_cons, List.mem_append,
          List.mem_cons] at member ⊢
        rcases member with front | rfl | back
        · exact .inl (.inl front)
        · exact .inr (.inl rfl)
        · exact .inl (.inr back)

/-- Passes one after the other, with the effect of the registry. -/
theorem handleEvents_passes (times : List ℤ) :
    ∃ server' sent, handleEvents server (times.map .managerPass) = .ok (server', sent) ∧
      server'.registry = server.registry.passes times ∧
      (server.registry.names.Nodup → ∀ address ∈ server.registry.addresses,
        address ∈ server'.registry.addresses ∨ disconnresponse address ∈ sent) := by
  induction times generalizing server with
  | nil => exact ⟨server, [], rfl, rfl, fun _ _ member => .inl member⟩
  | cons time times ih =>
      obtain ⟨clients, sent, done, formed', nodes⟩ := connectionManager_spec formed time
      have formedThere : ({ server with clients := clients } : Server).clients.WellFormed := formed'
      obtain ⟨server', later, rest, registry, told⟩ := ih formedThere
      refine ⟨server', sent ++ later, ?_, ?_, ?_⟩
      · simp only [List.map_cons, handleEvents, handle, done, ok_bind, rest, pure_eq_ok]
      · rw [registry, Server.registry, nodes]
        rfl
      · intro distinct address member
        obtain ⟨other, sent', same, -, -, distinct', kept⟩ :=
          connectionManager_tells formed distinct time
        obtain ⟨-, rfl⟩ := Prod.mk.inj (Except.ok.inj (done.symm.trans same))
        have listed : ({ server with clients := clients } : Server).registry =
            server.registry.pass time := nodes
        rw [listed] at told
        rcases kept address member with stays | gone
        · rcases told distinct' address stays with stays | gone
          · exact .inl stays
          · exact .inr (List.mem_append_right _ gone)
        · exact .inr (List.mem_append_left _ gone)

end Told

/-- **Silent clients are removed.** From every reachable state in which all clients have been
silent for longer than `INACTIVITY_THRESHOLD`, passes of the connection manager that are at
least a second apart empty the list: two for each client that has no ping outstanding, one
for each other, and at most `PING_TIMEOUT` that wait. If no two clients share a name, each of
them is told. -/
theorem silent_clients_removed {server : Server} (reachable : serverSystem.Reachable server)
    {now : ℤ} {times : List ℤ} (increasing : (now :: times).Pairwise (· < ·)) (started : 0 ≤ now)
    (quiet : server.registry.Quiet now)
    (enough : server.registry.patience + pingTimeout.toNat ≤ times.length) :
    ∃ server' sent, handleEvents server (times.map .managerPass) = .ok (server', sent) ∧
      server'.registry = [] ∧
      (server.registry.names.Nodup →
        ∀ address ∈ server.registry.addresses, disconnresponse address ∈ sent) := by
  have formed := wellFormed_of_reachable reachable
  obtain ⟨server', sent, done, registry, told⟩ := handleEvents_passes formed times
  have empty := registry.trans
    (Registry.passes_silent formed.nodup increasing started quiet enough)
  refine ⟨server', sent, done, empty, fun distinct address member => ?_⟩
  rcases told distinct address member with stays | gone
  · rw [empty] at stays
    cases stays
  · exact gone

/-- Two clients connect and fall silent. -/
theorem silent_clients_removed_two :
    ∃ server server' sent, serverSystem.Reachable server ∧ server.registry.length = 2 ∧
      handleEvents server (((List.range 14).map fun pass => 181 + (pass : ℤ)).map .managerPass) =
        .ok (server', sent) ∧ server'.registry = [] ∧
      ∀ address ∈ server.registry.addresses, disconnresponse address ∈ sent := by
  have start : serverSystem.Reachable Server.start := .start rfl
  have connected := (start.step (handled_step (.command (sampleRequest .conn 1 "A") 0) rfl)).step
    (handled_step (.command (sampleRequest .conn 2 "B") 0) rfl)
  have increasing : (180 :: (List.range 14).map fun pass => 181 + (pass : ℤ)).Pairwise (· < ·) := by
    decide
  obtain ⟨server', sent, done, empty, told⟩ := silent_clients_removed connected increasing
    (by decide) (by unfold Registry.Quiet; decide) (by decide)
  exact ⟨_, server', sent, connected, by decide, done, empty, told (by decide)⟩

end MultithreadedChat
