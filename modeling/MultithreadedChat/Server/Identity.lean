import MultithreadedChat.Server.Sequential

/-! # Addresses and names as keys of the registry

The handlers find a sender by its address and remove a client by its name. Both are
keys of the registry exactly as long as every connection brings a new address and a
new name, and every renaming a new name (`MultithreadedChat.keyed_along_iff`); no
handler checks it.

Since `disconnect` looks the requester up by address and removes by name, it removes
the requester exactly if nobody before it has its name, and nobody behind it has its
address (`MultithreadedChat.disconnect_removes_requester_iff`).
-/

namespace MultithreadedChat

/-! ## Disconnecting -/

/-- The handling of a `disconn` takes exactly the nodes of the requester's address out of
the registry, and confirms it to the requester alone. -/
def DisconnectsRequester (server : Server) (request : Request) (now : ℤ) : Prop :=
  ∃ server', spawnExecuteCommandThreads server request now =
      .ok (server', [disconnresponse request.fromAddr]) ∧
    server'.registry =
      server.registry.filter fun node => node.2.clientAddress ≠ request.fromAddr

namespace Registry

variable {before after : Registry}

/-- When somebody before has the name, the first client of the name is one of them. -/
theorem named_append_mem {name : Name} {node : ℕ × Client} (member : node ∈ before)
    (same : node.2.clientName = name) {removed : ℕ × Client}
    (found : Registry.named (before ++ after) name = some removed) : removed ∈ before := by
  rw [named, List.find?_append] at found
  cases first : before.find? fun node => node.2.clientName == name with
  | none => exact (List.find?_eq_none.mp first node member (by simpa using same)).elim
  | some other =>
      rw [first, Option.some_or, Option.some.injEq] at found
      exact found ▸ List.mem_of_find?_eq_some first

end Registry

/-- What a `disconn` of a known client does. -/
theorem spawn_disconn {server : Server} (formed : server.clients.WellFormed) {request : Request}
    (kind : request.command.kind = .disconn) (now : ℤ) {before after : Registry} {id : ℕ}
    {client : Client} (shape : server.registry = before ++ (id, client) :: after)
    (missed : ∀ node ∈ before, node.2.clientAddress ≠ request.fromAddr)
    (found : client.clientAddress = request.fromAddr) :
    ∃ server' removed,
      Registry.named (before ++ (id, client.touched now) :: after)
        client.clientName = some removed ∧
      spawnExecuteCommandThreads server request now =
        .ok (server', [disconnresponse removed.2.clientAddress]) ∧
      server'.registry =
        Registry.remove (before ++ (id, client.touched now) :: after)
          client.clientName := by
  obtain ⟨clients, same, formed', -, nodes⟩ := spawn_eq_execute formed request now
  rw [Registry.mark, if_pos (by rw [kind]; decide)] at nodes
  have distinct := formed.nodup
  rw [show server.clients.nodes = _ from shape] at distinct
  have touched : clients.nodes =
      before ++ (id, client.touched now) :: after := by
    rw [nodes, shape]
    exact Registry.writeAt_append_cons distinct missed found _
  have formedThere : ({ server with clients := clients } : Server).clients.WellFormed := formed'
  have present : ({ server with clients := clients } : Server).registry.atAddress
      request.fromAddr = some (id, client.touched now) := by
    rw [Server.registry, touched]
    exact Registry.atAddress_append_cons missed found
  obtain ⟨clients', removed, named, done, -, left⟩ := disconnect_present formedThere present
  rw [Server.registry, touched] at named left
  refine ⟨{ server with clients := clients' }, removed, named, ?_, left⟩
  rw [same, executeCommand, kind]
  exact done

/-- **When `disconnect` removes the requester.** A known client is disconnected as
requested exactly if no node before its own has its name, and no node behind has its
address. -/
theorem disconnect_removes_requester_iff {server : Server}
    (reachable : serverSystem.Reachable server) {request : Request}
    (kind : request.command.kind = .disconn) (now : ℤ) {before after : Registry} {id : ℕ}
    {client : Client} (shape : server.registry = before ++ (id, client) :: after)
    (missed : ∀ node ∈ before, node.2.clientAddress ≠ request.fromAddr)
    (found : client.clientAddress = request.fromAddr) :
    DisconnectsRequester server request now ↔
      (∀ node ∈ before, node.2.clientName ≠ client.clientName) ∧
        ∀ node ∈ after, node.2.clientAddress ≠ request.fromAddr := by
  obtain ⟨server', removed, named, done, left⟩ :=
    spawn_disconn (wellFormed_of_reachable reachable) kind now shape missed found
  have kept : before.filter (fun node => node.2.clientAddress ≠ request.fromAddr) = before :=
    List.filter_eq_self.mpr fun node member => by simpa using missed node member
  have expected : server.registry.filter (fun node => node.2.clientAddress ≠ request.fromAddr) =
      before ++ after.filter fun node => node.2.clientAddress ≠ request.fromAddr := by
    rw [shape, List.filter_append, kept, List.filter_cons_of_neg (by simpa using found)]
  have alone : (∀ node ∈ before, node.2.clientName ≠ client.clientName) →
      removed = (id, client.touched now) ∧ server'.registry = before ++ after := by
    intro unshared
    obtain ⟨first, rest⟩ :=
      Registry.named_append_cons id (client.touched now) after unshared
    exact ⟨Option.some.inj (named.symm.trans first), left.trans rest⟩
  constructor
  · rintro ⟨other, claimed, remaining⟩
    rw [done] at claimed
    obtain ⟨rfl, answered⟩ := Prod.mk.inj (Except.ok.inj claimed)
    have requester : removed.2.clientAddress = request.fromAddr :=
      congrArg Datagram.addr (List.cons.inj answered).1
    have unshared : ∀ node ∈ before, node.2.clientName ≠ client.clientName := by
      intro node member shared
      exact missed removed (Registry.named_append_mem member shared named) requester
    refine ⟨unshared, ?_⟩
    rw [expected, (alone unshared).2] at remaining
    have filtered := List.append_cancel_left remaining
    intro node member
    rw [filtered] at member
    simpa using (List.mem_filter.mp member).2
  · rintro ⟨unshared, elsewhere⟩
    obtain ⟨itself, rest⟩ := alone unshared
    refine ⟨server', ?_, ?_⟩
    · rw [done, itself]
      exact congrArg (fun addr => Except.ok (server', [disconnresponse addr])) found
    · rw [expected, rest, List.filter_eq_self.mpr fun node member => by
        simpa using elsewhere node member]

/-- The second of two clients disconnects. -/
theorem second_client_disconnects :
    ∃ server, serverSystem.Reachable server ∧ server.registry.length = 2 ∧
      DisconnectsRequester server (sampleRequest .disconn 2 "") 0 := by
  have start : serverSystem.Reachable Server.start := .start rfl
  have one := start.step (handled_step (.command (sampleRequest .conn 1 "A") 0) rfl)
  obtain ⟨server, connected, shape⟩ : ∃ server, serverSystem.Reachable server ∧
      server.registry =
        [(0, ⟨⟨2, 1, 16777343, 0⟩, (sampleRequest .conn 1 "A").command.args 0, 0, 0⟩)] ++
          (1, ⟨⟨2, 2, 16777343, 0⟩, (sampleRequest .conn 2 "B").command.args 0, 0, 0⟩) :: [] :=
    ⟨_, one.step (handled_step (.command (sampleRequest .conn 2 "B") 0) rfl), rfl⟩
  refine ⟨server, connected, congrArg List.length shape, ?_⟩
  refine (disconnect_removes_requester_iff connected
    (show (sampleRequest .disconn 2 "").command.kind = .disconn from rfl) 0 shape ?_ rfl).mpr
      ⟨?_, List.forall_mem_nil _⟩
  · exact List.forall_mem_singleton.mpr (by decide)
  · exact List.forall_mem_singleton.mpr (by decide)

/-- Of two clients of one name, the second disconnects and the first is removed. -/
theorem namesake_disconnected :
    ∃ server, serverSystem.Reachable server ∧
      (sampleRequest .disconn 2 "").fromAddr ∈ server.registry.addresses ∧
      ¬ DisconnectsRequester server (sampleRequest .disconn 2 "") 0 := by
  have start : serverSystem.Reachable Server.start := .start rfl
  have one := start.step (handled_step (.command (sampleRequest .conn 1 "A") 0) rfl)
  have two := one.step (handled_step (.command (sampleRequest .conn 2 "A") 0) rfl)
  obtain ⟨server, reachable, known, answer⟩ : ∃ server, serverSystem.Reachable server ∧
      (sampleRequest .disconn 2 "").fromAddr ∈ server.registry.addresses ∧
      (spawnExecuteCommandThreads server (sampleRequest .disconn 2 "") 0).toOption.map Prod.snd =
        some [disconnresponse (sampleRequest .conn 1 "").fromAddr] :=
    ⟨_, two, by decide, rfl⟩
  refine ⟨server, reachable, known, ?_⟩
  rintro ⟨server', done, -⟩
  rw [done] at answer
  have other : [disconnresponse (sampleRequest .disconn 2 "").fromAddr] =
      [disconnresponse (sampleRequest .conn 1 "").fromAddr] := Option.some.inj answer
  revert other
  decide

/-! ## Keys -/

/-- No two clients share an address, and no two share a name. -/
def Registry.Keyed (registry : Registry) : Prop := registry.addresses.Nodup ∧ registry.names.Nodup

/-- A connection brings an unused address and an unused name, and a known client is
renamed to a name that no client of another address has. -/
def FreshKeys (server : Server) : ServerEvent → Prop
  | .command request _ =>
    (request.command.kind = .conn → request.fromAddr ∉ server.registry.addresses ∧
      request.command.args 0 ∉ server.registry.names) ∧
    (request.command.kind = .rename → ∀ node ∈ server.registry,
      node.2.clientName = request.command.args 0 → node.2.clientAddress = request.fromAddr)
  | .managerPass _ => True

namespace Registry

variable {registry : Registry}

theorem Keyed.congr {other : Registry} (addresses : other.addresses = registry.addresses)
    (names : other.names = registry.names) : other.Keyed ↔ registry.Keyed := by
  rw [Keyed, Keyed, addresses, names]

theorem Keyed.remove (keyed : registry.Keyed) (name : Name) : (registry.remove name).Keyed := by
  obtain ⟨addresses, names⟩ := keyed
  have shorter : (registry.remove name).Sublist registry := List.eraseP_sublist
  exact ⟨addresses.sublist (shorter.map _), names.sublist (shorter.map _)⟩

/-- A new client keeps the keys exactly if its address and its name are unused. -/
theorem Keyed.snoc_iff (keyed : registry.Keyed) (id : ℕ) (client : Client) :
    Keyed (registry ++ [(id, client)]) ↔
      client.clientAddress ∉ registry.addresses ∧ client.clientName ∉ registry.names := by
  obtain ⟨addresses, names⟩ := keyed
  have addressesSnoc : Registry.addresses (registry ++ [(id, client)]) =
      registry.addresses.concat client.clientAddress := by
    rw [Registry.addresses, List.map_append, List.concat_eq_append]
    rfl
  have namesSnoc : Registry.names (registry ++ [(id, client)]) =
      registry.names.concat client.clientName := by
    rw [Registry.names, List.map_append, List.concat_eq_append]
    rfl
  rw [Keyed, addressesSnoc, namesSnoc, List.nodup_concat, List.nodup_concat]
  simp only [addresses, names, and_true]

/-- Renaming a client keeps the keys exactly if no client of another address has the
new name. -/
theorem Keyed.renamed_iff {before after : Registry} {id : ℕ} {client renamed : Client}
    (keyed : Keyed (before ++ (id, client) :: after))
    (there : renamed.clientAddress = client.clientAddress) :
    Keyed (before ++ (id, renamed) :: after) ↔
      ∀ node ∈ before ++ (id, client) :: after,
        node.2.clientName = renamed.clientName → node.2.clientAddress = client.clientAddress := by
  obtain ⟨addresses, names⟩ := keyed
  have sameAddresses : Registry.addresses (before ++ (id, renamed) :: after) =
      Registry.addresses (before ++ (id, client) :: after) := by
    simp only [Registry.addresses, List.map_append, List.map_cons, there]
  have apart : ∀ node ∈ before ++ after, node.2.clientAddress ≠ client.clientAddress := by
    have distinct := addresses
    rw [Registry.addresses, List.map_append, List.map_cons, List.nodup_middle] at distinct
    intro node member same
    apply (List.nodup_cons.mp distinct).1
    rw [← List.map_append, ← same]
    exact List.mem_map_of_mem member
  rw [Keyed, sameAddresses]
  simp only [addresses, true_and]
  rw [Registry.names, List.map_append, List.map_cons, List.nodup_middle, List.nodup_cons,
    ← List.map_append] at names ⊢
  simp only [names.2, and_true]
  constructor
  · intro unused node member same
    by_cases itself : node = (id, client)
    · rw [itself]
    · have other : node ∈ before ++ after := by
        simp only [List.mem_append, List.mem_cons, itself, false_or] at member ⊢
        exact member
      exact (unused (same ▸ List.mem_map.mpr ⟨node, other, rfl⟩)).elim
  · intro fresh used
    obtain ⟨node, other, same⟩ := List.mem_map.mp used
    refine apart node other (fresh node ?_ same)
    rcases List.mem_append.mp other with ahead | behind
    · exact List.mem_append_left _ ahead
    · exact List.mem_append_right _ (List.mem_cons_of_mem _ behind)

/-- A pass of the connection manager keeps the keys. -/
theorem Keyed.pass (keyed : registry.Keyed) (currentTime : ℤ) :
    (registry.pass currentTime).Keyed := by
  unfold Registry.pass
  split
  · exact keyed
  · split
    · refine (Keyed.congr ?_ ?_).mpr keyed
      · apply map_writeNode Client.clientAddress
        intro client
        rfl
      · apply map_writeNode Client.clientName
        intro client
        rfl
    · exact keyed.remove _

end Registry

/-- A command keeps the keys exactly if it brings fresh ones. -/
theorem keyed_serve_iff {server : Server} (formed : server.clients.WellFormed) (fresh : ℕ)
    (request : Request) (now : ℤ) (keyed : server.registry.Keyed)
    (known : request.command.kind = .rename → request.fromAddr ∈ server.registry.addresses) :
    (server.registry.serve fresh request now).Keyed ↔
      FreshKeys server (.command request now) := by
  have marked : (server.registry.mark request now).Keyed :=
    (Registry.Keyed.congr (Registry.addresses_mark ..) (Registry.names_mark ..)).mpr keyed
  simp only [FreshKeys, Registry.serve, Registry.execute]
  cases kind : request.command.kind with
  | conn =>
      have same : server.registry.mark request now = server.registry := if_neg (by rw [kind]; simp)
      simpa [same] using keyed.snoc_iff fresh ⟨request.fromAddr, request.command.args 0, now, 0⟩
  | rename =>
      obtain ⟨before, id, client, after, shape, missed, found⟩ :=
        Registry.exists_split (known kind)
      have distinct := formed.nodup
      rw [show server.clients.nodes = _ from shape] at distinct
      have active : server.registry.mark request now =
          before ++ (id, client.touched now) :: after := by
        rw [Registry.mark, if_pos (by rw [kind]; decide), shape]
        exact Registry.writeAt_append_cons distinct missed found _
      have named : (server.registry.mark request now).writeAt request.fromAddr
          (fun client => { client with clientName := request.command.args 0 }) =
          before ++ (id, { client.touched now with clientName := request.command.args 0 }) ::
            after := by
        have foundThere : (client.touched now).clientAddress = request.fromAddr := found
        have distinctThere :
            ((before ++ (id, client.touched now) :: after).map Prod.fst).Nodup := by
          simpa using distinct
        rw [active]
        exact Registry.writeAt_append_cons distinctThere missed foundThere _
      rw [shape] at keyed
      simp only [reduceCtorEq, IsEmpty.forall_iff, forall_const, true_and]
      rw [named, shape, ← found]
      exact keyed.renamed_iff rfl
  | disconn =>
      refine iff_of_true ?_ ⟨nofun, nofun⟩
      simp only
      split
      · exact marked
      · exact marked.remove _
  | kick =>
      refine iff_of_true ?_ ⟨nofun, nofun⟩
      simp only
      split
      · exact marked.remove _
      · exact marked
  | _ => exact iff_of_true marked ⟨nofun, nofun⟩

/-- A handled event keeps the keys exactly if it brings fresh ones. -/
theorem keyed_step_iff {server server' : Server} (formed : server.clients.WellFormed)
    {event : ServerEvent} {sent : List Datagram}
    (handled : handle server event = .ok (server', sent)) (keyed : server.registry.Keyed) :
    server'.registry.Keyed ↔ FreshKeys server event := by
  rw [(handle_refines formed handled).2]
  cases event with
  | managerPass currentTime => exact iff_of_true (keyed.pass currentTime) trivial
  | command request now =>
      apply keyed_serve_iff formed _ request now keyed
      intro kind
      by_contra absent
      rw [handle, spawn_absent formed request now (by rw [kind]; rfl) absent] at handled
      cases handled

/-- **When addresses and names are keys.** Along a run no two clients ever share an
address or a name exactly if every event brings fresh ones. -/
theorem keyed_along_iff {trace : List (Server × ServerEvent)} {server : Server}
    (execution : serverSystem.Execution trace server) :
    ((∀ visit ∈ trace, visit.1.registry.Keyed) ∧ server.registry.Keyed) ↔
      ∀ visit ∈ trace, FreshKeys visit.1 visit.2 := by
  refine execution.along_iff (I := fun server => server.registry.Keyed) ?_ ?_
  · rintro server rfl
    exact ⟨List.nodup_nil, List.nodup_nil⟩
  · rintro before event after reachable keyed ⟨sent, handled⟩
    exact keyed_step_iff (wellFormed_of_reachable reachable) handled keyed

/-- Two clients connect, and the first is renamed. -/
theorem keyed_along_rename :
    ∃ trace server, serverSystem.Execution trace server ∧ server.registry.length = 2 ∧
      server.registry.Keyed := by
  have start : serverSystem.Execution [] Server.start := .start rfl
  have one := start.step (handled_step (.command (sampleRequest .conn 1 "A") 0) rfl)
  have two := one.step (handled_step (.command (sampleRequest .conn 2 "B") 0) rfl)
  have renamed := two.step (handled_step (.command (sampleRequest .rename 1 "C") 0) rfl)
  have fresh := (keyed_along_iff renamed).mpr (by
    simp only [List.nil_append, List.cons_append, List.mem_cons, List.not_mem_nil, or_false]
    rintro visit (rfl | rfl | rfl)
    · exact ⟨fun _ => by decide, fun other => by cases other⟩
    · exact ⟨fun _ => by decide, fun other => by cases other⟩
    · exact ⟨fun other => (by cases other), fun _ => by decide⟩)
  exact ⟨_, _, renamed, rfl, fresh.2⟩

/-- A client connects twice. -/
theorem connected_twice_unkeyed :
    ∃ server, serverSystem.Reachable server ∧ ¬ server.registry.addresses.Nodup ∧
      ¬ server.registry.names.Nodup := by
  have start : serverSystem.Reachable Server.start := .start rfl
  have one := start.step (handled_step (.command (sampleRequest .conn 1 "A") 0) rfl)
  have two := one.step (handled_step (.command (sampleRequest .conn 1 "A") 0) rfl)
  exact ⟨_, two, by decide, by decide⟩

end MultithreadedChat
