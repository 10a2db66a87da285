import MultithreadedChat.Server.Concurrent
import MultithreadedChat.Server.Sequential

/-! # The client list and the order of connections

A run of whole commands and passes of the connection manager, seen as a sequence of
connections, each under the identity its node gets. The list of a server is at any time
a part of the connections made so far, in their order, so its head, the administrator,
has been connected longest (`MultithreadedChat.client_list_in_order`).
-/

namespace MultithreadedChat

open CString LinkedList

/-! ## Arrivals -/

/-- Arrivals numbered in their order, all below the next number, and those of them that
have not left. -/
structure Seniority {α : Type*} (fresh : ℕ) (arrived present : List (ℕ × α)) : Prop where
  numbered : (arrived.map Prod.fst).Pairwise (· < ·)
  below : ∀ id ∈ arrived.map Prod.fst, id < fresh
  kept : present.Sublist arrived

namespace Seniority

variable {α : Type*} {fresh : ℕ} {arrived present left : List (ℕ × α)}
  (seniority : Seniority fresh arrived present)
include seniority

/-- Somebody arrives. -/
theorem arrive (value : α) :
    Seniority (fresh + 1) (arrived ++ [(fresh, value)]) (present ++ [(fresh, value)]) where
  numbered := by
    rw [List.map_append, List.pairwise_append]
    refine ⟨seniority.numbered, List.pairwise_singleton .., ?_⟩
    intro id member last new
    obtain rfl := List.mem_singleton.mp new
    exact seniority.below id member
  below := by
    intro id member
    rw [List.map_append, List.mem_append] at member
    rcases member with old | new
    · exact Nat.lt_succ_of_lt (seniority.below id old)
    · obtain rfl := List.mem_singleton.mp new
      exact Nat.lt_succ_self _
  kept := seniority.kept.append (List.Sublist.refl _)

/-- Some leave. -/
theorem leave (fewer : left.Sublist present) : Seniority fresh arrived left :=
  ⟨seniority.numbered, seniority.below, fewer.trans seniority.kept⟩

/-- The first of those present arrived before all others. -/
theorem first_before {first other : ℕ × α} {rest : List (ℕ × α)} (shape : present = first :: rest)
    (member : other ∈ rest) : [first, other].Sublist arrived := by
  have pair : [first, other].Sublist (first :: rest) :=
    (List.singleton_sublist.mpr member).cons_cons first
  exact pair.trans (shape ▸ seniority.kept)

end Seniority

/-! ## Connections -/

/-- The connection an event brings, under the number of the next node. -/
def joins (fresh : ℕ) : ServerEvent → List (ℕ × SockAddrIn)
  | .command request _ =>
    if request.command.kind = .conn then [(fresh, request.fromAddr)] else []
  | .managerPass _ => []

/-- The connections of a run, in their order. -/
def connections (trace : List (Server × ServerEvent)) : List (ℕ × SockAddrIn) :=
  trace.flatMap fun visit => joins visit.1.clients.heap.fresh visit.2

namespace Registry

variable (registry : Registry)

theorem places_remove (name : Name) : (registry.remove name).places.Sublist registry.places :=
  List.eraseP_sublist.map _

/-- Without a connection, nodes may leave and nothing else changes. -/
theorem places_execute {request : Request} (other : request.command.kind ≠ .conn) (fresh : ℕ)
    (now : ℤ) : (registry.execute fresh request now).places.Sublist registry.places := by
  unfold execute
  cases kind : request.command.kind with
  | conn => exact (other kind).elim
  | rename =>
      dsimp only
      rw [places_writeAt]
      intro client
      rfl
  | disconn =>
      dsimp only
      split
      · exact List.Sublist.refl _
      · exact registry.places_remove _
  | kick =>
      dsimp only
      split
      · exact registry.places_remove _
      · exact List.Sublist.refl _
  | _ => exact List.Sublist.refl _

theorem places_pass (currentTime : ℤ) :
    (registry.pass currentTime).places.Sublist registry.places := by
  unfold pass
  split
  · exact List.Sublist.refl _
  · split
    · rw [places_writeNode]
      intro client
      rfl
    · exact registry.places_remove _

end Registry

section Fresh

variable {server server' : Server} (formed : server.clients.WellFormed) {request : Request}
  {now : ℤ} {sent : List Datagram}
include formed

/-- Only a connection allocates a node. -/
theorem executeCommand_fresh (other : request.command.kind ≠ .conn)
    (done : executeCommand server request now = .ok (server', sent)) :
    server'.clients.heap.fresh = server.clients.heap.fresh := by
  obtain same | written | ⟨name, address, taken⟩ := executeCommand_clients other done
  · rw [same]
  · exact (renameWrite_spec formed written).2.1
  · exact (remove_spec formed taken).2.1

/-- A connection allocates one. -/
theorem connectToServer_fresh
    (done : connectToServer server request now = .ok (server', sent)) :
    server'.clients.heap.fresh = server.clients.heap.fresh + 1 := by
  obtain ⟨clients, added, -, -, fresh⟩ :=
    formed.addClientToList_spec request.fromAddr (request.command.args 0) now
  simp only [connectToServer, added, ok_bind, pure_eq_ok] at done
  cases done
  exact fresh

theorem connectionManager_fresh
    (done : connectionManager server now = .ok (server', sent)) :
    server'.clients.heap.fresh = server.clients.heap.fresh := by
  obtain ⟨selected, -, done⟩ := exists_of_bind_eq_ok done
  cases selected with
  | none =>
      cases done
      rfl
  | some node =>
      obtain ⟨chosen, -, done⟩ := exists_of_bind_eq_ok done
      split at done
      · obtain ⟨clients, written, done⟩ := exists_of_bind_eq_ok done
        cases done
        exact (formed.write_spec_of_ok written).2.2
      · obtain ⟨⟨clients, addr⟩, taken, done⟩ := exists_of_bind_eq_ok done
        cases done
        exact (remove_spec formed taken).2.1

end Fresh

/-- A step of the server is an arrival, or some clients leave and the others stay. -/
theorem Seniority.handle {server server' : Server} {arrived : List (ℕ × SockAddrIn)}
    (formed : server.clients.WellFormed)
    (seniority : Seniority server.clients.heap.fresh arrived server.registry.places)
    {event : ServerEvent} {sent : List Datagram}
    (handled : handle server event = .ok (server', sent)) :
    Seniority server'.clients.heap.fresh (arrived ++ joins server.clients.heap.fresh event)
      server'.registry.places := by
  have effect := (handle_refines formed handled).2
  cases event with
  | managerPass currentTime =>
      rw [connectionManager_fresh formed handled, joins, List.append_nil, effect]
      exact seniority.leave (server.registry.places_pass currentTime)
  | command request now =>
      obtain ⟨clients, same, formed', fresh, -⟩ := spawn_eq_execute formed request now
      have done := same.symm.trans handled
      have formedThere : ({ server with clients := clients } : Server).clients.WellFormed := formed'
      have marked := @Registry.places_mark server.registry request now
      rw [effect, Registry.apply, Registry.serve]
      by_cases connects : request.command.kind = .conn
      · rw [executeCommand, connects] at done
        have grown := connectToServer_fresh formedThere done
        rw [grown, joins, if_pos connects, Registry.execute, connects]
        simp only [fresh]
        rw [Registry.places, List.map_append, ← Registry.places, marked]
        exact seniority.arrive request.fromAddr
      · have grown := executeCommand_fresh formedThere connects done
        rw [grown, joins, if_neg connects, List.append_nil]
        simp only [fresh]
        apply seniority.leave
        rw [← marked]
        exact Registry.places_execute _ connects _ now

/-- At any time the clients are what is left of the connections made so far. -/
theorem seniority_of_execution {trace : List (Server × ServerEvent)} {server : Server}
    (execution : serverSystem.Execution trace server) :
    Seniority server.clients.heap.fresh (connections trace) server.registry.places := by
  induction execution with
  | start initial =>
      obtain rfl := initial
      exact ⟨.nil, by simp [connections], List.Sublist.refl _⟩
  | step earlier moved ih =>
      obtain ⟨sent, handled⟩ := moved
      rw [connections, List.flatMap_append, ← connections, List.flatMap_singleton]
      exact ih.handle (wellFormed_of_reachable ⟨_, earlier⟩) handled

/-! ## The list of a server -/

namespace ClientList

/-- The cells met from the head, in order, up to `NULL`, each once, the last of them under
the tail. -/
structure Represents (list : ClientList) (nodes : List (ℕ × Client)) : Prop where
  chain : Segment list.heap list.head nodes none
  distinct : (nodes.map Prod.fst).Nodup
  last : list.tail = nodes.getLast?.map Prod.fst
  headNull : list.head = none ↔ nodes = []
  tailNull : list.tail = none ↔ nodes = []

theorem WellFormed.represents {list : ClientList} (formed : list.WellFormed) :
    list.Represents list.nodes where
  chain := formed.chain
  distinct := formed.nodup
  last := formed.last
  headNull := by rw [formed.head_eq, Option.map_eq_none_iff, List.head?_eq_none_iff]
  tailNull := by rw [formed.last, Option.map_eq_none_iff, List.getLast?_eq_none_iff]

end ClientList

/-- A kick of another than the administrator leaves the nodes, their order, names and
addresses, and answers the requester alone. -/
theorem spawn_kick_denied {server : Server} (formed : server.clients.WellFormed)
    {request : Request} (kind : request.command.kind = .kick) (now : ℤ)
    (other : server.registry.places.head?.map Prod.snd ≠ some request.fromAddr) :
    ∃ server', spawnExecuteCommandThreads server request now =
        .ok (server', [permissionDenied request.fromAddr]) ∧
      server'.registry.places = server.registry.places ∧
      server'.registry.names = server.registry.names := by
  obtain ⟨clients, same, formed', -, nodes⟩ := spawn_eq_execute formed request now
  have registry : ({ server with clients := clients } : Server).registry =
      server.registry.mark request now := nodes
  refine ⟨{ server with clients := clients }, ?_, ?_, ?_⟩
  · rw [same, executeCommand, kind]
    apply kick_denied formed'
    rw [registry, ← Bool.not_eq_true, Registry.administers_iff, Registry.places_mark]
    exact other
  · rw [registry, Registry.places_mark]
  · rw [registry, Registry.names_mark]

/-- **The client list and its order.** In every run the cells from the head are finitely
many and distinct, and the tail is the last of them; the clients are those connections
that are left, in the order in which they were made, so that the administrator connected
before all others; and a kick of anybody else is refused, to the requester alone. -/
theorem client_list_in_order {trace : List (Server × ServerEvent)} {server : Server}
    (execution : serverSystem.Execution trace server) :
    server.clients.Represents server.registry ∧
      ((connections trace).map Prod.fst).Pairwise (· < ·) ∧
      server.registry.places.Sublist (connections trace) ∧
      (∀ head rest, server.registry.places = head :: rest →
        (∀ address, isAdmin server.clients address = .ok (head.2 == address)) ∧
        ∀ other ∈ rest, [head, other].Sublist (connections trace)) ∧
      ∀ request now, request.command.kind = .kick →
        server.registry.places.head?.map Prod.snd ≠ some request.fromAddr →
        ∃ server', spawnExecuteCommandThreads server request now =
            .ok (server', [permissionDenied request.fromAddr]) ∧
          server'.registry.places = server.registry.places ∧
          server'.registry.names = server.registry.names := by
  have formed := wellFormed_of_reachable ⟨_, execution⟩
  have seniority := seniority_of_execution execution
  refine ⟨formed.represents, seniority.numbered, seniority.kept, ?_, ?_⟩
  · intro head rest shape
    refine ⟨?_, fun other member => seniority.first_before shape member⟩
    intro address
    rw [formed.isAdmin_eq, Except.ok.injEq, Bool.eq_iff_iff, Registry.administers_iff, shape]
    simp
  · intro request now kind other
    exact spawn_kick_denied formed kind now other

/-- Of two clients the first to connect is the administrator, and the other may not kick. -/
theorem client_list_in_order_two :
    ∃ trace server, serverSystem.Execution trace server ∧
      server.registry.places.length = 2 ∧
      server.registry.places.Sublist (connections trace) ∧
      (spawnExecuteCommandThreads server (sampleRequest .kick 2 "A") 0).toOption.map Prod.snd =
        some [permissionDenied (sampleRequest .kick 2 "A").fromAddr] := by
  have start : serverSystem.Execution [] Server.start := .start rfl
  have one := start.step (handled_step (.command (sampleRequest .conn 1 "A") 0) rfl)
  have two := one.step (handled_step (.command (sampleRequest .conn 2 "B") 0) rfl)
  obtain ⟨-, -, kept, -, refused⟩ := client_list_in_order two
  obtain ⟨server', done, -, -⟩ := refused (sampleRequest .kick 2 "A") 0 rfl (by decide)
  exact ⟨_, _, two, rfl, kept, by rw [done]; rfl⟩

end MultithreadedChat
