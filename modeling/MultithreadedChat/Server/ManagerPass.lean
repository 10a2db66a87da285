import MultithreadedChat.Server.Sequential

/-! # One pass of the connection manager

The scan selects a node, but the removal looks for its name from the head again. A pass
that runs alone acts on the selected node exactly if that node has no ping outstanding or
no node before it has its name (`MultithreadedChat.actsOnSelected_iff`).
-/

namespace MultithreadedChat

open CString LinkedList

/-- The client has been inactive for too long, and either no ping is outstanding or it
has waited too long since its ping. -/
def Client.Due (client : Client) (currentTime : ℤ) : Prop :=
  inactivityThreshold < currentTime - client.lastActive ∧
    (client.pingSent = 0 ∨ pingTimeout < currentTime - client.pingSent)

instance {client : Client} {currentTime : ℤ} : Decidable (client.Due currentTime) :=
  inferInstanceAs (Decidable (_ ∧ _))

theorem Client.overdue_iff {client : Client} {currentTime : ℤ} :
    client.overdue currentTime = true ↔ client.Due currentTime := by
  simp [overdue, Due]

/-- A list of nodes and the first due node in it. -/
structure Selects (registry : Registry) (currentTime : ℤ) (before : Registry) (id : ℕ)
    (client : Client) (after : Registry) : Prop where
  shape : registry = before ++ (id, client) :: after
  passed : ∀ node ∈ before, ¬ node.2.Due currentTime
  due : client.Due currentTime

namespace Selects

variable {registry before after : Registry} {currentTime : ℤ} {id : ℕ} {client : Client}

theorem find_eq (selects : Selects registry currentTime before id client after) :
    (registry.find? fun node => node.2.overdue currentTime) = some (id, client) := by
  refine List.find?_eq_some_iff_append.mpr
    ⟨Client.overdue_iff.mpr selects.due, before, after, selects.shape, ?_⟩
  intro node member
  simpa using mt Client.overdue_iff.mp (selects.passed node member)

end Selects

/-- The pass runs to its end and changes nothing but the client it selects, if any: that
client is pinged, or told to disconnect and removed. -/
def ActsOnSelected (server : Server) (currentTime : ℤ) : Prop :=
  ∃ clients sent, connectionManager server currentTime =
      .ok ({ server with clients := clients }, sent) ∧ clients.WellFormed ∧
    ((∀ node ∈ server.registry, ¬ node.2.Due currentTime) →
      sent = [] ∧ clients.nodes = server.registry) ∧
    ∀ before id client after, Selects server.registry currentTime before id client after →
      if client.pingSent = 0 then
        sent = [ping client.clientAddress] ∧
          clients.nodes = before ++ (id, { client with pingSent := currentTime }) :: after
      else sent = [disconnresponse client.clientAddress] ∧ clients.nodes = before ++ after

/-- Nobody before a selected client that has been pinged has its name. -/
def NameIdentifiesSelected (registry : Registry) (currentTime : ℤ) : Prop :=
  ∀ before id client after, Selects registry currentTime before id client after →
    client.pingSent ≠ 0 → ∀ node ∈ before, node.2.clientName ≠ client.clientName

/-- Distinct names lead to the selected client. -/
theorem nameIdentifiesSelected_of_nodup {registry : Registry} (distinct : registry.names.Nodup)
    (currentTime : ℤ) : NameIdentifiesSelected registry currentTime := by
  intro before id client after selects _ node member shared
  rw [selects.shape, Registry.names, List.map_append, List.nodup_append] at distinct
  exact distinct.2.2 _ (List.mem_map_of_mem member) client.clientName (by simp) shared

/-- A removal by the name of a node takes out that node exactly if nobody before has the
name. -/
theorem Registry.remove_eq_iff {before after : Registry} {id : ℕ} {client : Client}
    (distinct : ((before ++ (id, client) :: after).map Prod.fst).Nodup) :
    Registry.remove (before ++ (id, client) :: after) client.clientName = before ++ after ↔
      ∀ node ∈ before, node.2.clientName ≠ client.clientName := by
  refine ⟨?_, fun unshared => (named_append_cons id client after unshared).2⟩
  intro removed node member shared
  have earlier : Registry.remove (before ++ (id, client) :: after) client.clientName =
      before.eraseP (fun node => node.2.clientName == client.clientName) ++ (id, client) :: after :=
    List.eraseP_append_left (by simpa using shared) _ member
  have still : id ∈ (before ++ after).map Prod.fst := by
    rw [← removed, earlier]
    simp
  rw [List.map_append, List.map_cons, List.nodup_middle] at distinct
  exact (List.nodup_cons.mp distinct).1 (by rwa [← List.map_append])

section Pass

variable {server : Server} (formed : server.clients.WellFormed) {currentTime : ℤ}
include formed

theorem distinct_of_selects {before after : Registry} {id : ℕ} {client : Client}
    (selects : Selects server.registry currentTime before id client after) :
    ((before ++ (id, client) :: after).map Prod.fst).Nodup := by
  rw [← selects.shape]
  exact formed.nodup

/-- A removal of the selected client shows that nobody before it has its name. -/
theorem ActsOnSelected.unshared (acts : ActsOnSelected server currentTime) :
    NameIdentifiesSelected server.registry currentTime := by
  intro before id client after selects pinged
  obtain ⟨clients, sent, done, -, -, acted⟩ := acts
  obtain ⟨-, left⟩ := (if_neg pinged).mp (acted before id client after selects)
  obtain ⟨removed, done', -, nodes⟩ := connectionManager_remove formed selects.find_eq pinged
  obtain rfl : removed = clients := by
    have same := Except.ok.inj (done'.symm.trans done)
    exact congrArg (fun result => result.1.clients) same
  rw [selects.shape, left] at nodes
  exact (Registry.remove_eq_iff (distinct_of_selects formed selects)).mp nodes.symm

theorem actsOnSelected_of_unshared
    (unshared : NameIdentifiesSelected server.registry currentTime) :
    ActsOnSelected server currentTime := by
  cases found : server.registry.find? fun node => node.2.overdue currentTime with
  | none =>
      refine ⟨server.clients, [], connectionManager_idle formed found, formed,
        fun _ => ⟨rfl, rfl⟩, ?_⟩
      intro before id client after selects
      rw [selects.find_eq] at found
      cases found
  | some node =>
      obtain ⟨id, client⟩ := node
      have matched := List.find?_some found
      have due : client.Due currentTime := Client.overdue_iff.mp matched
      have member := List.mem_of_find?_eq_some found
      have selected : ∀ {before after : Registry} {id' : ℕ} {client' : Client},
          Selects server.registry currentTime before id' client' after →
            id = id' ∧ client = client' := by
        intro before after id' client' selects
        exact Prod.mk.inj (Option.some.inj (found.symm.trans selects.find_eq))
      by_cases unpinged : client.pingSent = 0
      · obtain ⟨clients, done, formed', nodes⟩ := connectionManager_ping formed found unpinged
        refine ⟨clients, _, done, formed', fun nobody => (nobody _ member due).elim, ?_⟩
        intro before id' client' after selects
        obtain ⟨rfl, rfl⟩ := selected selects
        rw [if_pos unpinged, nodes, selects.shape]
        exact ⟨rfl, writeNode_append_cons (distinct_of_selects formed selects)⟩
      · obtain ⟨clients, done, formed', nodes⟩ := connectionManager_remove formed found unpinged
        refine ⟨clients, _, done, formed', fun nobody => (nobody _ member due).elim, ?_⟩
        intro before id' client' after selects
        obtain ⟨rfl, rfl⟩ := selected selects
        rw [if_neg unpinged, nodes, selects.shape]
        exact ⟨rfl, (Registry.remove_eq_iff (distinct_of_selects formed selects)).mpr
          (unshared before id client after selects unpinged)⟩

/-- **When a pass acts on the client it selected.** On every list and at every time,
exactly if the selected client has no ping outstanding or nobody before it has its name. -/
theorem actsOnSelected_iff :
    ActsOnSelected server currentTime ↔ NameIdentifiesSelected server.registry currentTime :=
  ⟨ActsOnSelected.unshared formed, actsOnSelected_of_unshared formed⟩

end Pass

/-- Two clients connect; both are pinged after a while, but only the first answers. -/
private def silentSecond (first second : String) : List ServerEvent :=
  [.command (sampleRequest .conn 1 first) 0, .command (sampleRequest .conn 2 second) 0,
    .managerPass 200, .command (sampleRequest .retping 1 "") 201, .managerPass 202]

/-- The server after some events, if none of them faults. -/
private def serverAfter : Server → List ServerEvent → Option Server
  | server, [] => some server
  | server, event :: rest =>
    match handle server event with
    | .error _ => none
    | .ok (server, _) => serverAfter server rest

private theorem reachable_serverAfter {server server' : Server} {events : List ServerEvent}
    (reachable : serverSystem.Reachable server)
    (after : serverAfter server events = some server') : serverSystem.Reachable server' := by
  induction events generalizing server with
  | nil => exact Option.some.inj after ▸ reachable
  | cons event rest ih =>
      rw [serverAfter] at after
      split at after
      · cases after
      · rename_i handled
        exact ih (reachable.step ⟨_, handled⟩) after

/-- The second of two clients of different names has not answered, and is removed. -/
theorem actsOnSelected_two :
    ∃ server, serverSystem.Reachable server ∧ server.registry.length = 2 ∧
      ActsOnSelected server 213 := by
  obtain ⟨server, run⟩ : ∃ server, serverAfter Server.start (silentSecond "A" "B") = some server :=
    ⟨_, rfl⟩
  have reachable := reachable_serverAfter (.start rfl) run
  have names : server.registry.names.Nodup ∧ server.registry.length = 2 := by
    cases run
    decide
  exact ⟨server, reachable, names.2, (actsOnSelected_iff (wellFormed_of_reachable reachable)).mpr
    (nameIdentifiesSelected_of_nodup names.1 213)⟩

/-- The second of two clients of one name has not answered, and is told so; the first is
removed. -/
theorem active_namesake_removed :
    ∃ server, serverSystem.Reachable server ∧ ¬ ActsOnSelected server 213 ∧
      (connectionManager server 213).toOption.map (fun (after, sent) =>
          (sent, after.registry.addresses)) =
        some ([disconnresponse (sampleRequest .conn 2 "").fromAddr],
          [(sampleRequest .conn 2 "").fromAddr]) := by
  obtain ⟨server, run⟩ : ∃ server, serverAfter Server.start (silentSecond "A" "A") = some server :=
    ⟨_, rfl⟩
  have reachable := reachable_serverAfter (.start rfl) run
  let name : Name := ofBytes nameSize (ascii "A")
  have shape : server.registry =
      [(0, ⟨⟨2, 1, 16777343, 0⟩, name, 201, 0⟩)] ++
        (1, ⟨⟨2, 2, 16777343, 0⟩, name, 0, 202⟩) :: [] := by
    cases run
    decide
  refine ⟨server, reachable, fun acts => ?_, ?_⟩
  · have selects := (⟨shape, by decide, by decide⟩ : Selects server.registry 213 _ _ _ _)
    exact acts.unshared (wellFormed_of_reachable reachable) _ _ _ _ selects (by decide) _
      List.mem_cons_self rfl
  · cases run
    decide

end MultithreadedChat
