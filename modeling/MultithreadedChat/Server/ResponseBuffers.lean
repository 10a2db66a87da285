import MultithreadedChat.Foundation.StackMemory
import MultithreadedChat.Server.Sequential

/-! # The buffers the responses are sent from

Every handler formats its texts into buffers on the stack of its thread, and sends a
fixed number of bytes from the start of such a buffer. A handler's operations on the
memory are those of the datagrams it sends, with the buffers they are formatted in.

A packet carries the response and its terminator, and behind them whatever the memory
held (`MultithreadedChat.handle_carried`).
-/

namespace MultithreadedChat

open CString LinkedList StackMemory

/-- The buffers of the handlers, by their role: the joined arguments, the line for the
history, and the responses in the order in which they are sent. -/
inductive StackBuffer
  | message | fullMessage | response | secondResponse
  deriving DecidableEq

/-- Where the buffers of a running handler lie. -/
abbrev StackFrame := StackBuffer → ℕ

namespace StackFrame

variable (frame : StackFrame)

/-- Formatting a string into a buffer. -/
def fill (buffer : StackBuffer) (text : List UInt8) : Op SockAddrIn :=
  .write (frame buffer) (text ++ [0])

/-- `udp_socket_write` of a buffer. -/
def socketWrite (buffer : StackBuffer) (datagram : Datagram) : Op SockAddrIn :=
  .send datagram.addr (frame buffer) datagram.size

/-- Formatting a response and sending it. -/
def respond (buffer : StackBuffer) (datagram : Datagram) : List (Op SockAddrIn) :=
  [frame.fill buffer datagram.response, frame.socketWrite buffer datagram]

/-- Formatting a response once, and sending it again and again. -/
def respondAll (buffer : StackBuffer) (response : List UInt8) (sent : List Datagram) :
    List (Op SockAddrIn) :=
  frame.fill buffer response :: sent.map (frame.socketWrite buffer)

/-- `connect_to_server`. -/
def connectOps : List Datagram → List (Op SockAddrIn)
  | [] => []
  | confirmation :: replayed =>
    frame.respond .response confirmation ++ replayed.flatMap (frame.respond .secondResponse)

/-- `say`. -/
def sayOps (clients : ClientList) (request : Request) (sent : List Datagram) :
    Except Fault (List (Op SockAddrIn)) := do
  let fromWho ← findClientByAddress clients request.fromAddr
  let sender ← clients.heap.load fromWho
  let message := MultithreadedChat.fullMessage sender.value.clientName request.command
  return frame.fill .message (joinArgs request.command.args 0 maxMessage) ::
    frame.fill .fullMessage message :: frame.respondAll .response (sayResponse message) sent

/-- `sayto`: without a recipient, only the second response is formatted. -/
def saytoOps (request : Request) (sent : List Datagram) : List (Op SockAddrIn) :=
  frame.fill .message (joinArgs request.command.args 1 maxMessage) ::
    match sent with
    | [received, confirmed] =>
      frame.respond .response received ++ frame.respond .secondResponse confirmed
    | others => others.flatMap (frame.respond .secondResponse)

/-- `kick`. -/
def kickOps (clients : ClientList) (request : Request) (sent : List Datagram) :
    Except Fault (List (Op SockAddrIn)) := do
  if ← isAdmin clients request.fromAddr then
    match sent with
    | [] => return []
    | removal :: announced =>
      return frame.respond .response removal ++
        frame.respondAll .secondResponse (kickedResponse (request.command.args 0)) announced
  else return sent.flatMap (frame.respond .response)

/-- What the worker of a command does with the memory, when it sends these datagrams. -/
def workerOps (clients : ClientList) (request : Request) (sent : List Datagram) :
    Except Fault (List (Op SockAddrIn)) :=
  match request.command.kind with
  | .conn => .ok (frame.connectOps sent)
  | .say => frame.sayOps clients request sent
  | .sayto => .ok (frame.saytoOps request sent)
  | .kick => frame.kickOps clients request sent
  | _ => .ok (sent.flatMap (frame.respond .response))

/-- Handling an event, with what its handler does with the memory. -/
def handle (server : Server) : ServerEvent → Except Fault (Server × List (Op SockAddrIn))
  | .command request now => do
    let server ← markActivity server request now
    let (server', sent) ← executeCommand server request now
    let ops ← frame.workerOps server.clients request sent
    return (server', ops)
  | .managerPass currentTime => do
    let (server', sent) ← connectionManager server currentTime
    return (server', sent.flatMap (frame.respond .response))

end StackFrame

/-- A packet with a response, its terminator, and what is behind them. -/
structure Carries (datagram : Datagram) (packet : SockAddrIn × List UInt8) : Prop where
  addr : packet.1 = datagram.addr
  size : packet.2.length = datagram.size
  response : datagram.response ++ [0] <+: packet.2

/-- Whatever the memory, the packets carry the datagrams. -/
def CarriedBy (sent : List Datagram) (ops : List (Op SockAddrIn)) : Prop :=
  ∀ memory : StackMemory, List.Forall₂ Carries sent (memory.packets ops)

/-- There is room for the response and its terminator. -/
def Datagram.Fits (datagram : Datagram) : Prop := datagram.response.length < datagram.size

section Carried

variable {frame : StackFrame} {sent others : List Datagram} {ops later : List (Op SockAddrIn)}

theorem carries_read {datagram : Datagram} (fits : datagram.Fits) (memory : StackMemory)
    (base : ℕ) :
    Carries datagram (datagram.addr,
      (memory.write base (datagram.response ++ [0])).read base datagram.size) := by
  have long : (datagram.response ++ [0]).length ≤ datagram.size := by
    rw [List.length_append]
    exact fits
  refine ⟨rfl, by simp [StackMemory.read], ?_⟩
  rw [read_write memory long]
  exact List.prefix_append ..

namespace CarriedBy

theorem append (carried : CarriedBy sent ops) (behind : CarriedBy others later) :
    CarriedBy (sent ++ others) (ops ++ later) := by
  intro memory
  rw [packets_append]
  exact List.rel_append (carried memory) (behind _)

/-- Every packet carries a datagram. -/
theorem exists_carries (carried : CarriedBy sent ops) (memory : StackMemory)
    {packet : SockAddrIn × List UInt8} (member : packet ∈ memory.packets ops) :
    ∃ datagram ∈ sent, Carries datagram packet := by
  obtain ⟨same, each⟩ := List.forall₂_iff_get.mp (carried memory)
  obtain ⟨position, below, rfl⟩ := List.getElem_of_mem member
  exact ⟨_, List.get_mem .., each position (same.symm ▸ below) below⟩

/-- Formatting alone sends nothing. -/
theorem fill (carried : CarriedBy sent ops) (buffer : StackBuffer) (text : List UInt8) :
    CarriedBy sent (frame.fill buffer text :: ops) :=
  fun _ => carried _

theorem respond (buffer : StackBuffer) {datagram : Datagram} (fits : datagram.Fits) :
    CarriedBy [datagram] (frame.respond buffer datagram) := by
  intro memory
  exact .cons (carries_read fits memory _) .nil

theorem flatMap_respond (buffer : StackBuffer) (fits : ∀ datagram ∈ sent, datagram.Fits) :
    CarriedBy sent (sent.flatMap (frame.respond buffer)) := by
  induction sent with
  | nil => exact fun _ => .nil
  | cons datagram sent ih =>
      obtain ⟨room, rest⟩ := List.forall_mem_cons.mp fits
      exact (respond buffer room).append (ih rest)

theorem respondAll (buffer : StackBuffer) {response : List UInt8}
    (fits : ∀ datagram ∈ sent, datagram.Fits)
    (same : ∀ datagram ∈ sent, datagram.response = response) :
    CarriedBy sent (frame.respondAll buffer response sent) := by
  intro memory
  change List.Forall₂ Carries sent ((memory.write (frame buffer) (response ++ [0])).packets
    (sent.map (frame.socketWrite buffer)))
  induction sent with
  | nil => exact .nil
  | cons datagram sent ih =>
      obtain ⟨room, rest⟩ := List.forall_mem_cons.mp fits
      obtain ⟨rfl, alike⟩ := List.forall_mem_cons.mp same
      exact .cons (carries_read room memory _) (ih rest alike)

end CarriedBy

end Carried

/-! ## Every response fits -/

/-- Whatever a handler sends fits. -/
def Fitting {α : Type} (handled : Except Fault (α × List Datagram)) : Prop :=
  ∀ result, handled = .ok result → ∀ datagram ∈ result.2, datagram.Fits

namespace Fitting

variable {α β : Type}

theorem ok {value : α} {sent : List Datagram} (fits : ∀ datagram ∈ sent, datagram.Fits) :
    Fitting (.ok (value, sent)) := by
  rintro result handled
  cases handled
  exact fits

theorem bind {read : Except Fault β} {rest : β → Except Fault (α × List Datagram)}
    (fitting : ∀ value, Fitting (rest value)) : Fitting (read >>= rest) := by
  intro result handled
  obtain ⟨value, -, handled⟩ := exists_of_bind_eq_ok handled
  exact fitting value result handled

theorem one {value : α} {datagram : Datagram} (fits : datagram.Fits) :
    Fitting (.ok (value, [datagram])) :=
  ok (by simpa using fits)

theorem none {value : α} : Fitting (.ok (value, [])) :=
  ok fun _ member => absurd member List.not_mem_nil

end Fitting

theorem fits_snprintf (addr : SockAddrIn) {size : ℕ} (positive : 0 < size)
    (text : List UInt8) : Datagram.Fits ⟨addr, snprintf size text, size⟩ := by
  have shorter := List.length_take_le (size - 1) text
  unfold Datagram.Fits snprintf
  simp only
  omega

/-- The same response to every client fits if it is formatted. -/
theorem fits_broadcast {clients : ClientList} {node : Ptr} {text : List UInt8}
    {sent : List Datagram}
    (reached : broadcast clients node (snprintf responseBufferSize text) = .ok sent) :
    ∀ datagram ∈ sent, datagram.Fits := by
  obtain ⟨nodes, -, done⟩ := exists_of_bind_eq_ok reached
  cases done
  intro datagram member
  obtain ⟨node, -, rfl⟩ := List.mem_map.mp member
  exact fits_snprintf _ (by decide) _

theorem fits_answer (request : Request) (keyword : List UInt8) : (answer request keyword).Fits :=
  fits_snprintf _ (by decide) _

theorem fits_connsuccess (request : Request) : (connsuccess request).Fits := by
  have short := (request.command.args 0).fits
  have keyword : (ascii "connsuccess$ ").length = 13 := by decide
  unfold Datagram.Fits connsuccess
  simp only [List.length_append, keyword, maxMessage]
  unfold nameSize at short
  omega

theorem fits_replay (server : Server) (addr : SockAddrIn) :
    ∀ datagram ∈ server.replay addr, datagram.Fits := by
  intro datagram member
  obtain ⟨slot, -, line⟩ := List.mem_filterMap.mp member
  obtain ⟨text, -, rfl⟩ := Option.map_eq_some_iff.mp line
  exact fits_snprintf _ (by decide) _

theorem fits_disconnresponse (addr : SockAddrIn) : (disconnresponse addr).Fits := by
  have short : (ascii "disconnresponse$").length < maxMessage := by decide
  exact short

theorem fits_permissionDenied (addr : SockAddrIn) : (permissionDenied addr).Fits := by
  have short : (ascii "error$ Permission denied. Only admin can kick users.").length <
      maxMessage := by decide
  exact short

theorem fits_unknownCommand (addr : SockAddrIn) : (unknownCommand addr).Fits := by
  have short : (ascii "error$ Unknown command").length < maxMessage := by decide
  exact short

theorem fits_ping (addr : SockAddrIn) : (ping addr).Fits := by
  have short : (ascii "ping$").length < maxMessage := by decide
  exact short

theorem fitting_sayto (server : Server) (request : Request) : Fitting (sayto server request) := by
  refine .bind fun client => .bind fun fromWho => ?_
  cases client with
  | none => exact .bind fun sender => .one (fits_snprintf _ (by decide) _)
  | some client =>
      refine .bind fun sender => .bind fun recipient => .ok ?_
      intro datagram member
      rcases List.mem_pair.mp member with rfl | rfl
      · exact fits_snprintf _ (by decide) _
      · exact fits_snprintf _ (by decide) _

theorem fitting_disconnect (server : Server) (request : Request) :
    Fitting (disconnect server request) := by
  refine .bind fun node => ?_
  cases node with
  | none => exact .none
  | some node =>
      refine .bind fun requester => .bind fun removed => ?_
      obtain ⟨clients, clientAddress⟩ := removed
      cases clientAddress with
      | none => exact .none
      | some address => exact .one (fits_disconnresponse address)

theorem fitting_kick (server : Server) (request : Request) : Fitting (kick server request) := by
  refine .bind fun admin => ?_
  cases admin with
  | false => exact .one (fits_permissionDenied _)
  | true =>
      refine .bind fun removed => ?_
      obtain ⟨clients, clientAddress⟩ := removed
      cases clientAddress with
      | none => exact .none
      | some address =>
          intro result handled
          obtain ⟨sent, reached, done⟩ := exists_of_bind_eq_ok handled
          cases done
          exact List.forall_mem_cons.mpr ⟨fits_disconnresponse address, fits_broadcast reached⟩

theorem fitting_say (server : Server) (request : Request) : Fitting (say server request) := by
  refine .bind fun fromWho => .bind fun sender => ?_
  intro result handled
  obtain ⟨sent, reached, done⟩ := exists_of_bind_eq_ok handled
  cases done
  exact fits_broadcast reached

theorem fitting_executeCommand (server : Server) (request : Request) (now : ℤ) :
    Fitting (executeCommand server request now) := by
  unfold executeCommand
  cases request.command.kind with
  | conn =>
      refine .bind fun clients => .ok ?_
      exact List.forall_mem_cons.mpr ⟨fits_connsuccess request, fits_replay server _⟩
  | say => exact fitting_say server request
  | sayto => exact fitting_sayto server request
  | disconn => exact fitting_disconnect server request
  | mute | unmute => exact .one (fits_answer request _)
  | rename => exact .bind fun clients => .one (fits_answer request _)
  | kick => exact fitting_kick server request
  | unknown => exact .one (fits_unknownCommand _)
  | _ => exact .none

theorem fitting_connectionManager (server : Server) (currentTime : ℤ) :
    Fitting (connectionManager server currentTime) := by
  refine .bind fun selected => ?_
  cases selected with
  | none => exact .none
  | some selected =>
      refine .bind fun node => ?_
      by_cases unpinged : node.value.pingSent = 0
      · rw [if_pos unpinged]
        exact .bind fun clients => .one (fits_ping _)
      · rw [if_neg unpinged]
        exact .bind fun removed => .one (fits_disconnresponse _)

/-! ## Packets carry the responses -/

section Handled

variable (frame : StackFrame) {server server' : Server} {request : Request} {sent : List Datagram}

theorem sayto_carried (fits : ∀ datagram ∈ sent, datagram.Fits) :
    CarriedBy sent (frame.saytoOps request sent) := by
  apply CarriedBy.fill
  split
  · next received confirmed =>
    obtain ⟨receivedFits, confirmedFits⟩ := List.forall_mem_cons.mp fits
    refine (CarriedBy.respond _ receivedFits).append (CarriedBy.respond _ ?_)
    exact confirmedFits confirmed (List.mem_singleton_self _)
  · exact CarriedBy.flatMap_respond _ fits

variable (formed : server.clients.WellFormed)
include formed

theorem say_carried (done : say server request = .ok (server', sent)) :
    ∃ ops, frame.sayOps server.clients request sent = .ok ops ∧ CarriedBy sent ops := by
  have fits := fitting_say server request _ done
  cases stored : server.registry.atAddress request.fromAddr with
  | none =>
      rw [say_absent formed stored] at done
      cases done
  | some node =>
      obtain ⟨id, client⟩ := node
      obtain ⟨found, next, loaded⟩ := findSender_present formed stored
      have named : server.registry.nameAt request.fromAddr = some client.clientName := by
        rw [Registry.nameAt, stored, Option.map_some]
      rw [say_present formed named] at done
      cases done
      simp only [StackFrame.sayOps, found, loaded, ok_bind, pure_eq_ok]
      refine ⟨_, rfl, .fill (.fill (.respondAll .response fits ?_) .fullMessage _) .message _⟩
      intro datagram member
      obtain ⟨node, -, rfl⟩ := List.mem_map.mp member
      rfl

theorem kick_carried (done : kick server request = .ok (server', sent)) :
    ∃ ops, frame.kickOps server.clients request sent = .ok ops ∧ CarriedBy sent ops := by
  have fits := fitting_kick server request _ done
  cases admin : server.registry.administers request.fromAddr with
  | false =>
      refine ⟨sent.flatMap (frame.respond .response), ?_, .flatMap_respond .response fits⟩
      simp [StackFrame.kickOps, formed.isAdmin_eq, admin]
  | true =>
      obtain ⟨clients, granted, -, -⟩ := kick_granted formed admin
      rw [granted] at done
      simp only [StackFrame.kickOps, formed.isAdmin_eq, admin, ok_bind, ↓reduceIte]
      cases found : server.registry.named (request.command.args 0) with
      | none =>
          rw [found] at done
          cases done
          exact ⟨_, rfl, fun _ => .nil⟩
      | some removed =>
          rw [found] at done
          cases done
          obtain ⟨removalFits, announcedFit⟩ := List.forall_mem_cons.mp fits
          refine ⟨_, rfl, (CarriedBy.respond .response removalFits).append
            (.respondAll .secondResponse announcedFit ?_)⟩
          intro datagram member
          obtain ⟨node, -, rfl⟩ := List.mem_map.mp member
          rfl

theorem connect_carried {now : ℤ}
    (done : connectToServer server request now = .ok (server', sent)) :
    CarriedBy sent (frame.connectOps sent) := by
  obtain ⟨clients, connected, -, -⟩ := connectToServer_spec formed request now
  rw [connected] at done
  cases done
  exact (CarriedBy.respond .response (fits_connsuccess request)).append
    (.flatMap_respond .secondResponse (fits_replay server _))

theorem worker_carried {now : ℤ} (done : executeCommand server request now = .ok (server', sent)) :
    ∃ ops, frame.workerOps server.clients request sent = .ok ops ∧ CarriedBy sent ops := by
  have fits := fitting_executeCommand server request now _ done
  unfold executeCommand at done
  unfold StackFrame.workerOps
  cases kind : request.command.kind with
  | conn =>
      rw [kind] at done
      exact ⟨_, rfl, connect_carried frame formed done⟩
  | say =>
      rw [kind] at done
      exact say_carried frame formed done
  | sayto => exact ⟨_, rfl, sayto_carried frame fits⟩
  | kick =>
      rw [kind] at done
      exact kick_carried frame formed done
  | _ => exact ⟨_, rfl, .flatMap_respond .response fits⟩

/-- **The memory carries what the handlers send.** A handler that runs to its end sends
one packet for every datagram, which starts with the response and its terminator. -/
theorem handle_carried {event : ServerEvent}
    (handled : handle server event = .ok (server', sent)) :
    ∃ ops, frame.handle server event = .ok (server', ops) ∧ CarriedBy sent ops := by
  cases event with
  | command request now =>
      obtain ⟨marked, marks, done⟩ := exists_of_bind_eq_ok handled
      obtain ⟨clients, same, formed', -, -⟩ := markActivity_spec formed request now
      rw [same] at marks
      cases marks
      have formedThere : ({ server with clients := clients } : Server).clients.WellFormed := formed'
      obtain ⟨ops, kept, carried⟩ := worker_carried frame formedThere done
      refine ⟨ops, ?_, carried⟩
      simp only [StackFrame.handle, same, done, kept, ok_bind, pure_eq_ok]
  | managerPass currentTime =>
      have done : connectionManager server currentTime = .ok (server', sent) := handled
      have fits := fitting_connectionManager server currentTime _ done
      refine ⟨sent.flatMap (frame.respond .response), ?_, .flatMap_respond .response fits⟩
      simp only [StackFrame.handle, done, ok_bind, pure_eq_ok]

end Handled

end MultithreadedChat
